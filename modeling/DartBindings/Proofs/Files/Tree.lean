import DartBindings.Files.Tree
import DartBindings.Proofs.Lookup

/-!
What creating directories and writing a file leave alone. Creating a directory adds an entry where
there was none, and writing a file touches one place: the one that the path denotes afterwards. For
this the current directory has to stand in the tree, so that parent components lead back to
directories.
-/

set_option autoImplicit false

namespace DartBindings.Files

open Text

/-! ## Entries -/

section Entries

variable {tree : FileTree} {location place : Location}

theorem FileTree.entry?_put (tree : FileTree) (below : place ≠ []) (entry : Entry)
    (location : Location) :
    FileTree.entry? (tree.put place entry) location =
      if location = place then some entry else tree.entry? location := by
  unfold FileTree.entry? FileTree.put
  by_cases same : location = place
  · subst same
    simp [below]
  · have apart : (location == place) = false := by simpa using same
    simp only [List.lookup_cons, apart, if_neg same, lookup_filter_of_ne same]

theorem FileTree.entry?_put_of_ne (tree : FileTree) (below : place ≠ []) (entry : Entry)
    (apart : location ≠ place) :
    FileTree.entry? (tree.put place entry) location = tree.entry? location := by
  rw [tree.entry?_put below, if_neg apart]

/-- The location and all those above it are directories. -/
def FileTree.IsStanding (tree : FileTree) (location : Location) : Prop :=
  ∀ n, tree.entry? (location.take n) = some .directory

theorem FileTree.IsStanding.entry (standing : tree.IsStanding location) :
    tree.entry? location = some .directory := by
  have whole := standing location.length
  rwa [List.take_length] at whole

theorem FileTree.isStanding_root (tree : FileTree) : tree.IsStanding [] := by
  intro n
  rw [List.take_nil]
  rfl

theorem FileTree.IsStanding.dropLast (standing : tree.IsStanding location) :
    tree.IsStanding location.dropLast := by
  intro n
  rw [List.dropLast_eq_take, List.take_take]
  exact standing _

theorem FileTree.IsStanding.concat (standing : tree.IsStanding location) {part : RawText}
    (here : tree.entry? (location ++ [part]) = some .directory) :
    tree.IsStanding (location ++ [part]) := by
  intro n
  by_cases inside : n ≤ location.length
  · rw [List.take_append_of_le_length inside]
    exact standing n
  · rwa [List.take_of_length_le]
    rw [List.length_append, List.length_singleton]
    omega

end Entries

/-! ## The way to a place -/

/-- Where a component leads from a directory. -/
def Location.step (location : Location) (part : RawText) : Location :=
  if part.isEmpty || part == "." then location
  else if part == ".." then location.dropLast
  else location ++ [part]

section Walk

variable {tree : FileTree} {location found place : Location} {entry : Entry} {part : RawText}
  {parts : List RawText} {result : Location × Entry}

theorem FileTree.walk_nil_eq_ok_iff :
    tree.walk location [] = .ok (found, entry) ↔
      location = found ∧ tree.entry? found = some entry := by
  rw [FileTree.walk]
  cases here : tree.entry? location with
  | none =>
      refine iff_of_false nofun ?_
      rintro ⟨rfl, there⟩
      rw [here] at there
      cases there
  | some other =>
      constructor
      · intro same
        cases same
        exact ⟨rfl, here⟩
      · rintro ⟨rfl, there⟩
        cases here.symm.trans there
        rfl

theorem FileTree.walk_of_directory (here : tree.entry? location = some .directory)
    (part : RawText) (parts : List RawText) :
    tree.walk location (part :: parts) = tree.walk (location.step part) parts := by
  rw [FileTree.walk, here, Location.step]
  dsimp only
  split
  · rfl
  · split <;> rfl

theorem FileTree.walk_cons_eq_ok_iff :
    tree.walk location (part :: parts) = .ok result ↔
      tree.entry? location = some .directory ∧
        tree.walk (location.step part) parts = .ok result := by
  cases here : tree.entry? location with
  | none =>
      rw [FileTree.walk, here]
      exact iff_of_false nofun nofun
  | some entry =>
      cases entry with
      | file content =>
          rw [FileTree.walk, here]
          exact iff_of_false nofun nofun
      | directory =>
          rw [FileTree.walk_of_directory here]
          exact (and_iff_right rfl).symm

theorem FileTree.walk_entry (reached : tree.walk location parts = .ok (found, entry)) :
    tree.entry? found = some entry := by
  induction parts generalizing location with
  | nil => exact (FileTree.walk_nil_eq_ok_iff.mp reached).2
  | cons part parts ih => exact ih (FileTree.walk_cons_eq_ok_iff.mp reached).2

/-- A component that names no place of its own leads to a directory that stands. -/
theorem FileTree.IsStanding.step_or (standing : tree.IsStanding location) (part : RawText) :
    location.step part = location ++ [part] ∨ tree.IsStanding (location.step part) := by
  unfold Location.step
  split
  · exact .inr standing
  · split
    · exact .inr standing.dropLast
    · exact .inl rfl

/-- A directory that a path from a standing one leads to stands. -/
theorem FileTree.IsStanding.walk (standing : tree.IsStanding location)
    (reached : tree.walk location parts = .ok (found, .directory)) : tree.IsStanding found := by
  -- On the way a component may lead to a file, which ends it.
  have way : tree.entry? location = some .directory → tree.IsStanding location := fun _ => standing
  clear standing
  induction parts generalizing location with
  | nil =>
      obtain ⟨rfl, here⟩ := FileTree.walk_nil_eq_ok_iff.mp reached
      exact way here
  | cons part parts ih =>
      obtain ⟨here, later⟩ := FileTree.walk_cons_eq_ok_iff.mp reached
      refine ih later fun there => ?_
      rcases (way here).step_or part with down | stands
      · rw [down] at there ⊢
        exact (way here).concat there
      · exact stands

/-- Where a path leads to a directory, more components go on from there. -/
theorem FileTree.walk_append (reached : tree.walk location parts = .ok (found, .directory))
    (rest : List RawText) : tree.walk location (parts ++ rest) = tree.walk found rest := by
  induction parts generalizing location with
  | nil =>
      obtain ⟨rfl, -⟩ := FileTree.walk_nil_eq_ok_iff.mp reached
      rfl
  | cons part parts ih =>
      obtain ⟨here, later⟩ := FileTree.walk_cons_eq_ok_iff.mp reached
      rw [List.cons_append, FileTree.walk_of_directory here, ih later]

/-- A change at a place that is no directory does not keep a path from where it leads. -/
theorem FileTree.walk_put (below : place ≠ []) (noDirectory : tree.entry? place ≠ some .directory)
    (new : Entry) (reached : tree.walk location parts = .ok (found, entry)) :
    (tree.put place new).walk location parts =
      .ok (found, if found = place then new else entry) := by
  induction parts generalizing location with
  | nil =>
      obtain ⟨rfl, here⟩ := FileTree.walk_nil_eq_ok_iff.mp reached
      refine FileTree.walk_nil_eq_ok_iff.mpr ⟨rfl, ?_⟩
      rw [tree.entry?_put below, here]
      split <;> rfl
  | cons part parts ih =>
      obtain ⟨here, later⟩ := FileTree.walk_cons_eq_ok_iff.mp reached
      have apart : location ≠ place := by
        rintro rfl
        exact noDirectory here
      refine FileTree.walk_cons_eq_ok_iff.mpr ⟨?_, ih later⟩
      rw [tree.entry?_put_of_ne below new apart, here]

end Walk

/-! ## Worlds -/

/-- The current directory stands in the tree. -/
def World.IsPlaced (world : World) : Prop :=
  world.tree.IsStanding world.directory

section World

variable {world after : World} {path : Path} {location : Location}

theorem World.IsPlaced.origin (placed : world.IsPlaced) (anchor : Anchor) :
    world.tree.IsStanding (world.origin anchor) := by
  cases anchor with
  | relative => exact placed
  | root | doubleRoot => exact world.tree.isStanding_root

/-- Where nothing stands yet but in a directory that there is. -/
structure World.Vacant (world : World) (path : Path) (location : Location) : Prop where
  standing : world.tree.IsStanding location
  entry : world.tree.entry? (location ++ [path.name]) = none
  missing : world.tree.walk location [path.name] = .error .missing
  parts : path.parts = path.parent.parts ++ [path.name]

theorem World.IsPlaced.vacant (placed : world.IsPlaced)
    (missing : world.locate path = .error .missing)
    (above : world.locate path.parent = .ok (location, .directory)) :
    world.Vacant path location := by
  have standing := (placed.origin path.anchor).walk above
  have some : path.parts ≠ [] := by
    intro none
    have same : path.parent = path := by
      obtain ⟨anchor, parts⟩ := path
      subst none
      rfl
    rw [same, missing] at above
    cases above
  have split : path.parts = path.parent.parts ++ [path.name] := by
    have last := List.getLast?_eq_some_getLast some
    rw [Path.name, last]
    exact (List.dropLast_concat_getLast some).symm
  have way : world.tree.walk location [path.name] = .error .missing := by
    rw [← FileTree.walk_append above, ← missing, World.locate, split]
    rfl
  refine ⟨standing, ?_, way, split⟩
  rw [FileTree.walk_of_directory standing.entry] at way
  rcases standing.step_or path.name with down | stands
  · rw [down, FileTree.walk] at way
    split at way
    · cases way
    · assumption
  · rw [FileTree.walk, stands.entry] at way
    cases way

theorem World.Vacant.step (vacant : world.Vacant path location) :
    location.step path.name = location ++ [path.name] := by
  rcases vacant.standing.step_or path.name with down | stands
  · exact down
  · have missing := vacant.missing
    rw [FileTree.walk_of_directory vacant.standing.entry, FileTree.walk, stands.entry] at missing
    cases missing

/-- A new entry is what the path to it denotes. -/
theorem World.Vacant.locate_put (vacant : world.Vacant path location)
    (above : world.locate path.parent = .ok (location, .directory)) (entry : Entry) :
    (world.put (location ++ [path.name]) entry).locate path =
      .ok (location ++ [path.name], entry) := by
  have below : location ++ [path.name] ≠ [] := by simp
  have noDirectory : world.tree.entry? (location ++ [path.name]) ≠ some .directory := by
    rw [vacant.entry]
    exact fun same => nomatch same
  have apart : location ≠ location ++ [path.name] := by simp
  have reached := FileTree.walk_put below noDirectory entry above
  rw [if_neg apart] at reached
  have step := FileTree.walk_append reached [path.name]
  rw [show path.parent.parts ++ [path.name] = path.parts from vacant.parts.symm] at step
  refine step.trans ?_
  have here : FileTree.entry? (world.tree.put (location ++ [path.name]) entry) location =
      some .directory := by
    rw [world.tree.entry?_put_of_ne below entry apart, vacant.standing.entry]
  have there : FileTree.entry? (world.tree.put (location ++ [path.name]) entry)
      (location ++ [path.name]) = some entry := by
    rw [world.tree.entry?_put below, if_pos rfl]
  rw [FileTree.walk_of_directory here, vacant.step]
  exact FileTree.walk_nil_eq_ok_iff.mpr ⟨rfl, there⟩

/-! ## Files that stay -/

/-- The same files with the same bytes stand in both trees, apart from one place. -/
def FileTree.SameFilesBut (place : Option Location) (before after : FileTree) : Prop :=
  ∀ location content, some location ≠ place →
    ( after.entry? location = some (.file content) ↔ before.entry? location = some (.file content))

/-- No file of the world is created, changed or removed, and no directory is removed. -/
structure World.Keeps (before after : World) : Prop where
  directory : after.directory = before.directory
  files : before.tree.SameFilesBut none after.tree
  directories : ∀ location, before.tree.entry? location = some .directory →
    after.tree.entry? location = some .directory

theorem World.Keeps.refl (world : World) : world.Keeps world :=
  ⟨rfl, fun _ _ _ => Iff.rfl, fun _ => id⟩

theorem World.Keeps.trans {first second third : World} (before : first.Keeps second)
    (after : second.Keeps third) : first.Keeps third :=
  ⟨after.directory.trans before.directory,
    fun location content apart =>
      (after.files location content apart).trans (before.files location content apart),
    fun location here => after.directories location (before.directories location here)⟩

theorem World.Keeps.isPlaced (keeps : world.Keeps after) (placed : world.IsPlaced) :
    after.IsPlaced := by
  intro n
  rw [keeps.directory]
  exact keeps.directories _ (placed n)

/-- A new directory where nothing stood changes no file. -/
theorem World.keeps_put_directory {place : Location} (below : place ≠ [])
    (vacant : world.tree.entry? place = none) : world.Keeps (world.put place .directory) := by
  refine ⟨rfl, fun location content _ => ?_, fun location here => ?_⟩
  · rw [World.put, world.tree.entry?_put below]
    split
    · rename_i same
      subst same
      rw [vacant]
      simp
    · rfl
  · rw [World.put, world.tree.entry?_put below, here]
    split <;> rfl

theorem World.makeDirectory_keeps (placed : world.IsPlaced)
    (made : world.makeDirectory path = .ok after) : world.Keeps after := by
  unfold World.makeDirectory at made
  split at made
  · cases made
  · rename_i missing
    split at made
    · rename_i location above
      cases made
      exact World.keeps_put_directory (by simp) (placed.vacant missing above).entry
    · cases made
    · cases made
  · cases made

theorem World.settle_world (world : World) (path : Path) (fault : Fault) :
    (world.settle path fault).1 = world := by
  unfold World.settle
  split <;> rfl

/-- Directories are created one by one, the outer ones first, and even a failure leaves every file
as it was. -/
theorem World.makeParts_keeps (placed : world.IsPlaced) (anchor : Anchor) (parts : List RawText) :
    world.Keeps (world.makeParts anchor parts).1 := by
  induction parts generalizing world with
  | nil => exact .refl world
  | cons name above ih =>
      rw [World.makeParts]
      split
      · rename_i after made
        exact World.makeDirectory_keeps placed made
      · have outer := ih placed
        split
        · rename_i after error failed
          rwa [failed] at outer
        · rename_i after made
          rw [made] at outer
          split
          · rename_i last done
            exact outer.trans (World.makeDirectory_keeps (outer.isPlaced placed) done)
          · rw [World.settle_world]
            exact outer
      · rw [World.settle_world]
        exact .refl world

theorem World.makeDirectories_keeps (placed : world.IsPlaced) (path : Path) :
    world.Keeps (world.makeDirectories path).1 :=
  World.makeParts_keeps placed path.anchor path.parts.reverse

/-! ## The file that is written -/

/-- Only the file that the path denotes afterwards may differ, and it holds this. -/
def World.Writes (before : World) (path : Path) (content : List UInt8) (after : World) : Prop :=
  ∃ place, after.locate path = .ok (place, .file content) ∧
    before.tree.SameFilesBut (some place) after.tree

theorem World.Keeps.writes {content : List UInt8} {middle : World} (keeps : world.Keeps middle)
    (writes : middle.Writes path content after) : world.Writes path content after := by
  obtain ⟨place, written, same⟩ := writes
  exact ⟨place, written, fun location content apart =>
    (same location content apart).trans (keeps.files location content nofun)⟩

theorem World.sameFilesBut_put {place : Location} (below : place ≠ []) (entry : Entry) :
    world.tree.SameFilesBut (some place) (world.put place entry).tree := by
  intro location content apart
  have other : location ≠ place := fun same => apart (congrArg some same)
  rw [World.put, world.tree.entry?_put_of_ne below entry other]

theorem World.write_failed {content : List UInt8} {error : FileError}
    (failed : world.write path content = (after, .error error)) : after = world := by
  unfold World.write at failed
  split at failed
  · cases failed
  · cases failed
    rfl
  · split at failed <;> cases failed <;> rfl
  · cases failed
    rfl

theorem World.write_writes {content : List UInt8} (placed : world.IsPlaced)
    (done : world.write path content = (after, .ok ())) : world.Writes path content after := by
  unfold World.write at done
  split at done
  · rename_i location old here
    cases done
    have entry := FileTree.walk_entry here
    have below : location ≠ [] := by
      rintro rfl
      cases entry
    have noDirectory : world.tree.entry? location ≠ some .directory := by
      rw [entry]
      exact fun same => nomatch same
    have reached := FileTree.walk_put below noDirectory (.file content) here
    rw [if_pos rfl] at reached
    exact ⟨location, reached, World.sameFilesBut_put below _⟩
  · cases done
  · rename_i missing
    split at done
    · rename_i location above
      cases done
      have vacant := placed.vacant missing above
      exact ⟨location ++ [path.name], vacant.locate_put above _,
        World.sameFilesBut_put (by simp) _⟩
    · cases done
    · cases done
  · cases done

end World

end DartBindings.Files
