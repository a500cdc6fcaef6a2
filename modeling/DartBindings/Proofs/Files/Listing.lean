import DartBindings.Files.Listing
import DartBindings.Proofs.Files.Path
import DartBindings.Proofs.Files.Tree
import DartBindings.Proofs.Text.Raw
import Mathlib.Data.List.Induction
import Mathlib.Data.String.Basic

/-!
What a listing of files depends on. The files below a directory come in the strict order of their
components, each once, and in whatever order the entries of the tree are met. They are the files
that names lead to from the directory.
-/

set_option autoImplicit false

namespace DartBindings.Files

open Text

/-! ## The order -/

/-- Components are compared one by one, each by its code points. -/
def Path.Precedes (path other : Path) : Prop :=
  path.parts.map RawText.codes < other.parts.map RawText.codes

theorem compare_list_eq_lt_iff {α : Type} [Ord α] [Std.LawfulEqOrd α] [LT α]
    (lawful : ∀ a b : α, compare a b = .lt ↔ a < b) (list other : List α) :
    compare list other = .lt ↔ list < other := by
  induction list generalizing other with
  | nil => cases other <;> simp
  | cons a list ih =>
      cases other with
      | nil => simp
      | cons b other =>
          rw [List.compare_eq_compareLex, List.compareLex_cons_cons, ← List.compare_eq_compareLex,
            Ordering.then_eq_lt, lawful, Std.compare_eq_iff_eq, ih, List.cons_lt_cons_iff]

theorem compare_codes_eq_lt_iff (codes others : List (List Nat)) :
    compare codes others = .lt ↔ codes < others :=
  compare_list_eq_lt_iff (compare_list_eq_lt_iff fun _ _ => Nat.compare_eq_lt) _ _

/-! ## Trees -/

/-- What something in a directory may be called. -/
structure IsEntryName (part : RawText) : Prop extends IsComponent part where
  noParent : part ≠ ".."

instance (part : RawText) : Decidable (IsEntryName part) :=
  decidable_of_iff (part ≠ [] ∧ part ≠ "." ∧ .char '/' ∉ part ∧ part ≠ "..")
    ⟨fun ⟨nonempty, noStop, noSlash, noParent⟩ => ⟨⟨nonempty, noStop, noSlash⟩, noParent⟩,
      fun ⟨⟨nonempty, noStop, noSlash⟩, noParent⟩ => ⟨nonempty, noStop, noSlash, noParent⟩⟩

/-- The entries make up a tree: no place is listed twice, names lead to each from the root, and
each is in a directory. -/
structure FileTree.IsTree (tree : FileTree) : Prop where
  distinct : (tree.entries.map Prod.fst).Nodup
  below : ∀ entry ∈ tree.entries, entry.1 ≠ []
  named : ∀ entry ∈ tree.entries, ∀ part ∈ entry.1, IsEntryName part
  standing : ∀ entry ∈ tree.entries, tree.entry? entry.1.dropLast = some .directory

section Entries

variable {tree other : FileTree} {location place : Location} {entry : Entry} {parts : List RawText}

theorem FileTree.entry?_eq_some_iff (distinct : (tree.entries.map Prod.fst).Nodup)
    (below : location ≠ []) :
    tree.entry? location = some entry ↔ (location, entry) ∈ tree.entries := by
  rw [FileTree.entry?, if_neg (by simpa using below), lookup_eq_some_iff_mem distinct]

theorem FileTree.entry?_perm (distinct : (tree.entries.map Prod.fst).Nodup)
    (listed : other.entries.Perm tree.entries) (location : Location) :
    other.entry? location = tree.entry? location := by
  by_cases root : location = []
  · subst root
    rfl
  · have again := (listed.map Prod.fst).nodup_iff.mpr distinct
    ext entry
    rw [FileTree.entry?_eq_some_iff again root, FileTree.entry?_eq_some_iff distinct root,
      listed.mem_iff]

theorem FileTree.walk_congr (same : ∀ location, other.entry? location = tree.entry? location)
    (location : Location) (parts : List RawText) :
    other.walk location parts = tree.walk location parts := by
  induction parts generalizing location with
  | nil => rw [FileTree.walk, FileTree.walk, same]
  | cons part parts ih => rw [FileTree.walk, FileTree.walk, same, ih, ih, ih]

/-- In a tree a directory stands. -/
theorem FileTree.IsTree.isStanding (isTree : tree.IsTree)
    (directory : tree.entry? location = some .directory) : tree.IsStanding location := by
  induction location using List.reverseRecOn with
  | nil => exact tree.isStanding_root
  | append_singleton location part ih =>
      have listed := (FileTree.entry?_eq_some_iff isTree.distinct (by simp)).mp directory
      have above := isTree.standing _ listed
      rw [List.dropLast_concat] at above
      exact (ih above).concat directory

theorem IsEntryName.step {part : RawText} (named : IsEntryName part) (location : Location) :
    location.step part = location ++ [part] := by
  obtain ⟨⟨nonempty, noStop, -⟩, noParent⟩ := named
  rw [Location.step, if_neg (by simp [nonempty, noStop]), if_neg (by simpa using noParent)]

/-- Names lead from a place to the one below it that has them, if there are directories on the
way. -/
theorem FileTree.walk_named (named : ∀ part ∈ parts, IsEntryName part)
    (way : ∀ n < parts.length, tree.entry? (location ++ parts.take n) = some .directory)
    (last : tree.entry? (location ++ parts) = some entry) :
    tree.walk location parts = .ok (location ++ parts, entry) := by
  induction parts generalizing location with
  | nil => exact FileTree.walk_nil_eq_ok_iff.mpr ⟨(List.append_nil location).symm, last⟩
  | cons part parts ih =>
      have here : tree.entry? location = some .directory := by
        simpa using way 0 (Nat.zero_lt_succ _)
      have step (rest : List RawText) : location ++ part :: rest = location ++ [part] ++ rest :=
        List.append_cons ..
      rw [FileTree.walk_of_directory here, (named part List.mem_cons_self).step, step parts]
      rw [step parts] at last
      refine ih (fun other member => named other (List.mem_cons_of_mem _ member)) ?_ last
      intro n inside
      have later := way (n + 1) (Nat.succ_lt_succ inside)
      rwa [List.take_succ_cons, step] at later

/-- Names lead nowhere else. -/
theorem FileTree.walk_place (named : ∀ part ∈ parts, IsEntryName part)
    (reached : tree.walk location parts = .ok (place, entry)) : place = location ++ parts := by
  induction parts generalizing location with
  | nil =>
      rw [List.append_nil]
      exact (FileTree.walk_nil_eq_ok_iff.mp reached).1.symm
  | cons part parts ih =>
      have later := (FileTree.walk_cons_eq_ok_iff.mp reached).2
      rw [(named part List.mem_cons_self).step] at later
      rw [ih (fun other member => named other (List.mem_cons_of_mem _ member)) later,
        List.append_assoc, List.singleton_append]

/-- Where more components lead on, those before them have led to a directory. -/
theorem FileTree.walk_front {rest : List RawText} (some : rest ≠ [])
    (reached : tree.walk location (parts ++ rest) = .ok (place, entry)) :
    ∃ middle, tree.walk location parts = .ok (middle, .directory) ∧
      tree.walk middle rest = .ok (place, entry) := by
  induction parts generalizing location with
  | nil =>
      obtain ⟨part, rest, rfl⟩ := List.exists_cons_of_ne_nil some
      have here := (FileTree.walk_cons_eq_ok_iff.mp reached).1
      exact ⟨location, FileTree.walk_nil_eq_ok_iff.mpr ⟨rfl, here⟩, reached⟩
  | cons part parts ih =>
      obtain ⟨here, later⟩ := FileTree.walk_cons_eq_ok_iff.mp reached
      rw [FileTree.walk_of_directory here]
      exact ih later

end Entries

/-! ## The files below a directory -/

section Listing

variable {tree other : FileTree} {root : Location} {ending : RawText} {parts : List RawText}

theorem fileBelow?_eq_some_iff {listed : Location × Entry} :
    fileBelow? root ending listed = some parts ↔
      parts ≠ [] ∧ ending <:+ parts.getLast?.getD [] ∧
        ∃ content, listed = (root ++ parts, .file content) := by
  obtain ⟨location, entry⟩ := listed
  cases entry with
  | directory => simp [fileBelow?]
  | file content =>
      rw [fileBelow?]
      constructor
      · intro found
        split at found
        · rename_i fits
          simp only [Bool.and_eq_true, List.isPrefixOf_iff_prefix, decide_eq_true_eq,
            List.isSuffixOf_iff_suffix] at fits
          obtain ⟨⟨⟨rest, rfl⟩, longer⟩, ends⟩ := fits
          rw [List.drop_left] at found
          cases found
          have some : parts ≠ [] := by
            rintro rfl
            simp at longer
          rw [List.getLast?_append_of_ne_nil _ some] at ends
          exact ⟨some, ends, content, rfl⟩
        · cases found
      · rintro ⟨some, ends, other, same⟩
        cases same
        have longer : 0 < parts.length := List.length_pos_iff.mpr some
        rw [if_pos, List.drop_left]
        simp only [Bool.and_eq_true, List.isPrefixOf_iff_prefix, decide_eq_true_eq,
          List.isSuffixOf_iff_suffix, List.getLast?_append_of_ne_nil _ some, List.length_append]
        exact ⟨⟨List.prefix_append _ _, by omega⟩, ends⟩

theorem mem_filesBelow :
    parts ∈ filesBelow tree root ending ↔
      parts ≠ [] ∧ ending <:+ parts.getLast?.getD [] ∧
        ∃ content, (root ++ parts, .file content) ∈ tree.entries := by
  simp only [filesBelow, List.mem_mergeSort, List.mem_filterMap, fileBelow?_eq_some_iff]
  constructor
  · rintro ⟨listed, member, some, ends, content, rfl⟩
    exact ⟨some, ends, content, member⟩
  · rintro ⟨some, ends, content, member⟩
    exact ⟨_, member, some, ends, content, rfl⟩

/-- The components of one file do not come after those of the other. -/
def ordered (parts others : List RawText) : Bool :=
  (compare (parts.map RawText.codes) (others.map RawText.codes)).isLE

theorem pairwise_mergeSort_ordered (list : List (List RawText)) :
    (list.mergeSort ordered).Pairwise fun a b => ordered a b = true := by
  refine List.pairwise_mergeSort (fun a b c => Std.TransCmp.isLE_trans) (fun a b => ?_) list
  have swapped : compare (b.map RawText.codes) (a.map RawText.codes) =
      (compare (a.map RawText.codes) (b.map RawText.codes)).swap := Std.OrientedCmp.eq_swap
  rw [ordered, ordered, swapped]
  cases compare (a.map RawText.codes) (b.map RawText.codes) <;> rfl

theorem map_codes_injective : Function.Injective (List.map RawText.codes) :=
  List.map_injective_iff.mpr RawText.codes_injective

/-- The order in which the entries are met makes no difference. -/
theorem filesBelow_perm (listed : other.entries.Perm tree.entries) :
    filesBelow other root ending = filesBelow tree root ending := by
  refine List.Perm.eq_of_pairwise (fun a b _ _ before after => ?_)
    (pairwise_mergeSort_ordered _) (pairwise_mergeSort_ordered _) ?_
  · exact map_codes_injective
      (Std.LawfulEqCmp.eq_of_compare (Std.OrientedCmp.isLE_antisymm before after))
  · exact (List.mergeSort_perm _ _).trans
      ((listed.filterMap _).trans (List.mergeSort_perm _ _).symm)

theorem pairwise_filesBelow (distinct : (tree.entries.map Prod.fst).Nodup) :
    (filesBelow tree root ending).Pairwise fun a b =>
      a.map RawText.codes < b.map RawText.codes := by
  have unequal : (filesBelow tree root ending).Nodup := by
    refine (List.mergeSort_perm _ _).nodup_iff.mpr (List.pairwise_filterMap.mpr ?_)
    refine (List.pairwise_map.mp distinct).imp fun apart parts found others again => ?_
    rintro rfl
    obtain ⟨-, -, content, rfl⟩ := fileBelow?_eq_some_iff.mp found
    obtain ⟨-, -, content, rfl⟩ := fileBelow?_eq_some_iff.mp again
    exact apart rfl
  refine ((pairwise_mergeSort_ordered _).and unequal).imp fun {a b} both => ?_
  rw [← compare_codes_eq_lt_iff]
  obtain ⟨before, apart⟩ := both
  cases order : compare (a.map RawText.codes) (b.map RawText.codes) with
  | lt => rfl
  | eq => exact absurd (map_codes_injective (Std.LawfulEqCmp.eq_of_compare order)) apart
  | gt => simp [ordered, order] at before

end Listing

/-! ## Paths -/

/-- A file below the directory `root` whose name has the ending, under the path that its names
make up from there. -/
def World.IsFileBelow (world : World) (root : Path) (ending : RawText) (path : Path) : Prop :=
  ∃ parts, path = root.join ⟨.relative, parts⟩ ∧ parts ≠ [] ∧ (∀ part ∈ parts, IsEntryName part) ∧
    ending <:+ path.name ∧
      ∃ place content, world.locate path = .ok (place, .file content)

section Paths

variable {world again : World} {root path : Path} {ending : RawText}

theorem Path.join_relative (root : Path) (parts : List RawText) :
    root.join ⟨.relative, parts⟩ = ⟨root.anchor, root.parts ++ parts⟩ :=
  rfl

theorem Path.name_join {parts : List RawText} (some : parts ≠ []) :
    (root.join ⟨.relative, parts⟩).name = parts.getLast?.getD [] := by
  rw [Path.join_relative, Path.name, List.getLast?_append_of_ne_nil _ some]

theorem mem_files (isTree : world.tree.IsTree) :
    path ∈ world.files root ending ↔ world.IsFileBelow root ending path := by
  unfold World.files
  constructor
  · intro member
    split at member
    · rename_i location found
      obtain ⟨parts, inside, rfl⟩ := List.mem_map.mp member
      obtain ⟨some, ends, content, listed⟩ := mem_filesBelow.mp inside
      have named : ∀ part ∈ parts, IsEntryName part :=
        fun part within => isTree.named _ listed part (List.mem_append_right _ within)
      have standing := isTree.isStanding (isTree.standing _ listed)
      have entry := (FileTree.entry?_eq_some_iff isTree.distinct (isTree.below _ listed)).mpr listed
      have reached := FileTree.walk_named named (fun n inside => ?_) entry
      · refine ⟨parts, rfl, some, named, ?_, location ++ parts, content, ?_⟩
        · rwa [Path.name_join some]
        · rw [Path.join_relative, World.locate, FileTree.walk_append found, reached]
      · have above := standing (location.length + n)
        rwa [List.dropLast_append_of_ne_nil some, List.take_append,
          List.take_of_length_le (by omega),
          Nat.add_sub_cancel_left, List.dropLast_eq_take, List.take_take,
          Nat.min_eq_left (by omega)] at above
    · cases member
  · rintro ⟨parts, rfl, some, named, ends, place, content, reached⟩
    rw [Path.name_join some] at ends
    rw [Path.join_relative, World.locate] at reached
    obtain ⟨location, found, later⟩ := FileTree.walk_front some reached
    obtain rfl := FileTree.walk_place named later
    have below : location ++ parts ≠ [] := by simp [some]
    have listed :=
      (FileTree.entry?_eq_some_iff isTree.distinct below).mp (FileTree.walk_entry later)
    rw [World.locate, found]
    exact List.mem_map.mpr ⟨parts, mem_filesBelow.mpr ⟨some, ends, content, listed⟩, rfl⟩

theorem pairwise_files (isTree : world.tree.IsTree) :
    (world.files root ending).Pairwise Path.Precedes := by
  unfold World.files
  split
  · rw [List.pairwise_map]
    refine (pairwise_filesBelow isTree.distinct).imp fun ordered => ?_
    rw [Path.join_relative, Path.join_relative, Path.Precedes, List.map_append, List.map_append]
    exact List.append_left_lt ordered
  · exact .nil

theorem locate_perm (distinct : (world.tree.entries.map Prod.fst).Nodup)
    (listed : again.tree.entries.Perm world.tree.entries)
    (directory : again.directory = world.directory) (path : Path) :
    again.locate path = world.locate path := by
  have origin : again.origin path.anchor = world.origin path.anchor := by
    cases path.anchor <;> simp [World.origin, directory]
  rw [World.locate, World.locate, origin,
    FileTree.walk_congr (FileTree.entry?_perm distinct listed)]

theorem files_perm (distinct : (world.tree.entries.map Prod.fst).Nodup)
    (listed : again.tree.entries.Perm world.tree.entries)
    (directory : again.directory = world.directory) :
    again.files root ending = world.files root ending := by
  unfold World.files
  rw [locate_perm distinct listed directory]
  split
  · rw [filesBelow_perm listed]
  · rfl

end Paths

end DartBindings.Files
