import DartBindings.Declaration.SourceTree
import DartBindings.Proofs.Files.Listing
import Mathlib.Data.List.Permutation

/-!
What a source tree declares: what its files do, one after the other. Since the files come in the
order of their paths, it makes no difference in which order the tree lists them.
-/

set_option autoImplicit false

namespace DartBindings.Declaration

open Text Bridge Files

/-- The entities that the files of a source tree declare, file by file in the order of the paths,
unless one of the files cannot be read. A tree that is not there declares none. -/
def declaredBelow (dialect : Dialect) (world : World) (root : Path) :
    Except ReadError (List Entity) :=
  ((world.files root dialect.fileEnding).mapM fun path =>
    (extractFile dialect world path).result).map List.flatten

variable {dialect : Dialect} {world : World} {root : Path}

theorem Extraction.andThen_result {α β : Type} (first : Extraction α) (next : α → Extraction β) :
    (first.andThen next).result = first.result.bind fun value => (next value).result := by
  unfold Extraction.andThen
  cases first.result <;> rfl

theorem extractFiles_result (dialect : Dialect) (world : World) (paths : List Path) :
    (extractFiles dialect world paths).result =
      (paths.mapM fun path => (extractFile dialect world path).result).map List.flatten := by
  induction paths with
  | nil => rfl
  | cons path rest ih =>
      rw [extractFiles, Extraction.andThen_result, List.mapM_cons]
      cases (extractFile dialect world path).result with
      | error cause => rfl
      | ok entities =>
          change (extractFiles dialect world rest).result.map (fun later => entities ++ later) = _
          rw [ih]
          cases rest.mapM fun path => (extractFile dialect world path).result <;> rfl

theorem extractDirectory_result (dialect : Dialect) (world : World) (root : Path) :
    (extractDirectory dialect world root).result = declaredBelow dialect world root :=
  extractFiles_result dialect world _

theorem declaredBelow_of_missing (missing : world.isDirectory root = false) :
    declaredBelow dialect world root = .ok [] := by
  have none : world.files root dialect.fileEnding = [] := by
    unfold World.files
    split
    · rename_i found
      unfold World.isDirectory at missing
      rw [found] at missing
      cases missing
    · rfl
  rw [declaredBelow, none]
  rfl

/-! ## The order of the files -/

/-- The extractions one after the other, up to the first one that fails. -/
def inTurn (extractions : List (Extraction (List Entity))) : Extraction (List Entity) where
  warnings :=
    let failed := extractions.findIdx fun extraction => !extraction.result.isOk
    (extractions.take (failed + 1)).flatMap fun extraction => extraction.warnings
  result := (extractions.mapM Extraction.result).map List.flatten

theorem inTurn_cons_warnings (first : Extraction (List Entity))
    (rest : List (Extraction (List Entity))) :
    (inTurn (first :: rest)).warnings =
      first.warnings ++ if first.result.isOk then (inTurn rest).warnings else [] := by
  cases readable : first.result.isOk with
  | true => simp [inTurn, List.findIdx_cons, readable]
  | false => simp [inTurn, List.findIdx_cons, readable]

theorem extractFiles_warnings (dialect : Dialect) (world : World) (paths : List Path) :
    (extractFiles dialect world paths).warnings =
      (inTurn (paths.map (extractFile dialect world))).warnings := by
  induction paths with
  | nil => rfl
  | cons path rest ih =>
      rw [extractFiles, List.map_cons, inTurn_cons_warnings, ← ih, Extraction.andThen]
      cases (extractFile dialect world path).result with
      | error cause => simp [Except.isOk, Except.toBool]
      | ok entities => rfl

theorem extractFiles_eq_inTurn (dialect : Dialect) (world : World) (paths : List Path) :
    extractFiles dialect world paths = inTurn (paths.map (extractFile dialect world)) := by
  have result : (extractFiles dialect world paths).result =
      (inTurn (paths.map (extractFile dialect world))).result := by
    simp only [extractFiles_result, inTurn, List.mapM_map, Function.comp_def]
  calc extractFiles dialect world paths
      = ⟨(extractFiles dialect world paths).warnings, (extractFiles dialect world paths).result⟩ :=
        rfl
    _ = inTurn (paths.map (extractFile dialect world)) := by
        rw [extractFiles_warnings, result]

/-- A tree that lists its entries in another order has the same files in the same order, the order
of their components, and declares the same with the same reports: what the files do in turn. -/
theorem extractDirectory_listing (dialect : Dialect) {tree other : FileTree} (isTree : tree.IsTree)
    (listed : other.entries.Perm tree.entries) (directory : Location) (root : Path)
    (ending : RawText) :
    let world : World := ⟨tree, directory⟩
    let again : World := ⟨other, directory⟩
    again.files root ending = world.files root ending ∧
      (∀ path, path ∈ world.files root ending ↔ world.IsFileBelow root ending path) ∧
      (world.files root ending).Pairwise Path.Precedes ∧
      extractDirectory dialect again root = extractDirectory dialect world root ∧
      extractDirectory dialect world root =
        inTurn ((world.files root dialect.fileEnding).map (extractFile dialect world)) := by
  intro world again
  have files (ending : RawText) : again.files root ending = world.files root ending :=
    files_perm isTree.distinct listed rfl
  have inTurn := extractFiles_eq_inTurn dialect
  have file : extractFile dialect again = extractFile dialect world := by
    funext path
    have located : again.locate path = world.locate path := by
      apply locate_perm
      · exact isTree.distinct
      · exact listed
      · rfl
    rw [extractFile, extractFile, located]
  refine ⟨files ending, fun path => mem_files isTree, pairwise_files isTree, ?_, inTurn world _⟩
  rw [extractDirectory, extractDirectory, inTurn, inTurn, file, files]

/-- Directories whose names go before and after those of files, or are those of sources. -/
theorem extractDirectory_listing_prefixes :
    let source (name : String) : Entry :=
      .file (encodeUtf8 ("@NativeBridge class " ++ name ++ " \x7b fun f() \x7b\x7d \x7d"))
    let tree : FileTree :=
      ⟨[(["a.kt"], source "Last"), (["a-b"], .directory), (["a-b", "c.kt"], source "Second"),
        (["d.kt"], .directory), (["a"], .directory), (["a", "b.kt"], source "First"),
        (["a", "b.txt"], source "Left")]⟩
    let other : FileTree := ⟨tree.entries.reverse⟩
    let world : World := ⟨tree, []⟩
    let again : World := ⟨other, []⟩
    let root := Path.ofText "."
    tree.IsTree ∧ other.entries.Perm tree.entries ∧
      (world.files root ".kt").map Path.text = (["a/b.kt", "a-b/c.kt", "a.kt"] : List RawText) ∧
      again.files root ".kt" = world.files root ".kt" ∧
      extractDirectory .kotlin again root = extractDirectory .kotlin world root := by
  intro source tree other world again root
  have isTree : tree.IsTree := ⟨by decide, by decide, by decide, by decide⟩
  have listed : other.entries.Perm tree.entries := List.reverse_perm _
  obtain ⟨files, -, -, extraction, -⟩ :=
    extractDirectory_listing .kotlin isTree listed [] root ".kt"
  exact ⟨isTree, listed, by cbv, files, extraction⟩

end DartBindings.Declaration
