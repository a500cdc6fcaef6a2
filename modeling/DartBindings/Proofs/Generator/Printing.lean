import DartBindings.Generator
import DartBindings.Proofs.Files.Path
import DartBindings.Proofs.Text.Raw

/-!
What a run can print. Lines are printed up to the first one with stray bytes; the only ones that
can hold any name a source tree or the file that has been written.
-/

set_option autoImplicit false

namespace DartBindings

open Text Bridge Files

variable {generator : Generator} {lines : List RawText}

theorem printLines_result_iff : (printLines lines).2 = .ok () ↔ ∀ line ∈ lines, line.IsText := by
  induction lines with
  | nil => simp [printLines]
  | cons line lines ih =>
      rw [List.forall_mem_cons, RawText.isText_iff, ← ih]
      simp only [← RawText.toString_eq_ok_iff]
      rw [printLines]
      cases line.toString with
      | error error => simp
      | ok text => simp

theorem printLines_ofString (text : String) :
    printLines [RawText.ofString text] = ([text], .ok ()) := by
  rw [printLines, RawText.toString_ofString]
  rfl

theorem Generator.progress_of_quiet (quiet : generator.isVerbose = false) (lines : List String) :
    generator.progress lines = [] := by
  rw [Generator.progress, quiet]
  rfl

theorem Generator.announce_of_quiet (quiet : generator.isVerbose = false) (lines : List RawText) :
    generator.announce lines = ([], .ok ()) := by
  rw [Generator.announce, quiet]
  rfl

theorem Generator.announce_result_iff :
    (generator.announce lines).2 = .ok () ↔
      (generator.isVerbose = true → ∀ line ∈ lines, line.IsText) := by
  rw [Generator.announce]
  cases generator.isVerbose with
  | false => simp
  | true => simpa using printLines_result_iff

/-- The report on a file can be printed exactly if the path of the file can. -/
theorem closingLines_isText {entities : List Entity} {path : Path} :
    (∀ line ∈ closingLines entities path, line.IsText) ↔ path.text.IsText := by
  have plain (text : String) : (RawText.ofString text).IsText := RawText.isText_ofString text
  rw [closingLines, List.forall_mem_cons, List.forall_mem_cons, RawText.isText_append,
    and_iff_right (plain _), and_iff_right (plain _)]
  refine and_iff_left_of_imp fun printable line member => ?_
  have name : path.name.IsText :=
    fun point inside => printable point (path.name_subset_text inside)
  unfold usageHint at member
  split at member
  · cases member
  · split at member
    · cases member
    · simp only [List.mem_cons, List.not_mem_nil, or_false] at member
      rcases member with rfl | rfl | rfl | rfl | rfl | rfl
      · exact plain _
      · exact plain _
      · exact plain _
      · exact RawText.isText_append.mpr ⟨RawText.isText_append.mpr ⟨plain _, name⟩, plain _⟩
      · exact plain _
      · exact plain _

end DartBindings
