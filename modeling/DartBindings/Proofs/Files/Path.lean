import DartBindings.Files.Path
import DartBindings.Proofs.Text.Raw

/-!
Paths and their texts. The text of a path reads back as the same path, so nothing is lost when a
path is handed on as a text.
-/

set_option autoImplicit false

namespace DartBindings.Files

open Text

/-- What may stand between two slashes of a path. -/
structure IsComponent (part : RawText) : Prop where
  nonempty : part ≠ []
  noStop : part ≠ "."
  noSlash : .char '/' ∉ part

/-- A path as it is read off a text. -/
def Path.IsProper (path : Path) : Prop :=
  ∀ part ∈ path.parts, IsComponent part

/-! ## Slashes -/

theorem components_whole {part : RawText} (noSlash : .char '/' ∉ part) :
    components part = [part] := by
  induction part with
  | nil => rfl
  | cons point part ih =>
      simp only [List.mem_cons, not_or] at noSlash
      rw [components, if_neg (Ne.symm noSlash.1), ih noSlash.2]

theorem components_append {part : RawText} (noSlash : .char '/' ∉ part) (rest : RawText) :
    components (part ++ .char '/' :: rest) = part :: components rest := by
  induction part with
  | nil => rw [List.nil_append, components, if_pos rfl]
  | cons point part ih =>
      simp only [List.mem_cons, not_or] at noSlash
      rw [List.cons_append, components, if_neg (Ne.symm noSlash.1), ih noSlash.2]

theorem not_mem_of_mem_components {text part : RawText} (member : part ∈ components text) :
    .char '/' ∉ part := by
  induction text generalizing part with
  | nil =>
      rw [components, List.mem_singleton] at member
      subst member
      exact List.not_mem_nil
  | cons point text ih =>
      rw [components] at member
      split at member
      · rcases List.mem_cons.mp member with rfl | later
        · exact List.not_mem_nil
        · exact ih later
      · rename_i noSlash
        have other : .char '/' ≠ point := Ne.symm noSlash
        split at member
        · rw [List.mem_singleton] at member
          subst member
          simpa using other
        · rename_i first rest cut
          rcases List.mem_cons.mp member with rfl | later
          · have within := ih (cut ▸ List.mem_cons_self)
            simpa [other] using within
          · exact ih (cut ▸ List.mem_cons_of_mem _ later)

/-! ## Proper paths -/

theorem isProper_ofText (text : RawText) : (Path.ofText text).IsProper := by
  intro part member
  simp only [Path.ofText, List.mem_filter, Bool.and_eq_true, Bool.not_eq_true',
    List.isEmpty_eq_false_iff, bne_iff_ne] at member
  obtain ⟨cut, nonempty, noStop⟩ := member
  exact ⟨nonempty, noStop, not_mem_of_mem_components cut⟩

theorem Path.forall_join {holds : RawText → Prop} {base path : Path}
    (first : ∀ part ∈ base.parts, holds part) (last : ∀ part ∈ path.parts, holds part) :
    ∀ part ∈ (base.join path).parts, holds part := by
  unfold Path.join
  split
  · exact last
  · exact List.forall_mem_append.mpr ⟨first, last⟩

theorem Path.IsProper.join {base path : Path} (first : base.IsProper) (last : path.IsProper) :
    (base.join path).IsProper :=
  Path.forall_join first last

section Text

variable {path : Path} {parts : List RawText}

theorem components_join (some : parts ≠ []) (proper : ∀ part ∈ parts, IsComponent part) :
    components ([.char '/'].intercalate parts) = parts := by
  induction parts with
  | nil => exact absurd rfl some
  | cons part parts ih =>
      have here := (proper part List.mem_cons_self).noSlash
      cases parts with
      | nil => rw [List.intercalate_singleton, components_whole here]
      | cons next parts =>
          rw [List.intercalate_cons_cons, List.append_assoc, List.singleton_append,
            components_append here, ih (List.cons_ne_nil _ _)]
          exact fun other member => proper other (List.mem_cons_of_mem _ member)

theorem filter_components (proper : ∀ part ∈ parts, IsComponent part) :
    (parts.filter fun (part : RawText) => !part.isEmpty && part != ".") = parts := by
  apply List.filter_eq_self.mpr
  intro part member
  obtain ⟨nonempty, noStop, -⟩ := proper part member
  simp [noStop, nonempty]

/-- Components in a row do not start with a slash. -/
theorem takeWhile_slash_join (proper : ∀ part ∈ parts, IsComponent part) :
    ([.char '/'].intercalate parts).takeWhile (· == .char '/') = [] := by
  cases parts with
  | nil => rfl
  | cons part parts =>
      obtain ⟨nonempty, -, noSlash⟩ := proper part List.mem_cons_self
      obtain ⟨point, rest, rfl⟩ := List.exists_cons_of_ne_nil nonempty
      have other : (point == .char '/') = false := by
        simp only [List.mem_cons, not_or] at noSlash
        simpa using Ne.symm noSlash.1
      obtain ⟨tail, split⟩ : ∃ tail,
          [.char '/'].intercalate ((point :: rest) :: parts) = point :: tail := by
        cases parts with
        | nil => exact ⟨rest, List.intercalate_singleton⟩
        | cons next parts => exact ⟨_, by rw [List.intercalate_cons_cons]; rfl⟩
      rw [split, List.takeWhile_cons_of_neg (by simp [other])]

theorem ofText_join (anchor : Anchor) (proper : ∀ part ∈ parts, IsComponent part)
    (some : anchor = .relative → parts ≠ []) :
    Path.ofText (anchor.text ++ [.char '/'].intercalate parts) = ⟨anchor, parts⟩ := by
  have slashes := takeWhile_slash_join proper
  have cut : components ([.char '/'].intercalate parts) = parts ∨
      parts = [] ∧ components ([.char '/'].intercalate parts) = [[]] := by
    cases parts with
    | nil => exact .inr ⟨rfl, rfl⟩
    | cons part rest => exact .inl (components_join (List.cons_ne_nil _ _) proper)
  have kept := filter_components proper
  have root : Anchor.root.text = [.char '/'] := by decide
  have double : Anchor.doubleRoot.text = [.char '/', .char '/'] := by decide
  have relative : Anchor.relative.text = [] := rfl
  generalize [.char '/'].intercalate parts = joined at slashes cut
  unfold Path.ofText
  congr 1
  · cases anchor <;> simp [anchorOf, root, double, relative, slashes]
  · cases anchor with
    | relative =>
        have whole := cut.resolve_right fun none => some rfl none.1
        rwa [relative, List.nil_append, whole]
    | root | doubleRoot =>
        rcases cut with whole | ⟨rfl, single⟩
        · simp [root, double, components, whole, kept]
        · simp [root, double, components, single]

/-- The text of a path reads back as the path. -/
theorem Path.IsProper.ofText_text (proper : path.IsProper) : Path.ofText path.text = path := by
  obtain ⟨anchor, parts⟩ := path
  unfold Path.text
  split
  · rename_i here
    simp only [Bool.and_eq_true, beq_iff_eq, List.isEmpty_iff] at here
    obtain ⟨rfl, rfl⟩ := here
    decide
  · rename_i other
    refine ofText_join anchor proper ?_
    rintro rfl rfl
    exact other rfl

theorem Path.IsProper.text_ne (proper : path.IsProper) : path.text ≠ [] := by
  intro empty
  have same := proper.ofText_text
  have stop : (Path.ofText []).text = "." := rfl
  rw [← empty, same, empty] at stop
  exact absurd stop (by decide)

theorem subset_intercalate {separator part : RawText} {parts : List RawText}
    (member : part ∈ parts) : part ⊆ separator.intercalate parts := by
  induction parts with
  | nil => cases member
  | cons first parts ih =>
      cases parts with
      | nil =>
          rw [List.mem_singleton.mp member, List.intercalate_singleton]
          exact fun _ => id
      | cons next parts =>
          rw [List.intercalate_cons_cons, List.append_assoc]
          rcases List.mem_cons.mp member with rfl | later
          · exact fun _ inside => List.mem_append_left _ inside
          · exact fun _ inside =>
              List.mem_append_right _ (List.mem_append_right _ (ih later inside))

/-- The name of a path is a part of its text. -/
theorem Path.name_subset_text (path : Path) : path.name ⊆ path.text := by
  unfold Path.name Path.text
  cases last : path.parts.getLast? with
  | none => exact List.nil_subset _
  | some part =>
      have member := List.mem_of_getLast? last
      rw [if_neg]
      · exact fun _ inside =>
          List.mem_append_right _ (subset_intercalate member inside)
      · rw [Bool.and_eq_true, List.isEmpty_iff]
        rintro ⟨-, empty⟩
        rw [empty] at member
        cases member

end Text

/-! ## Stray bytes -/

section IsText

variable {path : Path} {text : RawText}

theorem subset_of_mem_components {part : RawText} (member : part ∈ components text) :
    part ⊆ text := by
  induction text generalizing part with
  | nil =>
      rw [components, List.mem_singleton] at member
      rw [member]
      exact List.nil_subset _
  | cons point text ih =>
      have later {part : RawText} (member : part ∈ components text) : part ⊆ point :: text :=
        List.subset_cons_of_subset point (ih member)
      rw [components] at member
      split at member
      · rcases List.mem_cons.mp member with rfl | member
        · exact List.nil_subset _
        · exact later member
      · split at member
        · rw [List.mem_singleton.mp member]
          exact List.cons_subset_cons point (List.nil_subset _)
        · rename_i first rest cut
          rcases List.mem_cons.mp member with rfl | member
          · exact List.cons_subset_cons point (ih (cut ▸ List.mem_cons_self))
          · exact later (cut ▸ List.mem_cons_of_mem _ member)

theorem isText_of_mem_ofText (plain : text.IsText) :
    ∀ part ∈ (Path.ofText text).parts, part.IsText := by
  intro part member point inside
  exact plain point (subset_of_mem_components (List.mem_of_mem_filter member) inside)

theorem isText_intercalate {separator : RawText} {parts : List RawText} (apart : separator.IsText)
    (plain : ∀ part ∈ parts, part.IsText) : RawText.IsText (separator.intercalate parts) := by
  induction parts with
  | nil => exact fun point member => nomatch member
  | cons part parts ih =>
      obtain ⟨here, later⟩ := List.forall_mem_cons.mp plain
      cases parts with
      | nil => rwa [List.intercalate_singleton]
      | cons next parts =>
          rw [List.intercalate_cons_cons, RawText.isText_append, RawText.isText_append]
          exact ⟨⟨here, apart⟩, ih later⟩

/-- A path has a text without stray bytes if its components have none. -/
theorem Path.isText_text (plain : ∀ part ∈ path.parts, part.IsText) : path.text.IsText := by
  unfold Path.text
  split
  · exact RawText.isText_ofString _
  · refine RawText.isText_append.mpr ⟨?_, isText_intercalate (RawText.isText_ofString "/") plain⟩
    cases path.anchor <;> exact RawText.isText_ofString _

end IsText

end DartBindings.Files
