import DartBindings.Proofs.Declaration.Respaced
import Mathlib.Data.Option.Defs

/-!
The parameters of lists that differ in the blanks at one place: the same names, the same types up
to blanks, and the same sinks.
-/

set_option autoImplicit false

namespace DartBindings.Declaration

open Text Source Bridge

/-- The parameters are the same, up to blanks inside their types. -/
structure SameParameter (parameter other : Parameter) : Prop where
  name : other.name = parameter.name
  type : compact other.sourceType = compact parameter.sourceType

/-- Both can be read and are related, or both fail, for one cause. -/
inductive Agrees {α : Type} (R : α → α → Prop) : Except ReadError α → Except ReadError α → Prop
    where
  | ok {value other : α} : R value other → Agrees R (.ok value) (.ok other)
  | error (cause : ReadError) : Agrees R (.error cause) (.error cause)

/-! ## Types -/

section Types

variable {first last : List Char}

theorem intercalate_split {separator : List Char} (proper : separator ≠ [])
    (before after : List (List Char)) :
    ∃ front back, (front = [] ∨ front.getLast? = separator.getLast?) ∧
      (back = [] ∨ back.head? = separator.head?) ∧
      ∀ piece, separator.intercalate (before ++ piece :: after) = front ++ (piece ++ back) := by
  induction before with
  | nil =>
      cases after with
      | nil => exact ⟨[], [], .inl rfl, .inl rfl, by simp⟩
      | cons next after =>
          refine ⟨[], separator ++ separator.intercalate (next :: after), .inl rfl, .inr ?_, ?_⟩
          · exact List.head?_append_of_ne_nil _ proper
          · simp [List.intercalate_cons_cons]
  | cons piece before ih =>
      obtain ⟨front, back, ends, starts, same⟩ := ih
      refine ⟨piece ++ separator ++ front, back, .inr ?_, starts, fun other => ?_⟩
      · rcases ends with rfl | ends
        · rw [List.append_nil, List.getLast?_append_of_ne_nil _ proper]
        · obtain ⟨c, last⟩ := Option.isSome_iff_exists.mp (List.getLast?_isSome.mpr proper)
          rw [List.getLast?_append, ends, last, Option.some_or]
      · obtain ⟨next, more, cons⟩ : ∃ next more, before ++ other :: after = next :: more :=
          List.exists_cons_of_ne_nil (by simp)
        have joined := same other
        rw [cons] at joined
        rw [List.cons_append, cons, List.intercalate_cons_cons, joined]
        simp only [List.append_assoc]

theorem intercalate_ofList (pieces : List (List Char)) :
    ": ".intercalate (pieces.map String.ofList) =
      String.ofList ([':', ' '].intercalate pieces) := by
  have inverse : String.toList ∘ String.ofList = id := funext fun _ => String.toList_ofList
  rw [← String.toList_inj, String.toList_intercalate, List.map_map, inverse, List.map_id,
    String.toList_ofList, String.toList_ofList]

/-- A junction stays loose when a blank comes before all, and a colon after all. -/
theorem Loose.extend (loose : Loose first last) {front back : List Char}
    (ends : front = [] ∨ front.getLast? = some ' ') (starts : back = [] ∨ back.head? = some ':') :
    Loose (front ++ first) (last ++ back) := by
  have before {c : Char} (member : c ∈ (front ++ first).getLast?) :
      c ∈ first.getLast? ∨ c = ' ' := by
    rw [Option.mem_def, List.getLast?_append, Option.or_eq_some_iff] at member
    rcases member with inside | ⟨-, outside⟩
    · exact .inl inside
    · rcases ends with rfl | ends
      · cases outside
      · rw [ends, Option.some.injEq] at outside
        exact .inr outside.symm
  have after {d : Char} (member : d ∈ (last ++ back).head?) : d ∈ last.head? ∨ d = ':' := by
    rw [Option.mem_def, List.head?_append, Option.or_eq_some_iff] at member
    rcases member with inside | ⟨-, outside⟩
    · exact .inl inside
    · rcases starts with rfl | starts
      · cases outside
      · rw [starts, Option.some.injEq] at outside
        exact .inr outside.symm
  have colon : isSeparator ':' = true := rfl
  refine ⟨⟨fun stop => ?_, fun c inFirst d inLast mark => ?_⟩, fun c inFirst d inLast word => ?_⟩
  · rcases before stop with stop | blank
    · rw [takeWhile_append_of_endsWord last (endsWord_of_isSeparator colon starts)]
      exact loose.sink stop
    · cases blank
  · rcases before inFirst with inFirst | rfl
    · rcases after inLast with inLast | rfl
      · exact loose.marks c inFirst d inLast mark
      · decide
    · exact absurd mark (by decide)
  · rcases before inFirst with inFirst | rfl
    · rcases after inLast with inLast | rfl
      · exact loose.words c inFirst d inLast word
      · decide
    · exact absurd word (by decide)

/-- The type that a parameter's pieces state. -/
theorem OneOff.sameType {types others : List (List Char)} (oneOff : OneOff Respaced types others)
    (name : String) :
    SameParameter ⟨name, ": ".intercalate (types.map String.ofList)⟩
        ⟨name, ": ".intercalate (others.map String.ofList)⟩ ∧
      isSink ⟨name, ": ".intercalate (others.map String.ofList)⟩ =
        isSink ⟨name, ": ".intercalate (types.map String.ofList)⟩ := by
  rw [intercalate_ofList, intercalate_ofList]
  cases oneOff with
  | same => exact ⟨⟨rfl, rfl⟩, rfl⟩
  | one before after respaced =>
      cases respaced with
      | same => exact ⟨⟨rfl, rfl⟩, rfl⟩
      | @apart first blanks spaces last _ _ blank spacesBlank nonempty loose =>
          obtain ⟨front, back, ends, starts, joined⟩ :=
            intercalate_split (List.cons_ne_nil ':' [' ']) before after
          have around (gap : List Char) :
              [':', ' '].intercalate (before ++ (first ++ (gap ++ last)) :: after) =
                (front ++ first) ++ (gap ++ (last ++ back)) := by
            simp only [joined, List.append_assoc]
          rw [around, around]
          refine ⟨⟨rfl, ?_⟩, ?_⟩
          · simp only [compact, String.toList_ofList, squeeze_append, squeeze_of_blank blank,
              squeeze_of_blank spacesBlank]
          · obtain ⟨sink, same⟩ := isSink_gap (front ++ first) (last ++ back)
            rw [same spaces spacesBlank (fun none => absurd none nonempty),
              same blanks blank fun none => (loose none).extend ends starts]

end Types

/-! ## Parameters -/

section Parameters

variable {text other : List Char}

/-- The same parameter, and a sink in both lists or in none. -/
def Matches (parameter other : Parameter) : Prop :=
  SameParameter parameter other ∧ isSink other = isSink parameter

theorem matches_refl (parameter : Parameter) : Matches parameter parameter :=
  ⟨⟨rfl, rfl⟩, rfl⟩

theorem Respaced.parameter? (respaced : Respaced text other) :
    Agrees (Option.Rel Matches) (parameter? text) (Declaration.parameter? other) := by
  have equals : isSeparator '=' = true := rfl
  have colon : isSeparator ':' = true := rfl
  unfold Declaration.parameter?
  rcases (respaced.splitTopLevel equals).cases_cons .same with
    ⟨none, noneOther⟩ | ⟨declaration, otherDeclaration, _, _, cut, cutOther, respaced, -⟩
  · rw [none, noneOther]
    exact .ok .none
  · rw [cut, cutOther]
    dsimp only
    rcases (respaced.splitTopLevel colon).cases_cons .same with
      ⟨none, noneOther⟩ | ⟨label, otherLabel, type, otherType, cut, cutOther, labels, types⟩
    · rw [none, noneOther]
      exact .error .emptyParameter
    · rw [cut, cutOther]
      simp only [labels.lastWord]
      split
      · exact .ok .none
      · exact .ok (.some (types.sameType _))

theorem Agrees.mapM {α β : Type} {R : β → β → Prop} {f : α → Except ReadError β}
    {list others : List α} (each : List.Forall₂ (fun x y => Agrees R (f x) (f y)) list others) :
    Agrees (List.Forall₂ R) (list.mapM f) (others.mapM f) := by
  induction each with
  | nil => exact .ok .nil
  | @cons x y list others first _ ih =>
      rw [List.mapM_cons, List.mapM_cons]
      generalize f x = value at first
      generalize f y = otherValue at first
      cases first with
      | error cause => exact .error cause
      | ok related =>
          generalize list.mapM f = rest at ih
          generalize others.mapM f = otherRest at ih
          cases ih with
          | error cause => exact .error cause
          | ok later => exact .ok (.cons related later)

theorem forall₂_filterMap {R : Parameter → Parameter → Prop}
    {found others : List (Option Parameter)} (each : List.Forall₂ (Option.Rel R) found others) :
    List.Forall₂ R (found.filterMap id) (others.filterMap id) := by
  induction each with
  | nil => exact .nil
  | cons first _ ih =>
      cases first with
      | none => exact ih
      | some related => exact .cons related ih

/-- Lists of parameters that differ in blanks declare the same parameters. -/
theorem Respaced.parameters {list others : List Char}
    (respaced : Respaced (stripComments list) (stripComments others)) :
    Agrees (List.Forall₂ Matches) (parameters list) (Declaration.parameters others) := by
  have comma : isSeparator ',' = true := rfl
  unfold Declaration.parameters
  have pieces := (respaced.splitTopLevel comma).forall₂ .same
  have read := @Agrees.mapM _ _ (Option.Rel Matches) Declaration.parameter? _ _
    (pieces.imp fun _ _ => Respaced.parameter?)
  generalize (Source.splitTopLevel [','] (stripComments list)).mapM Declaration.parameter? = found
    at read ⊢
  generalize (Source.splitTopLevel [','] (stripComments others)).mapM Declaration.parameter? =
    otherFound at read ⊢
  cases read with
  | error cause => exact .error cause
  | ok each => exact .ok (forall₂_filterMap each)

end Parameters

end DartBindings.Declaration
