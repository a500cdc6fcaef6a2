import DartBindings.Proofs.Declaration.QuotedNames
import DartBindings.Proofs.Declaration.TypeParameters

/-!
Generic members. Type parameters before the name of an exposed member leave the outcome of an
extraction as it is exactly if no bound of them has a function type in it.
-/

set_option autoImplicit false

namespace DartBindings.Declaration

open Text Source Bridge

/-! ## Lines -/

section Lines

variable {dialect : Dialect} {text after : List Char} {extent : Extent} {pos stop : Nat}
  {member : MemberText} {parameters : List TypeParameter}

theorem MemberText.Canonical.level_generic (own : member.Canonical dialect)
    (regular : dialect.Regular) (spelled : ∀ parameter ∈ parameters, parameter.Spelled)
    (layout : Layout) : Level ((member.generic parameters).spelling dialect layout) := by
  have list : Nested true ('<' :: (typeList parameters ++ ['>'])) :=
    .group .angle (nested_typeList spelled)
  have name : Nested true (' ' :: member.name.toList) :=
    .append .blank (.word own.name.word.chars)
  have signature := Nested.level ((list.append name).append (own.nested_tail layout))
  have whole := (member.level_lead regular own.modifiers layout).append
    (signature.append level_emptyBody)
  rw [MemberText.spelling_generic]
  simpa using whole

/-- What a member with type parameters is exposed as. -/
def MemberText.genericCallables (dialect : Dialect) (marked : Bool)
    (parameters : List TypeParameter) (member : MemberText) : List Callable :=
  if '-' ∈ typeList parameters then [] else (member.callable? dialect marked).toList

theorem Walk.headers_genericLine (regular : dialect.Regular) (own : member.Canonical dialect)
    (known : dialect.memberKeyword ∈ declarationWords)
    (spelled : ∀ parameter ∈ parameters, parameter.Spelled) {layout : Layout}
    (window : Window text extent.stop pos
      ((member.generic parameters).spelling dialect layout ++ after)) :
    ∃ found next, Window text extent.stop next after ∧
      (∀ header ∈ found, Barren text extent.stop header) ∧
      (∀ marked, Exposes dialect text marked extent.stop found
        (member.genericCallables dialect marked parameters)) ∧
      (Walk.start pos).headers dialect text extent =
        found ++ (Walk.start next).headers dialect text extent := by
  unfold MemberText.genericCallables
  split
  · rename_i arrow
    obtain ⟨found, next, beyond, silent, walked⟩ :=
      Walk.headers_lost regular own known spelled arrow window
    exact ⟨found, next, beyond, fun header among => (silent header among).1,
      fun marked => exposes_of_forall fun header among => (silent header among).2 marked, walked⟩
  · rename_i plain
    obtain ⟨start, signature, next, found, tail, beyond, harmless, walked⟩ :=
      Walk.headers_generic regular own spelled plain window
    refine ⟨member.header dialect start signature :: found, next, beyond, ?_, ?_, walked⟩
    · exact List.forall_mem_cons.mpr ⟨.inl regular.apart,
        fun header among => Ignored.barren (.inr ⟨_, harmless header among⟩)⟩
    · intro marked
      have shown := Exposes.of_option rfl (callable?_header regular own start tail marked)
      have whole := shown.append (exposes_of_harmless harmless)
      rwa [List.append_nil] at whole

end Lines

/-! ## The body -/

section Kotlin

variable {text : List Char} {pos : Nat} {place : Surroundings} {member : MemberText}
  {parameters : List TypeParameter} {layout : Layout}

/-- What the members of the class are exposed as, with type parameters for one of them. -/
def Surroundings.genericCallables (place : Surroundings) (member : MemberText)
    (parameters : List TypeParameter) : List Callable :=
  place.callablesBefore .kotlin ++ (member.genericCallables .kotlin place.marked parameters ++
    place.callablesAfter .kotlin)

theorem Surroundings.level_generic
    (canonical : ∀ other ∈ (place.with member).members, other.Canonical .kotlin)
    (spelled : ∀ parameter ∈ parameters, parameter.Spelled) (layout : Layout) :
    Level ((place.with (member.generic parameters)).members.flatMap
      (MemberText.spelling .kotlin layout)) := by
  obtain ⟨before, own, later⟩ := Surroundings.canonical_with canonical
  simp only [Surroundings.with, List.flatMap_append, List.flatMap_cons]
  exact (level_members kotlin_regular before layout).append
    ((own.level_generic kotlin_regular spelled layout).append
      (level_members kotlin_regular later layout))

theorem Walk.headers_genericBody
    (canonical : ∀ other ∈ (place.with member).members, other.Canonical .kotlin)
    (spelled : ∀ parameter ∈ parameters, parameter.Spelled) {rest : List Char} {extent : Extent}
    (ended : ∀ next, Window text extent.stop next rest →
      (Walk.start next).headers .kotlin text extent = [])
    (window : Window text extent.stop pos
      ((place.with (member.generic parameters)).members.flatMap
        (MemberText.spelling .kotlin layout) ++ rest)) :
    (∀ header ∈ (Walk.start pos).headers .kotlin text extent, Barren text extent.stop header) ∧
      Exposes .kotlin text place.marked extent.stop ((Walk.start pos).headers .kotlin text extent)
        (place.genericCallables member parameters) := by
  obtain ⟨before, own, later⟩ := Surroundings.canonical_with canonical
  simp only [Surroundings.with, List.flatMap_append, List.flatMap_cons, List.append_assoc] at window
  obtain ⟨front, middle, line, ignored, exposes, walked⟩ :=
    Walk.headers_members kotlin_regular before window
  obtain ⟨found, next, lines, barren, shown, walkedLine⟩ :=
    Walk.headers_genericLine kotlin_regular own (by decide) spelled line
  obtain ⟨others, last, closing, ignoredToo, exposesToo, walkedLines⟩ :=
    Walk.headers_members kotlin_regular later lines
  rw [walked, walkedLine, walkedLines, ended last closing, List.append_nil]
  refine ⟨?_, (exposes place.marked).append
    ((shown place.marked).append (exposesToo place.marked))⟩
  simp only [List.forall_mem_append]
  exact ⟨fun header among => (ignored header among).barren, barren,
    fun header among => (ignoredToo header among).barren⟩

theorem entityAt_generic
    (canonical : ∀ other ∈ (place.with member).members, other.Canonical .kotlin)
    (spelled : ∀ parameter ∈ parameters, parameter.Spelled) (file : Option RawText)
    (window : Window text (wholeText text).stop pos
      ((place.with (member.generic parameters)).body .kotlin layout ++
        '\x7d' :: List.replicate layout.ending '\n')) :
    entityAt text file (place.with (member.generic parameters)) pos =
      settled .kotlin place.name (place.genericCallables member parameters) := by
  have closed := closingIndex_lines (Surroundings.level_generic canonical spelled layout)
    (List.replicate layout.ending '\n')
  have stop := bodyStop_of_closingIndex file place.name window closed
  have body := window.front
  obtain ⟨-, exposes⟩ := @Walk.headers_genericBody text pos place member parameters layout canonical
    spelled ['\n'] ⟨_, true⟩ (fun next window => Walk.headers_of_none
      (nextToken_of_ended (List.forall_mem_singleton.mpr rfl) window)) body
  have named : (place.with (member.generic parameters)).name = place.name := rfl
  rw [entityAt, named, stop, Extraction.found_andThen]
  exact exposes.settled place.name

/-! ## Extraction -/

section Extraction

variable (legible : (place.with member).Legible .kotlin)
  (spelled : ∀ parameter ∈ parameters, parameter.Spelled)

include legible spelled

theorem extract_generic (layout : Layout) (file : Option RawText) :
    extract .kotlin (written .kotlin layout [place.with (member.generic parameters)]) file =
      (settled .kotlin place.name (place.genericCallables member parameters)).map
        Option.toList := by
  obtain ⟨text, pos, window, extracted⟩ := @extract_single layout
    (place.with (member.generic parameters)) legible.name
    (fun window => by
      rw [ClassText.body, List.append_assoc] at window
      exact (Walk.headers_genericBody legible.members spelled
        (fun _ => Walk.headers_lastLines) window).1) file
  rw [extracted, entityAt_generic legible.members spelled file window]

end Extraction

theorem callables_entityWith (dialect : Dialect) (className : String)
    (callables : List Callable) :
    (entityWith dialect className callables).toList.flatMap Entity.callables = callables := by
  cases callables <;> simp [entityWith]

/-- Every callable makes a difference, as a member or as one that is reported. -/
theorem length_eq_of_settled_eq {dialect : Dialect} {className : String}
    {callables others : List Callable}
    (same : (settled dialect className callables).map Option.toList =
      (settled dialect className others).map Option.toList) :
    callables.length = others.length := by
  have reported := congrArg (fun extraction => extraction.warnings.length) same
  have result := congrArg Extraction.result same
  simp only [settled, Extraction.map, Except.map, List.length_map, Except.ok.injEq]
    at reported result
  have members := congrArg (List.flatMap Entity.callables) result
  rw [callables_entityWith, callables_entityWith] at members
  rw [← length_kept_add_dropped [] callables, ← length_kept_add_dropped [] others, reported,
    members]

/-- Type parameters make no difference exactly if no bound has a function type in it. -/
theorem extract_generic_iff (legible : (place.with member).Legible .kotlin)
    (exposed : (member.callable? .kotlin place.marked).isSome = true)
    (spelled : ∀ parameter ∈ parameters, parameter.Spelled) (layout : Layout)
    (file : Option RawText) :
    extract .kotlin (written .kotlin layout [place.with (member.generic parameters)]) file =
        extract .kotlin (written .kotlin layout [place.with member]) file ↔
      ∀ parameter ∈ parameters, ∀ type ∈ parameter.bound, type.hasFunction = false := by
  obtain ⟨callable, exposed⟩ := Option.isSome_iff_exists.mp exposed
  have arrows := mem_dash_typeList_iff spelled
  rw [extract_generic legible spelled, extract_unquoted legible exposed,
    Surroundings.genericCallables, MemberText.genericCallables, exposed]
  by_cases arrow : '-' ∈ typeList parameters
  · obtain ⟨parameter, among, type, bound, function⟩ := arrows.mp arrow
    rw [if_pos arrow]
    refine iff_of_false (fun same => ?_) fun plain => ?_
    · have lengths := length_eq_of_settled_eq same
      simp at lengths
    · rw [plain parameter among type bound] at function
      cases function
  · rw [if_neg arrow]
    refine iff_of_true rfl fun parameter among type bound => ?_
    rw [Bool.eq_false_iff]
    exact fun function => arrow (arrows.mpr ⟨parameter, among, type, bound, function⟩)

end Kotlin

/-- The parameters of `fun <K, R : Map<K, List<Int?>>> …`. -/
def keyAndRow : List TypeParameter := [
  ⟨"K", none⟩,
  ⟨"R", some (.generic "Map" [.name "K", .generic "List" [.optional (.name "Int")]])⟩]

/-- The parameter of `fun <F : (Int) -> Unit> …`. -/
def handler : List TypeParameter := [⟨"F", some (.function [.name "Int"] (.name "Unit"))⟩]

theorem keyAndRow_spelled : ∀ parameter ∈ keyAndRow, parameter.Spelled := by
  have word {name : String} (named : IsWord name.toList) : (TypeTree.name name).WellNamed :=
    .name named
  simp only [keyAndRow, List.forall_mem_cons]
  refine ⟨⟨by decide, by simp⟩, ⟨by decide, ?_⟩, by simp⟩
  have rows : (TypeTree.generic "List" [.optional (.name "Int")]).WellNamed :=
    .generic (by decide) (by simpa using .optional (word (by decide)))
  simpa using .generic (by decide) (by simpa using ⟨word (by decide), rows⟩)

theorem handler_spelled : ∀ parameter ∈ handler, parameter.Spelled := by
  have word {name : String} (named : IsWord name.toList) : (TypeTree.name name).WellNamed :=
    .name named
  simp only [handler, List.forall_mem_cons]
  refine ⟨⟨by decide, ?_⟩, by simp⟩
  simpa using .function (by simpa using word (by decide)) (word (by decide))

example :
    String.ofList ((cue.generic keyAndRow).spelling .kotlin ⟨2, 1, 1, 1⟩) =
      "\n  fun <K, R : Map<K, List<Int?>>> cue(at: Int): Unit \x7b\x7d" := by
  rfl

theorem extract_stage_generic :
    (stage.with cue).Legible .kotlin ∧ (cue.callable? .kotlin stage.marked).isSome = true ∧
      (∀ parameter ∈ keyAndRow, parameter.Spelled) ∧
      extract .kotlin (written .kotlin ⟨2, 1, 1, 1⟩ [stage.with (cue.generic keyAndRow)]) none =
        .found [⟨"Stage", [⟨.call, "open", "Unit", [⟨"rows", "List<Int>"⟩]⟩,
          ⟨.call, "cue", "Unit", [⟨"at", "Int"⟩]⟩, ⟨.call, "close", "Unit", []⟩], .android⟩] := by
  have exposed : (cue.callable? .kotlin stage.marked).isSome = true := by decide
  refine ⟨stage_legible, exposed, keyAndRow_spelled, ?_⟩
  rw [(extract_generic_iff stage_legible exposed keyAndRow_spelled ⟨2, 1, 1, 1⟩ none).mpr
      (by simp [keyAndRow, TypeTree.hasFunction, TypeTree.haveFunction]),
    extract_legible (by simp) _ (List.forall_mem_singleton.mpr stage_legible) none]
  rfl

/-- With a function type for a bound the member is lost. -/
theorem extract_stage_lost :
    (stage.with cue).Legible .kotlin ∧ (cue.callable? .kotlin stage.marked).isSome = true ∧
      (∀ parameter ∈ handler, parameter.Spelled) ∧
      extract .kotlin (written .kotlin ⟨2, 1, 1, 1⟩ [stage.with (cue.generic handler)]) none ≠
        extract .kotlin (written .kotlin ⟨2, 1, 1, 1⟩ [stage.with cue]) none :=
  ⟨stage_legible, by decide, handler_spelled, ne_of_warnings_or_result (by decide +kernel)⟩

end DartBindings.Declaration
