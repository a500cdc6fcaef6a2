import DartBindings.Proofs.Declaration.QuotedMember

/-!
Quoted names. The tokens of a text take a name between backticks for one word, but the search for
the end of a class body reads its characters as code, and a walk takes the name of a single angle
for type parameters. A member under a quoted name is extracted like any other exactly if neither
makes a difference.
-/

set_option autoImplicit false

namespace DartBindings.Declaration

open Text Source Bridge

section Kotlin

variable {layout : Layout} {place : Surroundings} {member : MemberText} {name : String}
  {text after : List Char} {pos stop : Nat}

/-! ## The end of the body -/

/-- The line that closes the last class of a file, and those after it. -/
def lastLines (layout : Layout) : List Char :=
  '\n' :: '\x7d' :: List.replicate layout.ending '\n'

/-- Read as code up to the end of its line, a name before its second mark leaves all groups as
they are: what closes the body of a class is the brace in the last lines. -/
def KeepsBody (layout : Layout) (name : List Char) : Prop :=
  closingIndex (some '\x7b') (some '\x7d') 1 (name ++ backtick :: lastLines layout) =
    some (name.length + 2)

theorem kotlin_regular : Dialect.kotlin.Regular :=
  regular_of_known (by simp)

theorem kotlin_streamName (name : String) : Dialect.kotlin.streamName name = name := by
  simp [Dialect.streamName, Dialect.kotlin]

theorem interlude_lines (own : member.Canonical .kotlin) {later : List MemberText}
    (canonical : ∀ other ∈ later, other.Canonical .kotlin) (layout : Layout) :
    Interlude (member.tail .kotlin layout ++ emptyBody)
      (later.flatMap (MemberText.spelling .kotlin layout)) (lastLines layout) := by
  have tail := (own.nested_tail layout).chars
  have quietTail := isQuiet_of_class tail (by decide) (by decide) (by decide) (by decide)
  have starts : ((later.flatMap (MemberText.spelling .kotlin layout)) ++ lastLines layout).head? =
      some '\n' := by
    cases later with
    | nil => rfl
    | cons other later => rfl
  constructor
  · simp only [List.forall_mem_append]
    refine ⟨⟨quietTail, quiet_emptyBody⟩, ?_, ?_⟩
    · intro c among
      obtain ⟨other, there, inside⟩ := List.mem_flatMap.mp among
      exact (canonical other there).quiet_spelling kotlin_regular layout c inside
    · simp only [lastLines, List.forall_mem_cons]
      exact ⟨by decide, by decide, List.forall_mem_replicate.mpr (.inr rfl)⟩
  · intro among
    rcases List.mem_append.mp among with inTail | inBody
    · exact absurd (tail _ inTail) (by decide)
    · exact absurd inBody (by decide)
  · exact starts
  · rfl
  · exact (Nested.level (own.nested_tail layout)).append level_emptyBody
  · exact level_members kotlin_regular canonical layout

/-- The text of a class body up to the name of the member. -/
def Surroundings.front (layout : Layout) (place : Surroundings) (member : MemberText) :
    List Char :=
  place.before.flatMap (MemberText.spelling .kotlin layout) ++
    (member.lead .kotlin layout ++ [backtick])

theorem body_quoted (layout : Layout) (place : Surroundings) (member : MemberText)
    (name : String) :
    (place.with (member.renamed (backticked name))).body .kotlin layout ++
        '\x7d' :: List.replicate layout.ending '\n' =
      place.front layout member ++ (name.toList ++ backtick ::
        ((member.tail .kotlin layout ++ emptyBody) ++
          (place.after.flatMap (MemberText.spelling .kotlin layout) ++ lastLines layout))) := by
  simp [ClassText.body, Surroundings.with, Surroundings.front, MemberText.spelling_backticked,
    lastLines]

theorem closingIndex_quoted
    (canonical : ∀ other ∈ (place.with member).members, other.Canonical .kotlin)
    (noBreak : '\n' ∉ name.toList) :
    closingIndex (some '\x7b') (some '\x7d') 1
        ((place.with (member.renamed (backticked name))).body .kotlin layout ++
          '\x7d' :: List.replicate layout.ending '\n') =
      (closingIndex (some '\x7b') (some '\x7d') 1 (name.toList ++ backtick :: lastLines layout)).map
        fun n => (place.front layout member).length + shifted name.toList.length
          ((member.tail .kotlin layout ++ emptyBody).length +
            (place.after.flatMap (MemberText.spelling .kotlin layout)).length) n := by
  obtain ⟨before, own, later⟩ := Surroundings.canonical_with canonical
  have mark : Level [backtick] := by
    apply level_of_inert
    intro lead opening closing starts
    cases starts <;> simp [Inert, isQuote, backtick]
  have front : Level (place.front layout member) :=
    (level_members kotlin_regular before layout).append
      ((member.level_lead kotlin_regular own.modifiers layout).append mark)
  rw [body_quoted, front.passed .curly Nat.one_pos,
    (readsAround (interlude_lines own later layout) noBreak).closing .curly Nat.one_pos,
    Option.map_map]
  congr 1
  funext n
  exact Nat.add_comm _ _

/-- The body ends in the name, or else in the last lines. -/
theorem lt_or_eq_of_closingIndex {n : Nat}
    (found : closingIndex (some '\x7b') (some '\x7d') 1
      (name.toList ++ backtick :: lastLines layout) = some n) :
    n < name.toList.length ∨ n = name.toList.length + 2 := by
  obtain ⟨c, delimiter, here⟩ := closingIndex_getElem? found
  cases delimiter
  by_cases inside : n < name.toList.length
  · exact .inl inside
  · rw [List.getElem?_append_right (by omega)] at here
    obtain ⟨k, offset⟩ : ∃ k, n - name.toList.length = k := ⟨_, rfl⟩
    rw [offset] at here
    match k with
    | 0 => cases here
    | 1 => cases here
    | 2 => exact .inr (by omega)
    | k + 3 =>
        simp only [lastLines, List.getElem?_cons_succ] at here
        have blank := List.eq_of_mem_replicate (List.mem_of_getElem? here)
        cases blank

/-! ## A file with one class -/

/-- What a class becomes whose body starts at `pos`. -/
def entityAt (text : List Char) (file : Option RawText) (entry : ClassText) (pos : Nat) :
    Extraction (Option Entity) :=
  (bodyStop text file entry.name pos).andThen fun stop =>
    (callables .kotlin text entry.name entry.marked stop []
      (headers .kotlin text pos stop true)).map (entityWith .kotlin entry.name)

theorem Extraction.andThen_map_found {α β : Type} (extraction : Extraction α) (change : α → β) :
    (extraction.andThen fun value => .found (change value)) = extraction.map change := by
  obtain ⟨warnings, result⟩ := extraction
  cases result with
  | error cause => rfl
  | ok value => simp [Extraction.andThen, Extraction.found, Extraction.map, Except.map]

theorem extract_single {entry : ClassText} (named : IsName entry.name)
    (barren : ∀ {text pos}, Window text (wholeText text).stop pos
        (entry.body .kotlin layout ++ '\x7d' :: List.replicate layout.ending '\n') →
      ∀ header ∈ (Walk.start pos).headers .kotlin text (wholeText text),
        Barren text text.length header)
    (file : Option RawText) :
    ∃ text pos, Window text (wholeText text).stop pos
        (entry.body .kotlin layout ++ '\x7d' :: List.replicate layout.ending '\n') ∧
      extract .kotlin (written .kotlin layout [entry]) file =
        (entityAt text file entry pos).map Option.toList := by
  have spelled : written .kotlin layout [entry] =
      entry.spelling .kotlin layout ++ List.replicate layout.ending '\n' := by
    simp [written]
  have whole := window_whole (written .kotlin layout [entry])
  rw [spelled] at whole ⊢
  obtain ⟨start, name, opened, walked⟩ := Walk.headers_opening kotlin_regular named whole
  have body := opened.tail.tail
  have exposable : ∀ ending ∈ Dialect.kotlin.exemptEndings,
      ¬ ending.toList <:+ entry.name.toList := nofun
  have entity := entity?_opened exposable file start opened
  have keyword : (entry.header .kotlin start name).keyword = classKeyword := rfl
  have rest := @entities_barren .kotlin _ file _ (barren body) []
  rw [List.append_nil] at rest
  refine ⟨_, _, body, ?_⟩
  have found : headers .kotlin (entry.spelling .kotlin layout ++ List.replicate layout.ending '\n')
      0 (entry.spelling .kotlin layout ++ List.replicate layout.ending '\n').length false = _ :=
    walked
  rw [extract, found, entities, keyword, rest, entity]
  simp only [bne_self_eq_false, Bool.false_eq_true, ↓reduceIte, entities, Extraction.map_found,
    List.append_nil]
  exact Extraction.andThen_map_found _ _

theorem Walk.headers_lastLines {next : Nat}
    (window : Window text (wholeText text).stop next (lastLines layout)) :
    (Walk.start next).headers .kotlin text (wholeText text) = [] := by
  have blank : ∀ c ∈ List.replicate layout.ending '\n', isBlank c = true :=
    List.forall_mem_replicate.mpr (.inr rfl)
  rw [Walk.start, Walk.headers_blank (by decide) window,
    Walk.headers_brace (.inl rfl) window.tail]
  exact Walk.headers_of_none (nextToken_of_ended blank window.tail.tail)

theorem barren_quoted
    (canonical : ∀ other ∈ (place.with member).members, other.Canonical .kotlin)
    (plain : backtick ∉ name.toList)
    (window : Window text (wholeText text).stop pos
      ((place.with (member.renamed (backticked name))).body .kotlin layout ++
        '\x7d' :: List.replicate layout.ending '\n')) :
    ∀ header ∈ (Walk.start pos).headers .kotlin text (wholeText text),
      Barren text text.length header := by
  rw [ClassText.body, List.append_assoc] at window
  have noAngle : '>' ∉ lastLines layout := by
    simp [lastLines]
  obtain ⟨ignored, -⟩ := Walk.headers_quotedBody kotlin_regular kotlin_streamName canonical plain
    noAngle (fun _ => Walk.headers_lastLines) window
  exact fun header among => (ignored header among).barren

/-! ## What the class comes to -/

section Outcomes

variable (canonical : ∀ other ∈ (place.with member).members, other.Canonical .kotlin)
  (plain : backtick ∉ name.toList) (noBreak : '\n' ∉ name.toList)
  (window : Window text (wholeText text).stop pos
    ((place.with (member.renamed (backticked name))).body .kotlin layout ++
      '\x7d' :: List.replicate layout.ending '\n'))

include canonical plain noBreak window

theorem entityAt_of_keepsBody (file : Option RawText) (keeps : KeepsBody layout name.toList) :
    ∃ shown,
      entityAt text file (place.with (member.renamed (backticked name))) pos =
        settled .kotlin place.name (place.callablesBefore .kotlin ++ shown) ∧
      (name ≠ "<" → shown = ((member.callable? .kotlin place.marked).map
        (renameCallable name)).toList ++ place.callablesAfter .kotlin) ∧
      (name = "<" → shown ⊆ place.callablesAfter .kotlin) := by
  let entry := place.with (member.renamed (backticked name))
  have size : (entry.body .kotlin layout ++
      '\x7d' :: List.replicate layout.ending '\n').length = _ :=
    congrArg List.length (body_quoted layout place member name)
  simp only [List.length_append, List.length_cons, List.length_replicate, lastLines] at size
  have closed : closingIndex (some '\x7b') (some '\x7d') 1
      (entry.body .kotlin layout ++ '\x7d' :: List.replicate layout.ending '\n') =
        some (entry.body .kotlin layout).length := by
    rw [closingIndex_quoted canonical noBreak, keeps, Option.map_some, shifted_of_lt (by omega),
      List.length_append]
    congr 1
    omega
  have body : Window text (pos + (entry.body .kotlin layout).length) pos
      (entry.members.flatMap (MemberText.spelling .kotlin layout) ++ ['\n']) := window.front
  have ended : ∀ next, Window text (pos + (entry.body .kotlin layout).length) next ['\n'] →
      (Walk.start next).headers .kotlin text
        ⟨pos + (entry.body .kotlin layout).length, true⟩ = [] := fun next window =>
    Walk.headers_of_none (nextToken_of_ended (List.forall_mem_singleton.mpr rfl) window)
  obtain ⟨-, shown, exposes, found⟩ := @Walk.headers_quotedBody .kotlin text ['\n']
    ⟨pos + (entry.body .kotlin layout).length, true⟩ pos place member layout name kotlin_regular
    kotlin_streamName canonical plain (by decide) ended body
  have stop := bodyStop_of_closingIndex file entry.name window closed
  refine ⟨shown, ?_, found⟩
  rw [entityAt, stop, Extraction.found_andThen]
  exact exposes.settled place.name

/-- The search for the end of the body ends in the name, or not at all. -/
theorem entityAt_of_not_keepsBody (file : Option RawText) (ends : ¬ KeepsBody layout name.toList) :
    .unclosedBody file place.name ∈
        (entityAt text file (place.with (member.renamed (backticked name))) pos).warnings ∨
      entityAt text file (place.with (member.renamed (backticked name))) pos =
        settled .kotlin place.name (place.callablesBefore .kotlin) := by
  obtain ⟨before, own, -⟩ := Surroundings.canonical_with canonical
  have closed := @closingIndex_quoted layout place member name canonical noBreak
  have named : (place.with (member.renamed (backticked name))).name = place.name := rfl
  cases found : closingIndex (some '\x7b') (some '\x7d') 1
      (name.toList ++ backtick :: lastLines layout) with
  | none =>
      rw [found, Option.map_none] at closed
      left
      have stop := bodyStop_of_unclosed file place.name window closed
      rw [entityAt, named, stop]
      simp [Extraction.andThen]
  | some n =>
      right
      have inside : n < name.toList.length := by
        rcases lt_or_eq_of_closingIndex found with inside | beyond
        · exact inside
        · exact absurd (found.trans (congrArg some beyond)) ends
      rw [found, Option.map_some, shifted_of_le inside.le] at closed
      have stop := bodyStop_of_closingIndex file place.name window closed
      have split (rest : List Char) : place.front layout member ++ (name.toList ++ rest) =
          (place.front layout member ++ name.toList.take n) ++ (name.toList.drop n ++ rest) := by
        rw [List.append_assoc, ← List.append_assoc (name.toList.take n), List.take_append_drop]
      rw [body_quoted, split] at window
      have cut := window.front
      rw [List.length_append, List.length_take, Nat.min_eq_left inside.le, Surroundings.front,
        List.append_assoc, List.append_assoc, List.singleton_append] at cut
      obtain ⟨front, next, line, -, exposes, walked⟩ := @Walk.headers_members .kotlin
        kotlin_regular layout text _ ⟨pos + ((place.front layout member).length + n), true⟩ pos
        place.before before cut
      have unread := Walk.headers_cut kotlin_regular own.modifiers
        (fun among => plain (List.mem_of_mem_take among)) line place.marked
      rw [entityAt, named, stop, Extraction.found_andThen, headers, walked]
      have whole := ((exposes place.marked).append unread).settled place.name
      rwa [List.append_nil] at whole

end Outcomes

/-! ## Renaming -/

/-- The entity with another name for its callable `old`. -/
def renameIn (old name : String) (entity : Entity) : Entity :=
  { entity with callables := entity.callables.map fun callable =>
      if callable.name = old then renameCallable name callable else callable }

theorem callable?_name {marked : Bool} {callable : Callable}
    (exposed : member.callable? .kotlin marked = some callable) : callable.name = member.name := by
  unfold MemberText.callable? at exposed
  split at exposed
  · cases exposed
  · split at exposed
    · cases exposed
      exact kotlin_streamName member.name
    · split at exposed
      · cases exposed
        rfl
      · cases exposed

theorem forall_callables_iff (place : Surroundings) (p : String → Prop) :
    (∀ callable ∈ place.callablesBefore .kotlin ++ place.callablesAfter .kotlin, p callable.name) ↔
      ∀ other ∈ place.before ++ place.after,
        (other.callable? .kotlin place.marked).isSome = true → p other.name := by
  rw [Surroundings.callablesBefore, Surroundings.callablesAfter, ← List.filterMap_append]
  constructor
  · intro all other among exposed
    obtain ⟨callable, shown⟩ := Option.isSome_iff_exists.mp exposed
    rw [← callable?_name shown]
    exact all callable (List.mem_filterMap.mpr ⟨other, among, shown⟩)
  · intro all callable member
    obtain ⟨other, among, shown⟩ := List.mem_filterMap.mp member
    rw [callable?_name shown]
    exact all other among (by rw [shown]; rfl)

theorem map_rename_of_ne {old : String} {callables : List Callable}
    (other : ∀ callable ∈ callables, callable.name ≠ old) (name : String) :
    callables.map (fun callable =>
      if callable.name = old then renameCallable name callable else callable) = callables := by
  refine List.map_congr_left (fun callable among => if_neg (other callable among)) |>.trans ?_
  exact List.map_id _

/-- Where the outcome is that of other callables but for a name, the same are kept. -/
theorem kept_of_settled_eq {callables others : List Callable} {className old : String}
    {callable : Callable} (among : callable ∈ others)
    (same : (settled .kotlin className callables).map Option.toList =
      ((settled .kotlin className others).map Option.toList).map (List.map (renameIn old name))) :
    kept [] callables = (kept [] others).map fun callable =>
      if callable.name = old then renameCallable name callable else callable := by
  have some : kept [] others ≠ [] := by
    obtain ⟨first, member, -⟩ := exists_mem_kept among List.not_mem_nil
    exact List.ne_nil_of_mem member
  have result := congrArg Extraction.result same
  simp only [settled, Extraction.map, Except.map, entityWith, List.isEmpty_iff, some,
    ↓reduceIte, Except.ok.injEq] at result
  split at result
  · cases result
  · simpa [renameIn] using result

section Callables

variable {first last : List Callable} {callable : Callable}
  (fresh : ∀ other ∈ first ++ last, other.name ≠ name) (className : String)

include fresh

/-- The other callables alone do not come to anything with the new name. -/
theorem settled_ne_of_subset {callables : List Callable} (known : callables ⊆ first ++ last) :
    (settled .kotlin className callables).map Option.toList ≠
      ((settled .kotlin className (first ++ callable :: last)).map Option.toList).map
        (List.map (renameIn callable.name name)) := by
  intro same
  have among : callable ∈ first ++ callable :: last := by simp
  obtain ⟨other, member, named⟩ := exists_mem_kept among List.not_mem_nil
  have renamed := List.mem_map_of_mem (f := fun other : Callable =>
    if other.name = callable.name then renameCallable name other else other) member
  rw [← kept_of_settled_eq among same, if_pos named] at renamed
  exact fresh _ (known (mem_of_mem_kept renamed)) rfl

/-- A callable has a new name, and nothing else is changed, exactly if the old one was its own. -/
theorem settled_renamed_iff :
    (settled .kotlin className (first ++ renameCallable name callable :: last)).map
        Option.toList =
      ((settled .kotlin className (first ++ callable :: last)).map Option.toList).map
        (List.map (renameIn callable.name name)) ↔
      ∀ other ∈ first ++ last, other.name ≠ callable.name := by
  constructor
  · intro same other member old
    have among : other ∈ first ++ renameCallable name callable :: last := by
      rcases List.mem_append.mp member with before | after
      · exact List.mem_append_left _ before
      · exact List.mem_append_right _ (List.mem_cons_of_mem _ after)
    obtain ⟨twin, there, named⟩ := exists_mem_kept among List.not_mem_nil
    have renamed : callable ∈ first ++ callable :: last := by simp
    rw [kept_of_settled_eq renamed same] at there
    obtain ⟨source, -, rfl⟩ := List.mem_map.mp there
    rw [old] at named
    split at named
    · exact fresh other member (old.trans named.symm)
    · contradiction
  · intro free
    obtain ⟨keptOld, droppedOld⟩ := kept_append_cons free
    obtain ⟨keptNew, droppedNew⟩ :=
      @kept_append_cons first last (renameCallable name callable) fresh
    have before : ∀ other ∈ kept [] first, other.name ≠ callable.name := fun other among =>
      free other (List.mem_append_left _ (mem_of_mem_kept among))
    have after : ∀ other ∈ kept (first.map (·.name)) last, other.name ≠ callable.name :=
      fun other among => free other (List.mem_append_right _ (mem_of_mem_kept among))
    rw [settled, settled, keptOld, droppedOld, keptNew, droppedNew]
    simp [Extraction.map, Except.map, entityWith, renameIn, map_rename_of_ne before,
      map_rename_of_ne after]

end Callables

/-! ## Extraction -/

section Extraction

variable (legible : (place.with member).Legible .kotlin)

include legible

theorem extract_unquoted {callable : Callable}
    (exposed : member.callable? .kotlin place.marked = some callable) (layout : Layout)
    (file : Option RawText) :
    extract .kotlin (written .kotlin layout [place.with member]) file =
      (settled .kotlin place.name (place.callablesBefore .kotlin ++
        callable :: place.callablesAfter .kotlin)).map Option.toList := by
  have all := place.callables_with .kotlin member
  rw [exposed] at all
  rw [extract_legible (by simp) layout (List.forall_mem_singleton.mpr legible) file, settledAll,
    all]
  simp only [settledAll, Extraction.map_found, List.append_nil]
  exact Extraction.andThen_map_found _ _

variable (plain : backtick ∉ name.toList) (noBreak : '\n' ∉ name.toList)

include plain noBreak

theorem extract_of_keepsBody {callable : Callable}
    (exposed : member.callable? .kotlin place.marked = some callable) (file : Option RawText)
    (keeps : KeepsBody layout name.toList) :
    ∃ shown,
      extract .kotlin
          (written .kotlin layout [place.with (member.renamed (backticked name))]) file =
        (settled .kotlin place.name (place.callablesBefore .kotlin ++ shown)).map Option.toList ∧
      (name ≠ "<" → shown = renameCallable name callable :: place.callablesAfter .kotlin) ∧
      (name = "<" → shown ⊆ place.callablesAfter .kotlin) := by
  obtain ⟨text, pos, window, extracted⟩ := @extract_single layout
    (place.with (member.renamed (backticked name))) legible.name
    (fun window => barren_quoted legible.members plain window) file
  obtain ⟨shown, entity, direct, angle⟩ :=
    entityAt_of_keepsBody legible.members plain noBreak window file keeps
  refine ⟨shown, by rw [extracted, entity], fun other => ?_, angle⟩
  rw [direct other, exposed]
  rfl

theorem extract_of_not_keepsBody (file : Option RawText) (ends : ¬ KeepsBody layout name.toList) :
    .unclosedBody file place.name ∈ (extract .kotlin
        (written .kotlin layout [place.with (member.renamed (backticked name))]) file).warnings ∨
      extract .kotlin
          (written .kotlin layout [place.with (member.renamed (backticked name))]) file =
        (settled .kotlin place.name (place.callablesBefore .kotlin)).map Option.toList := by
  obtain ⟨text, pos, window, extracted⟩ := @extract_single layout
    (place.with (member.renamed (backticked name))) legible.name
    (fun window => barren_quoted legible.members plain window) file
  rw [extracted]
  rcases entityAt_of_not_keepsBody legible.members plain noBreak window file ends with
    unclosed | cut
  · exact .inl unclosed
  · exact .inr (by rw [cut])

end Extraction

/-- Of a class without an unclosed body only members are reported. -/
theorem unclosedBody_not_mem (file : Option RawText) (className otherName : String)
    (callables : List Callable) (change : List Entity → List Entity) :
    .unclosedBody file className ∉
      (((settled .kotlin otherName callables).map Option.toList).map change).warnings := by
  simp [settled, Extraction.map]

/-- A quoted name behaves like a plain one exactly if, read as code, it leaves the braces of the
class alone, if it is not the angle that starts type parameters, and if no other exposed member
had the name that it replaces. -/
theorem extract_quoted_iff (legible : (place.with member).Legible .kotlin)
    (exposed : (member.callable? .kotlin place.marked).isSome = true)
    (plain : backtick ∉ name.toList) (noBreak : '\n' ∉ name.toList)
    (fresh : ∀ other ∈ place.before ++ place.after, other.name ≠ name)
    (layout : Layout) (file : Option RawText) :
    extract .kotlin (written .kotlin layout [place.with (member.renamed (backticked name))]) file =
        (extract .kotlin (written .kotlin layout [place.with member]) file).map
          (List.map (renameIn member.name name)) ↔
      KeepsBody layout name.toList ∧ name ≠ "<" ∧
        ∀ other ∈ place.before ++ place.after,
          (other.callable? .kotlin place.marked).isSome = true → other.name ≠ member.name := by
  obtain ⟨callable, exposed⟩ := Option.isSome_iff_exists.mp exposed
  have missing := (forall_callables_iff place (· ≠ name)).mpr fun other among _ => fresh other among
  rw [extract_unquoted legible exposed, ← callable?_name exposed]
  by_cases keeps : KeepsBody layout name.toList
  · obtain ⟨shown, outcome, direct, angle⟩ :=
      extract_of_keepsBody legible plain noBreak exposed file keeps
    rw [outcome]
    by_cases same : name = "<"
    · have known : place.callablesBefore .kotlin ++ shown ⊆
          place.callablesBefore .kotlin ++ place.callablesAfter .kotlin :=
        List.append_subset.mpr
          ⟨List.subset_append_left _ _, fun _ among => List.mem_append_right _ (angle same among)⟩
      exact iff_of_false (settled_ne_of_subset missing place.name known)
        fun ⟨_, noAngle, _⟩ => noAngle same
    · rw [direct same, settled_renamed_iff missing, forall_callables_iff place (· ≠ callable.name)]
      exact ⟨fun unique => ⟨keeps, same, unique⟩, fun ⟨_, _, unique⟩ => unique⟩
  · refine iff_of_false (fun equal => ?_) fun ⟨kept, _⟩ => keeps kept
    rcases extract_of_not_keepsBody legible plain noBreak file keeps with unclosed | outcome
    · rw [equal] at unclosed
      exact unclosedBody_not_mem file place.name place.name _ _ unclosed
    · exact settled_ne_of_subset missing place.name (List.subset_append_left _ _)
        (outcome.symm.trans equal)

end Kotlin

/-- A marked class with a member between two others. -/
def stage : Surroundings where
  marked := true
  name := "Stage"
  before := [⟨[], [], "open", [⟨"rows", .generic "List" [.name "Int"]⟩], some (.name "Unit")⟩]
  after := [⟨[], [], "close", [], some (.name "Unit")⟩]

def cue : MemberText := ⟨[], [], "cue", [⟨"at", .name "Int"⟩], some (.name "Unit")⟩

theorem stage_legible : (stage.with cue).Legible .kotlin := by
  have word {name : String} (named : IsWord name.toList) : (TypeTree.name name).WellNamed :=
    .name named
  have unit : ∀ type ∈ some (TypeTree.name "Unit"), type.WellNamed := by
    simpa using word (by decide)
  refine ⟨⟨by decide, by decide⟩, by decide, ?_⟩
  simp only [stage, cue, Surroundings.with, List.cons_append, List.nil_append,
    List.forall_mem_cons]
  refine ⟨⟨by decide, ⟨by decide, by decide⟩, ?_, unit⟩,
    ⟨by decide, ⟨by decide, by decide⟩, ?_, unit⟩,
    ⟨by decide, ⟨by decide, by decide⟩, by simp, unit⟩, by simp⟩
  · simpa using ⟨by decide, .generic (by decide) (by simpa using word (by decide))⟩
  · simpa using ⟨by decide, word (by decide)⟩

example :
    String.ofList ((cue.renamed (backticked "it's \x7bon\x7d")).spelling .kotlin ⟨2, 1, 1, 1⟩) =
      "\n  fun `it's \x7bon\x7d`(at: Int): Unit \x7b\x7d" := by
  rfl

theorem extract_stage_quoted :
    (stage.with cue).Legible .kotlin ∧
      (cue.callable? .kotlin stage.marked).isSome = true ∧
      backtick ∉ "it's \x7bon\x7d".toList ∧ '\n' ∉ "it's \x7bon\x7d".toList ∧
      (∀ other ∈ stage.before ++ stage.after, other.name ≠ "it's \x7bon\x7d") ∧
      extract .kotlin (written .kotlin ⟨2, 1, 1, 1⟩
          [stage.with (cue.renamed (backticked "it's \x7bon\x7d"))]) none =
        .found [⟨"Stage", [⟨.call, "open", "Unit", [⟨"rows", "List<Int>"⟩]⟩,
          ⟨.call, "it's \x7bon\x7d", "Unit", [⟨"at", "Int"⟩]⟩, ⟨.call, "close", "Unit", []⟩],
          .android⟩] := by
  have exposed : (cue.callable? .kotlin stage.marked).isSome = true := by decide
  have plain : backtick ∉ "it's \x7bon\x7d".toList := by decide
  have noBreak : '\n' ∉ "it's \x7bon\x7d".toList := by decide
  have fresh : ∀ other ∈ stage.before ++ stage.after, other.name ≠ "it's \x7bon\x7d" := by decide
  have keeps : KeepsBody ⟨2, 1, 1, 1⟩ "it's \x7bon\x7d".toList := by
    unfold KeepsBody
    decide +kernel
  refine ⟨stage_legible, exposed, plain, noBreak, fresh, ?_⟩
  rw [(extract_quoted_iff stage_legible exposed plain noBreak fresh ⟨2, 1, 1, 1⟩ none).mpr
      ⟨keeps, by decide, by decide⟩,
    extract_legible (by simp) _ (List.forall_mem_singleton.mpr stage_legible) none]
  rfl

/-- What the file comes to with a quoted name in the place of `cue`. -/
def quotedStage (name : String) : Extraction (List Entity) :=
  extract .kotlin (written .kotlin ⟨2, 1, 1, 1⟩ [stage.with (cue.renamed (backticked name))]) none

/-- What it comes to as it is, with the name changed in the entity only. -/
def renamedStage (name : String) : Extraction (List Entity) :=
  (extract .kotlin (written .kotlin ⟨2, 1, 1, 1⟩ [stage.with cue]) none).map
    (List.map (renameIn "cue" name))

theorem ne_of_warnings_or_result {first second : Extraction (List Entity)}
    (differ : first.warnings ≠ second.warnings ∨
      first.result.toOption ≠ second.result.toOption) : first ≠ second := by
  rintro rfl
  exact differ.elim (absurd rfl) (absurd rfl)

/-- A name that holds a quote leaves the class open, one that holds a brace ends it, and with the
name of an angle the member is lost. -/
theorem extract_stage_differs :
    (stage.with cue).Legible .kotlin ∧ quotedStage "it\"s" ≠ renamedStage "it\"s" ∧
      quotedStage "on\x7d" ≠ renamedStage "on\x7d" ∧ quotedStage "<" ≠ renamedStage "<" :=
  ⟨stage_legible, ne_of_warnings_or_result (by decide +kernel),
    ne_of_warnings_or_result (by decide +kernel), ne_of_warnings_or_result (by decide +kernel)⟩

end DartBindings.Declaration
