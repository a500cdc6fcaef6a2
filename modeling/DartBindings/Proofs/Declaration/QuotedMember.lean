import DartBindings.Proofs.Declaration.RoundTrip

/-!
Walks over a class one of whose members has a quoted name. The name is read as one word, whatever
it is made of, with one exception: a walk takes the name of a single angle for the start of type
parameters, passes over what it takes for them, and goes on in some later member.
-/

set_option autoImplicit false

namespace DartBindings.Declaration

open Text Source Bridge

/-- The name between its marks. -/
def backticked (name : String) : String :=
  String.ofList (backtick :: (name.toList ++ [backtick]))

/-- The member under another name. -/
def MemberText.renamed (member : MemberText) (name : String) : MemberText :=
  { member with name := name }

section Member

variable {dialect : Dialect} {text after rest : List Char} {extent : Extent} {pos stop : Nat}
  {member : MemberText} {members : List MemberText} {layout : Layout} {name : String}

theorem MemberText.spelling_backticked (dialect : Dialect) (layout : Layout) (member : MemberText)
    (name : String) :
    (member.renamed (backticked name)).spelling dialect layout =
      member.lead dialect layout ++
        backtick :: (name.toList ++ backtick :: (member.tail dialect layout ++ emptyBody)) := by
  have spelled : (backticked name).toList = backtick :: (name.toList ++ [backtick]) :=
    String.toList_ofList
  have lead : (member.renamed (backticked name)).lead dialect layout =
      member.lead dialect layout := rfl
  have tail : (member.renamed (backticked name)).tail dialect layout =
      member.tail dialect layout := rfl
  rw [MemberText.spelling_eq, lead, tail]
  change member.lead dialect layout ++ ((backticked name).toList ++ _) = _
  rw [spelled]
  simp

/-! ## The name as it is read -/

/-- A walk comes to what stands for the name of a member after its markers and modifiers. -/
theorem Walk.headers_beforeName (regular : dialect.Regular)
    (known : ∀ modifier ∈ member.modifiers, modifier ∈ dialect.modifiers)
    (window : Window text extent.stop pos (member.lead dialect layout ++ after)) :
    ∃ (walk : Walk) (keyword : Token),
      Window text extent.stop (keyword.stop + 1) after ∧
      nextToken text keyword.stop extent.stop = nextToken text (keyword.stop + 1) extent.stop ∧
      keyword.value = dialect.memberKeyword ∧
      walk.markers = member.markings.map (Marking.marker dialect) ∧
      walk.modifiers = member.modifiers ∧
      (Walk.start pos).headers dialect text extent =
        (walk.atKeyword text extent keyword).2.toList ++
          (walk.atKeyword text extent keyword).1.headers dialect text extent := by
  obtain ⟨start, prefixed, walked⟩ := Walk.headers_lead regular known window
  have beyond := prefixed.of_append dialect.memberKeyword.toList
  rw [String.length_toList] at beyond
  refine ⟨⟨start, _, _, false⟩, ⟨.word, dialect.memberKeyword, start, _⟩, beyond.tail,
    nextToken_blank (by decide) beyond, rfl, rfl, rfl, ?_⟩
  rw [walked]
  exact Walk.headers_keyword regular.memberStarts prefixed _ _

theorem Walk.headers_quoted (regular : dialect.Regular) (canonical : member.Canonical dialect)
    (plain : backtick ∉ name.toList) (noAngle : name ≠ "<")
    (window : Window text extent.stop pos
      ((member.renamed (backticked name)).spelling dialect layout ++ after)) :
    ∃ start signature next found,
      Window text extent.stop signature (member.tail dialect layout ++ (emptyBody ++ after)) ∧
      Window text extent.stop next after ∧
      (∀ header ∈ found, Harmless text extent.stop after header) ∧
      (Walk.start pos).headers dialect text extent =
        (member.renamed name).header dialect start signature ::
          (found ++ (Walk.start next).headers dialect text extent) := by
  rw [MemberText.spelling_backticked, List.append_assoc, List.cons_append, List.append_assoc,
    List.cons_append, List.append_assoc] at window
  obtain ⟨walk, keyword, word, skip, value, markers, modifiers, walked⟩ :=
    Walk.headers_beforeName regular canonical.modifiers window
  have read := nextToken_quoted plain word
  rw [String.ofList_toList] at read
  have signature := (word.of_append (backtick :: name.toList)).tail
  rw [List.length_cons] at signature
  have named : (nameToken text keyword.stop extent.stop).2 =
      some ⟨.word, name, keyword.stop + 1, keyword.stop + 1 + (name.toList.length + 2)⟩ := by
    simp [nameToken, skip, read, noAngle]
  have noClass : keyword.value ≠ classKeyword := value ▸ regular.apart
  obtain ⟨found, next, beyond, harmless, rest⟩ :=
    Walk.headers_of_passing ⟨signature, canonical.isPassage layout⟩ [] []
      (isQualifier ⟨.word, name, keyword.stop + 1, keyword.stop + 1 + (name.toList.length + 2)⟩)
  refine ⟨keyword.start, _, next, found, signature, beyond, harmless, ?_⟩
  rw [walked, Walk.atKeyword_of_word named rfl noClass walk, value, markers, modifiers]
  exact congrArg _ rest

/-! ## A name that is cut short -/

theorem callable?_of_ended {header : Header} (dialect : Dialect) (text : List Char)
    (marked : Bool) (ended : header.stop = stop) :
    dialect.callable? text marked stop header = .ok none := by
  unfold Dialect.callable?
  split
  · rfl
  · rw [ended, Dialect.signature?, nextToken_stop]
    rfl

theorem Walk.headers_stop (dialect : Dialect) (text : List Char) (markers modifiers : List String)
    (qualified : Bool) :
    Walk.headers dialect text extent ⟨extent.stop, markers, modifiers, qualified⟩ = [] :=
  Walk.headers_of_none (nextToken_stop text extent.stop)

/-- Where a window ends inside a quoted name, its member is not exposed. -/
theorem Walk.headers_cut (regular : dialect.Regular)
    (known : ∀ modifier ∈ member.modifiers, modifier ∈ dialect.modifiers) {cut : List Char}
    (plain : backtick ∉ cut)
    (window : Window text extent.stop pos (member.lead dialect layout ++ backtick :: cut))
    (marked : Bool) :
    Exposes dialect text marked extent.stop ((Walk.start pos).headers dialect text extent) [] := by
  obtain ⟨walk, keyword, word, skip, value, -, -, walked⟩ :=
    Walk.headers_beforeName regular known window
  obtain ⟨read, next⟩ := nextToken_cut plain word
  have noClass : (dialect.memberKeyword == classKeyword) = false :=
    beq_eq_false_iff_ne.mpr regular.apart
  rw [walked]
  by_cases angle : read = "<"
  · have ended : skipGroup text extent.stop extent.stop '<' '>' = extent.stop := by
      unfold skipGroup
      split
      · rename_i n found
        obtain ⟨m, rfl, -⟩ := findClosing_ok found
        omega
      · rfl
    simp only [Walk.atKeyword, nameToken, skip, next, angle, beq_self_eq_true, ↓reduceIte, ended,
      nextToken_stop, Option.toList_none, List.nil_append, Walk.headers_stop]
    exact .nil
  · simp only [Walk.atKeyword, nameToken, skip, next, beq_eq_false_iff_ne.mpr angle, value, noClass,
      Bool.false_eq_true, Bool.false_and, ↓reduceIte, beq_self_eq_true, Option.toList_some,
      List.singleton_append, Walk.headers_stop]
    exact exposes_of_forall
      (List.forall_mem_singleton.mpr (callable?_of_ended dialect text marked rfl))

/-! ## The name of a single angle -/

theorem getElem?_append_of_not_mem {first last : List Char} {n : Nat} {c : Char}
    (here : (first ++ last)[n]? = some c) (other : c ∉ first) :
    ∃ k, n = first.length + k ∧ last[k]? = some c := by
  have beyond : first.length ≤ n := by
    by_contra inside
    rw [List.getElem?_append_left (by omega)] at here
    exact other (List.mem_of_getElem? here)
  rw [List.getElem?_append_right beyond] at here
  exact ⟨n - first.length, by omega, here⟩

/-- An angle behind the name of a member stands before its body, or in a later line. -/
theorem passing_or_of_angle (own : member.Canonical dialect)
    (window : Window text stop pos (member.tail dialect layout ++ (emptyBody ++ after))) {n : Nat}
    (angle : (member.tail dialect layout ++ (emptyBody ++ after))[n]? = some '>') :
    Passing text stop after ((member.tail dialect layout).drop (n + 1)) (pos + (n + 1)) ∨
      ∃ k, n = (member.tail dialect layout).length + (emptyBody.length + k) ∧
        after[k]? = some '>' := by
  by_cases inside : n < (member.tail dialect layout).length
  · have passing : Passing text stop after (member.tail dialect layout) pos :=
      ⟨window, own.isPassage layout⟩
    exact .inl (passing.drop inside)
  · rw [List.getElem?_append_right (by omega)] at angle
    obtain ⟨k, offset, here⟩ := getElem?_append_of_not_mem angle (by decide)
    exact .inr ⟨k, by omega, here⟩

theorem passing_of_angle (regular : dialect.Regular)
    (canonical : ∀ other ∈ members, other.Canonical dialect) (noAngle : '>' ∉ rest)
    (window : Window text stop pos
      (members.flatMap (MemberText.spelling dialect layout) ++ rest)) {n : Nat}
    (angle : (members.flatMap (MemberText.spelling dialect layout) ++ rest)[n]? = some '>') :
    ∃ further later, later <:+ members ∧
      Passing text stop (later.flatMap (MemberText.spelling dialect layout) ++ rest) further
        (pos + (n + 1)) := by
  induction members generalizing pos n with
  | nil => exact absurd (List.mem_of_getElem? angle) noAngle
  | cons member members ih =>
      obtain ⟨own, others⟩ := List.forall_mem_cons.mp canonical
      have free : '>' ∉ member.lead dialect layout ++ member.name.toList := by
        intro among
        rcases List.mem_append.mp among with lead | name
        · exact absurd (member.lead_chars regular own.modifiers layout _ lead) (by decide)
        · exact absurd (own.name.word.chars _ name) (by decide)
      have split : (member :: members).flatMap (MemberText.spelling dialect layout) ++ rest =
          (member.lead dialect layout ++ member.name.toList) ++ (member.tail dialect layout ++
            (emptyBody ++ (members.flatMap (MemberText.spelling dialect layout) ++ rest))) := by
        simp [MemberText.spelling_eq]
      rw [split] at window angle
      obtain ⟨k, rfl, here⟩ := getElem?_append_of_not_mem angle free
      have line := window.of_append (member.lead dialect layout ++ member.name.toList)
      rcases passing_or_of_angle own line here with passing | ⟨m, rfl, later⟩
      · refine ⟨(member.tail dialect layout).drop (k + 1), members, List.suffix_cons _ _, ?_⟩
        rwa [Nat.add_assoc, ← Nat.add_assoc _ k] at passing
      · have beyond := (line.of_append (member.tail dialect layout)).of_append emptyBody
        obtain ⟨further, later, suffix, passing⟩ := ih others beyond later
        refine ⟨further, later, suffix.trans (List.suffix_cons _ _), ?_⟩
        simpa only [Nat.add_assoc] using passing

/-- Type parameters that start before the signature of a member end in its line, or in a later
one, or not at all. -/
theorem skipGroup_angle (regular : dialect.Regular) (own : member.Canonical dialect)
    (canonical : ∀ other ∈ members, other.Canonical dialect) (noAngle : '>' ∉ rest)
    (window : Window text stop pos (member.tail dialect layout ++
      (emptyBody ++ (members.flatMap (MemberText.spelling dialect layout) ++ rest)))) :
    skipGroup text pos stop '<' '>' = stop ∨
      ∃ further later, later <:+ members ∧
        Passing text stop (later.flatMap (MemberText.spelling dialect layout) ++ rest) further
          (skipGroup text pos stop '<' '>') := by
  unfold skipGroup
  split
  · rename_i n found
    obtain ⟨m, rfl, index⟩ := findClosing_ok found
    obtain ⟨⟨tail, here⟩, size⟩ := window
    by_cases inside : pos + (m + 1) ≤ stop
    · obtain ⟨c, angle, there⟩ := closingIndex_getElem? index
      cases angle
      rw [here, List.getElem?_append_left (by omega)] at there
      rw [show min (pos + m + 1) stop = pos + (m + 1) by omega]
      have window : Window text stop pos (member.tail dialect layout ++ (emptyBody ++
          (members.flatMap (MemberText.spelling dialect layout) ++ rest))) := ⟨⟨tail, here⟩, size⟩
      rcases passing_or_of_angle own window there with passing | ⟨k, rfl, later⟩
      · exact .inr ⟨_, members, List.suffix_refl _, passing⟩
      · have beyond := (window.of_append (member.tail dialect layout)).of_append emptyBody
        obtain ⟨further, later, suffix, passing⟩ :=
          passing_of_angle regular canonical noAngle beyond later
        refine .inr ⟨further, later, suffix, ?_⟩
        simpa only [Nat.add_assoc] using passing
    · exact .inl (by omega)
  · exact .inl rfl

/-- A walk that looks in a passage for the name of a member finds nothing there that counts, and
goes on with the members after it. -/
theorem Walk.atKeyword_lost (regular : dialect.Regular)
    (canonical : ∀ other ∈ members, other.Canonical dialect)
    (ended : ∀ next, Window text extent.stop next rest →
      (Walk.start next).headers dialect text extent = [])
    {keyword : Token} {further : List Char}
    (passing : Passing text extent.stop
      (members.flatMap (MemberText.spelling dialect layout) ++ rest) further
      (nameToken text keyword.stop extent.stop).1)
    (walk : Walk) :
    (∀ header ∈ (walk.atKeyword text extent keyword).2.toList ++
        (walk.atKeyword text extent keyword).1.headers dialect text extent,
      Ignored text extent.stop header) ∧
    ∀ marked, Exposes dialect text marked extent.stop
      ((walk.atKeyword text extent keyword).2.toList ++
        (walk.atKeyword text extent keyword).1.headers dialect text extent)
      (members.filterMap (MemberText.callable? dialect marked)) := by
  obtain ⟨found, stopped, _, read, ⟨n, rfl, body⟩, harmless, walked⟩ :=
    @Walk.atKeyword_headers_of_course dialect _ _ _ (passage text extent.stop _) _
      ⟨further, rfl, passing⟩ walk
  obtain ⟨others, last, closing, ignored, exposes, toEnd⟩ :=
    Walk.headers_members regular canonical body.tail
  rw [walked, Walk.headers_emptyBody read body, toEnd, ended last closing, List.append_nil]
  refine ⟨List.forall_mem_append.mpr ⟨fun header among => .inr ⟨_, harmless header among⟩, ignored⟩,
    fun marked => ?_⟩
  exact (exposes_of_harmless harmless).append (exposes marked)

/-- A walk that takes the name of a single angle for the start of type parameters misses its
member, and perhaps some of the next. -/
theorem Walk.headers_angle (regular : dialect.Regular) (own : member.Canonical dialect)
    (canonical : ∀ other ∈ members, other.Canonical dialect) (noAngle : '>' ∉ rest)
    (ended : ∀ next, Window text extent.stop next rest →
      (Walk.start next).headers dialect text extent = [])
    (window : Window text extent.stop pos
      ((member.renamed (backticked "<")).spelling dialect layout ++
        (members.flatMap (MemberText.spelling dialect layout) ++ rest))) :
    ∃ later, later <:+ members ∧
      (∀ header ∈ (Walk.start pos).headers dialect text extent,
        Ignored text extent.stop header) ∧
      ∀ marked, Exposes dialect text marked extent.stop
        ((Walk.start pos).headers dialect text extent)
        (later.filterMap (MemberText.callable? dialect marked)) := by
  rw [MemberText.spelling_backticked, List.append_assoc, List.cons_append, List.append_assoc,
    List.cons_append, List.append_assoc] at window
  obtain ⟨walk, keyword, word, skip, -, -, -, walked⟩ :=
    Walk.headers_beforeName regular own.modifiers window
  have read := nextToken_quoted (by decide) word
  have line : Window text extent.stop (keyword.stop + 1 + 3) _ :=
    (word.of_append (backtick :: "<".toList)).tail
  have name : nameToken text keyword.stop extent.stop =
      (skipGroup text (keyword.stop + 1 + 3) extent.stop '<' '>',
        nextToken text (skipGroup text (keyword.stop + 1 + 3) extent.stop '<' '>')
          extent.stop) := by
    unfold nameToken
    rw [skip, read]
    rfl
  rw [walked]
  rcases skipGroup_angle regular own canonical noAngle line with missed | found
  · refine ⟨[], List.nil_suffix, ?_⟩
    rw [missed, nextToken_stop] at name
    simp only [Walk.atKeyword, name, Walk.headers_stop, Option.toList_none, List.append_nil]
    exact ⟨by simp, fun _ => .nil⟩
  · obtain ⟨further, later, suffix, passing⟩ := found
    exact ⟨later, suffix, Walk.atKeyword_lost regular
      (fun other among => canonical other (suffix.subset among)) ended (by rwa [name]) walk⟩

end Member

/-! ## The body -/

/-- A class but for one of its members. -/
structure Surroundings where
  marked : Bool
  name : String
  before : List MemberText
  after : List MemberText
  deriving Repr

def Surroundings.with (place : Surroundings) (member : MemberText) : ClassText :=
  ⟨place.marked, place.name, place.before ++ member :: place.after⟩

/-- What the other members are exposed as, before the member and after it. -/
def Surroundings.callablesBefore (dialect : Dialect) (place : Surroundings) : List Callable :=
  place.before.filterMap (MemberText.callable? dialect place.marked)

def Surroundings.callablesAfter (dialect : Dialect) (place : Surroundings) : List Callable :=
  place.after.filterMap (MemberText.callable? dialect place.marked)

section Body

variable {dialect : Dialect} {text after rest : List Char} {extent : Extent} {pos stop : Nat}
  {place : Surroundings} {member : MemberText} {layout : Layout} {name : String}

theorem Surroundings.callables_with (dialect : Dialect) (place : Surroundings)
    (member : MemberText) :
    (place.with member).callables dialect =
      place.callablesBefore dialect ++ ((member.callable? dialect place.marked).toList ++
        place.callablesAfter dialect) := by
  have own : (member :: place.after).filterMap (MemberText.callable? dialect place.marked) =
      (member.callable? dialect place.marked).toList ++ place.callablesAfter dialect := by
    rw [List.filterMap_cons]
    cases member.callable? dialect place.marked <;> rfl
  rw [← own]
  exact List.filterMap_append

theorem Surroundings.canonical_with (canonical : ∀ other ∈ (place.with member).members,
    other.Canonical dialect) :
    (∀ other ∈ place.before, other.Canonical dialect) ∧ member.Canonical dialect ∧
      ∀ other ∈ place.after, other.Canonical dialect := by
  obtain ⟨before, others⟩ := List.forall_mem_append.mp canonical
  exact ⟨before, List.forall_mem_cons.mp others⟩

def renameCallable (name : String) (callable : Callable) : Callable :=
  { callable with name := name }

def Header.renamed (header : Header) (name : String) : Header :=
  { header with name := name }

/-- Nothing but the name of a callable depends on the name in its header. -/
theorem callable?_renamed (whole : ∀ name, dialect.streamName name = name) (text : List Char)
    (marked : Bool) (stop : Nat) (header : Header) (name : String) :
    dialect.callable? text marked stop (header.renamed name) =
      (dialect.callable? text marked stop header).map (Option.map (renameCallable name)) := by
  have modifiers : (header.renamed name).modifiers = header.modifiers := rfl
  have ends : (header.renamed name).stop = header.stop := rfl
  have exposed : dialect.exposesCall marked (header.renamed name) =
      dialect.exposesCall marked header := rfl
  have shown (signature : Signature) : dialect.expose marked (header.renamed name) signature =
      (dialect.expose marked header signature).map (renameCallable name) := by
    simp only [Dialect.expose, exposed, whole]
    split
    · rfl
    · split <;> rfl
  rw [Dialect.callable?, Dialect.callable?, modifiers, ends]
  split
  · rfl
  · cases dialect.signature? text header.stop stop with
    | error cause => rfl
    | ok signature =>
        cases signature with
        | none => rfl
        | some signature => exact congrArg Except.ok (shown signature)

/-- A walk through the body of a class one of whose members has a quoted name. -/
theorem Walk.headers_quotedBody (regular : dialect.Regular)
    (whole : ∀ name, dialect.streamName name = name)
    (canonical : ∀ other ∈ (place.with member).members, other.Canonical dialect)
    (plain : backtick ∉ name.toList) (noAngle : '>' ∉ rest)
    (ended : ∀ next, Window text extent.stop next rest →
      (Walk.start next).headers dialect text extent = [])
    (window : Window text extent.stop pos
      ((place.with (member.renamed (backticked name))).members.flatMap
        (MemberText.spelling dialect layout) ++ rest)) :
    (∀ header ∈ (Walk.start pos).headers dialect text extent,
      Ignored text extent.stop header) ∧
    ∃ shown, Exposes dialect text place.marked extent.stop
        ((Walk.start pos).headers dialect text extent)
        (place.callablesBefore dialect ++ shown) ∧
      (name ≠ "<" → shown = ((member.callable? dialect place.marked).map
        (renameCallable name)).toList ++ place.callablesAfter dialect) ∧
      (name = "<" → shown ⊆ place.callablesAfter dialect) := by
  obtain ⟨before, own, later⟩ := Surroundings.canonical_with canonical
  simp only [Surroundings.with, List.flatMap_append, List.flatMap_cons, List.append_assoc] at window
  obtain ⟨front, middle, line, ignored, exposes, walked⟩ :=
    Walk.headers_members regular before window
  rw [walked]
  by_cases angle : name = "<"
  · subst angle
    obtain ⟨others, suffix, ignoredToo, exposesToo⟩ :=
      Walk.headers_angle regular own later noAngle ended line
    refine ⟨List.forall_mem_append.mpr ⟨ignored, ignoredToo⟩, _,
      (exposes place.marked).append (exposesToo place.marked), fun other => absurd rfl other, ?_⟩
    exact fun _ => List.filterMap_subset _ fun _ among => suffix.subset among
  · obtain ⟨start, signature, next, found, tail, lines, harmless, walkedLine⟩ :=
      Walk.headers_quoted regular own plain angle line
    obtain ⟨others, last, closing, ignoredToo, exposesToo, walkedLines⟩ :=
      Walk.headers_members regular later lines
    rw [walkedLine, walkedLines, ended last closing, List.append_nil]
    have shown : dialect.callable? text place.marked extent.stop
        ((member.renamed name).header dialect start signature) =
          .ok ((member.callable? dialect place.marked).map (renameCallable name)) := by
      have renamed : (member.renamed name).header dialect start signature =
          (member.header dialect start signature).renamed name := rfl
      rw [renamed, callable?_renamed whole, callable?_header regular own start tail]
      rfl
    refine ⟨List.forall_mem_append.mpr ⟨ignored, ?_⟩, _,
      (exposes place.marked).append ((Exposes.of_option rfl shown).append
        ((exposes_of_harmless harmless).append (exposesToo place.marked))), fun _ => rfl,
      fun same => absurd same angle⟩
    have passage : ∀ header ∈ found, Ignored text extent.stop header :=
      fun header among => .inr ⟨_, harmless header among⟩
    exact List.forall_mem_cons.mpr
      ⟨.inl regular.apart, List.forall_mem_append.mpr ⟨passage, ignoredToo⟩⟩

end Body

end DartBindings.Declaration
