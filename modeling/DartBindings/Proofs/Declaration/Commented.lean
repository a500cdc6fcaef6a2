import DartBindings.Proofs.Declaration.Invariant
import DartBindings.Proofs.Declaration.Passage
import DartBindings.Proofs.Declaration.SeamSignature

/-!
Extraction from a commented text. A comment between two tokens leaves what a text declares the
same, but for the blanks in the types of parameters and for a return type that it stands in.
-/

set_option autoImplicit false

namespace DartBindings.Declaration

open Text Source Bridge

/-! ## Class bodies -/

section Opening

variable {seam : Seam} {pos other start : Nat} {token : Token}

theorem Seam.start_length (seam : Seam) : seam.start seam.plain.length = seam.commented.length := by
  rw [seam.length_commented]
  apply seam.start_of_le
  rw [Seam.plain, List.length_append]
  exact Nat.le_add_right _ _

theorem Seam.InStep.afterHeaderToken (step : seam.InStep seam.plain.length pos other)
    (read : Source.nextToken seam.plain pos seam.plain.length = some token) :
    seam.InStep seam.plain.length (afterHeaderToken seam.plain token)
      (afterHeaderToken seam.commented (seam.token token)) := by
  have next := step.afterToken read
  have round := next.skipGroup .round
  have angle := next.skipGroup .angle
  rw [seam.start_length] at round angle
  cases list : token.value == "(" with
  | true =>
      simpa only [Declaration.afterHeaderToken, Seam.token_value, Seam.token_stop, list,
        ↓reduceIte] using round
  | false =>
      cases arguments : token.value == "<" with
      | true =>
          simpa only [Declaration.afterHeaderToken, Seam.token_value, Seam.token_stop, list,
            arguments, Bool.false_eq_true, ↓reduceIte] using angle
      | false =>
          simpa only [Declaration.afterHeaderToken, Seam.token_value, Seam.token_stop, list,
            arguments, Bool.false_eq_true, ↓reduceIte] using next

@[simp] theorem endsHeader_token (seam : Seam) (token : Token) :
    endsHeader (seam.token token) = endsHeader token := rfl

/-- A class has a body in both texts or in none, after the same words, and a reader may stand
where the body starts. -/
structure Seam.Opens (seam : Seam) (pos other : Nat) : Prop where
  same : opening seam.commented other =
    ⟨(opening seam.plain pos).body.map seam.stop, (opening seam.plain pos).words⟩
  stands : ∀ start ∈ (opening seam.plain pos).body, seam.Stands start seam.plain.length

theorem Seam.Opens.before (read : nextToken seam.plain pos seam.plain.length = some token)
    (same : nextToken seam.commented other seam.commented.length = some (seam.token token))
    (brace : ¬ token.value == "\x7b") (goesOn : ¬ endsHeader token)
    (later : seam.Opens (afterHeaderToken seam.plain token)
      (afterHeaderToken seam.commented (seam.token token))) : seam.Opens pos other := by
  have plain := opening_of_some read
  have commented := opening_of_some same
  rw [if_neg brace, if_neg goesOn] at plain
  rw [Seam.token_value, endsHeader_token, if_neg brace, if_neg goesOn] at commented
  constructor
  · rw [commented, plain, later.same]
    cases word : token.kind == .word && token.value != "(" && token.value != "<" with
    | true => simp only [Seam.token_kind, word, ↓reduceIte]
    | false => simp only [Seam.token_kind, word, Bool.false_eq_true, ↓reduceIte]
  · intro start member
    rw [plain] at member
    refine later.stands start ?_
    dsimp only at member
    split at member <;> exact member

theorem Seam.InStep.opens (step : seam.InStep seam.plain.length pos other) :
    seam.Opens pos other := by
  have same := step.nextToken
  rw [seam.start_length] at same
  induction pos using opening.induct seam.plain generalizing other with
  | case1 pos ended =>
      rw [ended] at same
      constructor
      · rw [opening_of_none ended, opening_of_none same]
        rfl
      · intro start member
        rw [opening_of_none ended] at member
        cases member
  | case2 pos token read brace =>
      rw [read] at same
      constructor
      · rw [opening_of_some read, opening_of_some same, Seam.token_value, if_pos brace,
          if_pos brace]
        rfl
      · intro start member
        rw [opening_of_some read, if_pos brace] at member
        cases member
        exact (step.afterToken read).stands
  | case3 pos token read brace ends =>
      rw [read] at same
      constructor
      · rw [opening_of_some read, opening_of_some same, Seam.token_value, endsHeader_token,
          if_neg brace, if_neg brace, if_pos ends, if_pos ends]
        rfl
      · intro start member
        rw [opening_of_some read, if_neg brace, if_pos ends] at member
        cases member
  | case4 pos token read brace goesOn | case5 pos token read brace goesOn =>
      rename_i word ih
      rw [read] at same
      have next := step.afterHeaderToken read
      have later := next.nextToken
      rw [seam.start_length] at later
      exact .before read same brace goesOn (ih next later)

end Opening

/-! ## Extractions that agree -/

/-- The extractions report the same, and they agree on what they find or on why they fail. -/
structure SameExtraction {α : Type} (R : α → α → Prop) (extraction other : Extraction α) :
    Prop where
  warnings : other.warnings = extraction.warnings
  result : Agrees R extraction.result other.result

section SameExtraction

variable {α β : Type} {R : α → α → Prop} {S : β → β → Prop}

theorem SameExtraction.found {value other : α} (related : R value other) :
    SameExtraction R (.found value) (.found other) :=
  ⟨rfl, .ok related⟩

theorem SameExtraction.report {first second : Extraction α} (same : SameExtraction R first second)
    (warning : Warning) :
    SameExtraction R ⟨warning :: first.warnings, first.result⟩
      ⟨warning :: second.warnings, second.result⟩ :=
  ⟨congrArg (warning :: ·) same.warnings, same.result⟩

theorem SameExtraction.andThen {first second : Extraction α} {f g : α → Extraction β}
    (same : SameExtraction R first second)
    (next : ∀ x y, R x y → SameExtraction S (f x) (g y)) :
    SameExtraction S (first.andThen f) (second.andThen g) := by
  obtain ⟨warnings, result⟩ := first
  obtain ⟨others, otherResult⟩ := second
  obtain ⟨rfl, agrees⟩ := same
  cases agrees with
  | @ok x y related =>
      obtain ⟨later, agrees⟩ := next x y related
      have reports : others ++ (g y).warnings = others ++ (f x).warnings := by rw [later]
      exact ⟨reports, agrees⟩
  | error cause => exact ⟨rfl, .error cause⟩

theorem SameExtraction.imp {first second : Extraction α} {T : α → α → Prop}
    (same : SameExtraction R first second) (step : ∀ x y, R x y → T x y) :
    SameExtraction T first second :=
  ⟨same.warnings, same.result.imp step⟩

theorem SameExtraction.map {first second : Extraction α} {f g : α → β}
    (same : SameExtraction R first second) (image : ∀ x y, R x y → S (f x) (g y)) :
    SameExtraction S (first.map f) (second.map g) := by
  obtain ⟨warnings, result⟩ := first
  obtain ⟨others, otherResult⟩ := second
  obtain ⟨rfl, agrees⟩ := same
  cases agrees with
  | ok related => exact ⟨rfl, .ok (image _ _ related)⟩
  | error cause => exact ⟨rfl, .error cause⟩

end SameExtraction

/-! ## Entities -/

/-- The members of a class body, with the callables that they are exposed as and those in the text
with a comment at the offset. `taken` are the names that earlier members have. -/
inductive SameMembers (dialect : Dialect) (text : List Char) (offset : Nat) (marked : Bool)
    (stop : Nat) : List String → List Header → List Callable → List Callable → Prop where
  | nil {taken} : SameMembers dialect text offset marked stop taken [] [] []
  | silent {taken member members callables others} :
      exposed? dialect text marked stop member = none →
      SameMembers dialect text offset marked stop taken members callables others →
      SameMembers dialect text offset marked stop taken (member :: members) callables others
  | again {taken member members callable callables others} :
      exposed? dialect text marked stop member = some callable → callable.name ∈ taken →
      SameMembers dialect text offset marked stop taken members callables others →
      SameMembers dialect text offset marked stop taken (member :: members) callables others
  | kept {taken member members callable other callables others} :
      exposed? dialect text marked stop member = some callable → callable.name ∉ taken →
      SameMember dialect text offset stop member callable other →
      SameMembers dialect text offset marked stop (callable.name :: taken) members callables
        others →
      SameMembers dialect text offset marked stop taken (member :: members) (callable :: callables)
        (other :: others)

/-- The body of a class, with the callables of the entity that it becomes and those in the text
with a comment at the offset. -/
def SameBody (dialect : Dialect) (text : List Char) (offset : Nat) (header : Header)
    (start : Nat) : List Callable → List Callable → Prop :=
  SameMembers dialect text offset (header.markers.contains dialect.classMarker)
    (bodyEnd text start) [] (headers dialect text start (bodyEnd text start) true)

/-- The entity that a header of the text becomes and the one in the text with a comment at the
offset, if it becomes one. -/
inductive SameClass (dialect : Dialect) (text : List Char) (offset : Nat) (header : Header) :
    Option Entity → Option Entity → Prop where
  | bare : exposedBody? dialect text header = none →
      SameClass dialect text offset header none none
  | empty {start} : exposedBody? dialect text header = some start →
      SameBody dialect text offset header start [] [] →
      SameClass dialect text offset header none none
  | entity {start callable other callables others} :
      exposedBody? dialect text header = some start →
      SameBody dialect text offset header start (callable :: callables) (other :: others) →
      SameClass dialect text offset header
        (some ⟨header.name, callable :: callables, dialect.origin⟩)
        (some ⟨header.name, other :: others, dialect.origin⟩)

/-- The headers of a text, with the entities that they become and those in the text with a comment
at the offset. -/
inductive SameEntities (dialect : Dialect) (text : List Char) (offset : Nat) :
    List Header → List Entity → List Entity → Prop where
  | nil : SameEntities dialect text offset [] [] []
  | cons {header found entity other entities others} :
      SameClass dialect text offset header entity other →
      SameEntities dialect text offset found entities others →
      SameEntities dialect text offset (header :: found) (entity.toList ++ entities)
        (other.toList ++ others)

section Entities

variable {seam : Seam} {dialect : Dialect} {stop start : Nat}

/-- The body that starts here ends at the same place, and it is a window to read in. -/
theorem Seam.Stands.bodyStop (stands : seam.Stands start seam.plain.length)
    (file : Option RawText) (className : String) :
    SameExtraction (fun stop other => stop = bodyEnd seam.plain start ∧ seam.Stands start stop ∧
        other = seam.start stop)
      (bodyStop seam.plain file className start)
      (bodyStop seam.commented file className (seam.stop start)) := by
  have same := stands.findClosing (seam.at_stop start) .curly
  unfold Declaration.bodyStop bodyEnd
  cases found : Source.findClosing seam.plain start '\x7b' '\x7d' with
  | ok n =>
      rw [found] at same
      rw [same]
      exact .found ⟨rfl, stands.body .curly (by decide) found, rfl⟩
  | error failure =>
      rw [found] at same
      rw [same]
      exact ⟨rfl, .ok ⟨rfl, stands, seam.start_length.symm⟩⟩

/-- The members of a class are exposed in both texts or in none. -/
theorem SameMembers.both {text : List Char} {offset : Nat} {marked : Bool} {taken : List String}
    {members : List Header} {callables others : List Callable}
    (same : SameMembers dialect text offset marked stop taken members callables others) :
    callables = [] ∧ others = [] ∨ ∃ callable rest other otherRest,
      callables = callable :: rest ∧ others = other :: otherRest := by
  induction same with
  | nil => exact .inl ⟨rfl, rfl⟩
  | silent _ _ ih => exact ih
  | again _ _ _ ih => exact ih
  | kept => exact .inr ⟨_, _, _, _, rfl, rfl⟩

theorem exposed?_of_other {text : List Char} {marked : Bool} {member : Header}
    (other : (member.keyword != dialect.memberKeyword) = true) :
    exposed? dialect text marked stop member = none := by
  rw [exposed?, if_neg (by simpa using other)]

theorem exposed?_of_ok {text : List Char} {marked : Bool} {member : Header}
    {callable? : Option Callable} (keyword : ¬(member.keyword != dialect.memberKeyword) = true)
    (read : dialect.callable? text marked stop member = .ok callable?) :
    exposed? dialect text marked stop member = callable? := by
  rw [exposed?, if_pos (by simpa using keyword), read]
  rfl

/-- The members of a class are exposed one by one as they are without the comment. -/
theorem Seam.Apart.callables (apart : seam.Apart dialect) (className : String)
    (marked : Bool) {members : List Header}
    (stands : ∀ member ∈ members, seam.Stands member.stop stop) (taken : List String) :
    SameExtraction (SameMembers dialect seam.plain seam.before.length marked stop taken members)
      (callables dialect seam.plain className marked stop taken members)
      (callables dialect seam.commented className marked (seam.start stop) taken
        (members.map seam.header)) := by
  induction members generalizing taken with
  | nil => exact .found .nil
  | cons member members ih =>
      have later := ih fun other inside => stands other (List.mem_cons_of_mem member inside)
      have same := (stands member List.mem_cons_self).callable? apart marked
      have keyword : (seam.header member).keyword = member.keyword := rfl
      rw [List.map_cons, Declaration.callables, Declaration.callables, keyword]
      split
      · rename_i other
        exact (later taken).imp fun _ _ => .silent (exposed?_of_other other)
      · rename_i keyword
        have exposed {callable? : Option Callable}
            (read : dialect.callable? seam.plain marked stop member = .ok callable?) :
            exposed? dialect seam.plain marked stop member = callable? :=
          exposed?_of_ok keyword read
        generalize dialect.callable? seam.plain marked stop member = result at same exposed
        generalize dialect.callable? seam.commented marked (seam.start stop)
          (seam.header member) = other at same
        cases same with
        | error cause => exact ⟨rfl, .error cause⟩
        | ok same =>
            have own := exposed rfl
            cases same with
            | none => exact (later taken).imp fun _ _ => .silent own
            | @some callable other same =>
                dsimp only
                rw [same.name]
                split
                · rename_i known
                  have known : callable.name ∈ taken := List.contains_iff_mem.mp known
                  exact ((later taken).imp fun _ _ => .again own known).report
                    (.duplicateMember className callable.name)
                · rename_i fresh
                  have fresh : callable.name ∉ taken := fun known =>
                    fresh (List.contains_iff_mem.mpr known)
                  exact (later _).map fun _ _ rest => .kept own fresh same rest

/-- The headers of the members are the same. -/
theorem Seam.Stands.members (stands : seam.Stands start stop)
    (keeps : seam.KeepsArguments dialect) (shallow : Bool) :
    headers dialect seam.commented (seam.stop start) (seam.start stop) shallow =
        (headers dialect seam.plain start stop shallow).map seam.header ∧
      ∀ header ∈ headers dialect seam.plain start stop shallow, seam.Stands header.stop stop := by
  have step : seam.InStep stop (Walk.start start).pos (seam.stop start) :=
    ⟨stands, seam.at_stop start⟩
  exact step.headers keeps shallow

theorem Seam.Apart.entity? (apart : seam.Apart dialect) (file : Option RawText) {header : Header}
    (keyword : header.keyword = classKeyword)
    (stands : seam.Stands header.stop seam.plain.length) :
    SameExtraction (SameClass dialect seam.plain seam.before.length header)
      (entity? dialect seam.plain file header)
      (entity? dialect seam.commented file (seam.header header)) := by
  have step : seam.InStep seam.plain.length header.stop (seam.stop header.stop) :=
    ⟨stands, seam.at_stop header.stop⟩
  obtain ⟨same, inside⟩ := step.opens
  have stopEq : (seam.header header).stop = seam.stop header.stop := rfl
  have name : (seam.header header).name = header.name := rfl
  have markers : (seam.header header).markers = header.markers := rfl
  have body : exposedBody? dialect seam.plain header =
      if dialect.exposes header.name (opening seam.plain header.stop).words then
        (opening seam.plain header.stop).body
      else none := by
    simp only [exposedBody?, keyword, true_and]
  unfold Declaration.entity?
  rw [stopEq, same, name, markers]
  generalize opening seam.plain header.stop = opening at inside body
  obtain ⟨start?, words⟩ := opening
  cases start? with
  | none => exact .found (.bare (body.trans (ite_self none)))
  | some start =>
      have stands := inside start rfl
      dsimp only [Option.map_some] at body ⊢
      cases exposes : dialect.exposes header.name words with
      | false =>
          rw [exposes] at body
          exact .found (.bare body)
      | true =>
          rw [exposes] at body
          refine (stands.bodyStop file header.name).andThen ?_
          rintro _ _ ⟨rfl, window, rfl⟩
          obtain ⟨members, readable⟩ := window.members apart.keepsArguments true
          rw [members]
          refine (apart.callables header.name _ readable []).map fun callables others each => ?_
          obtain ⟨rfl, rfl⟩ | ⟨callable, rest, other, otherRest, rfl, rfl⟩ := each.both
          · exact .empty body each
          · exact .entity body each

theorem Seam.Apart.entities (apart : seam.Apart dialect) (file : Option RawText)
    {found : List Header} (stands : ∀ header ∈ found, seam.Stands header.stop seam.plain.length) :
    SameExtraction (SameEntities dialect seam.plain seam.before.length found)
      (entities dialect seam.plain file found)
      (entities dialect seam.commented file (found.map seam.header)) := by
  induction found with
  | nil => exact .found .nil
  | cons header found ih =>
      have later := ih fun other inside => stands other (List.mem_cons_of_mem header inside)
      have keyword : (seam.header header).keyword = header.keyword := rfl
      rw [List.map_cons, Declaration.entities, Declaration.entities, keyword]
      split
      · rename_i other
        have bare : exposedBody? dialect seam.plain header = none := by
          rw [exposedBody?, if_neg fun exposed => bne_iff_ne.mp other exposed.1]
        exact later.imp fun _ _ => .cons (.bare bare)
      · rename_i keyword
        have keyword : header.keyword = classKeyword := by simpa using keyword
        refine (apart.entity? file keyword (stands header List.mem_cons_self)).andThen ?_
        exact fun entity other same => later.map fun _ _ rest => .cons same rest

/-- At the start of the text a reader may stand. -/
theorem Seam.stands_zero (seam : Seam)
    (stretch : ∃ spellings, Stretch seam.follow seam.before spellings)
    (followed : seam.after ≠ []) :
    seam.Stands 0 seam.plain.length := by
  have longer : seam.before.length < seam.plain.length := by
    rw [Seam.plain, List.length_append]
    have := List.length_pos_iff.mpr followed
    omega
  exact ⟨fun _ => ⟨stretch, [], rfl⟩, fun _ => by omega, fun _ => by omega⟩

theorem Seam.Apart.extract (apart : seam.Apart dialect) (file : Option RawText)
    (stretch : ∃ spellings, Stretch seam.follow seam.before spellings)
    (followed : seam.after ≠ []) :
    SameExtraction (SameEntities dialect seam.plain seam.before.length
        (headers dialect seam.plain 0 seam.plain.length false))
      (extract dialect seam.plain file) (extract dialect seam.commented file) := by
  have stands := seam.stands_zero stretch followed
  obtain ⟨found, readable⟩ := stands.members apart.keepsArguments false
  rw [seam.start_length, seam.stop_of_le (Nat.zero_le _)] at found
  unfold Declaration.extract
  rw [found]
  exact apart.entities file readable

end Entities

/-! ## A comment in a gap -/

section Gaps

variable {text comment : List Char} {offset : Nat} {before : List Token} {first : Token}
  {dialect : Dialect}

theorem length_take_gap (gap : Gap text offset before first) :
    (text.take offset).length = offset := by
  rw [List.length_take]
  exact Nat.min_eq_left (Nat.le_of_lt gap.inside)

/-- Only an argument list that follows `first` at once is attached to it. -/
theorem keepsArguments_of_gap (gap : Gap text offset before first) (isComment : IsComment comment)
    (attached : text[offset]? = some '(' → first.stop = offset →
      first.kind ≠ .marker ∧ dialect.isModifier first = false) :
    Seam.KeepsArguments ⟨text.take offset, comment, text.drop offset, isComment⟩ dialect := by
  have length := length_take_gap gap
  have whole : text.take offset ++ text.drop offset = text := List.take_append_drop offset text
  intro earlier token chain stops takes list
  dsimp only [Seam.plain] at chain stops list
  rw [whole, length] at chain
  rw [length] at stops
  rw [List.head?_drop] at list
  have same : earlier ++ [token] = before ++ [first] := by
    have both := chain.symm.trans gap.tokens_eq
    rw [List.append_cons, List.append_cons before] at both
    exact List.append_cancel_right both
  obtain ⟨-, rfl⟩ := List.append_singleton_inj.mp same
  obtain ⟨noMarker, noModifier⟩ := attached list stops
  rcases takes with marker | modifier
  · exact noMarker marker
  · rw [noModifier] at modifier
    cases modifier

/-- A comment put between two tokens leaves the entities of a text the same, with the members of
each, their kinds, their names and their parameters, but for the blanks in the types of
parameters. The return type that the comment stands inside of ends there. The comment must not
part an argument list from the annotation or modifier that it is attached to, nor a sink type from
its qualifier. -/
theorem extract_commented (dialect : Dialect) (file : Option RawText)
    (gap : Gap text offset before first) (plain : ∀ token ∈ before ++ [first], token.Plain text)
    (isComment : IsComment comment)
    (attached : text[offset]? = some '(' → first.stop = offset →
      first.kind ≠ .marker ∧ dialect.isModifier first = false)
    (keeps : KeepsSinks (text.take offset) (text.drop offset)) :
    SameExtraction (SameEntities dialect text offset (headers dialect text 0 text.length false))
      (extract dialect text file)
      (extract dialect (text.take offset ++ (comment ++ text.drop offset)) file) := by
  let seam : Seam := ⟨text.take offset, comment, text.drop offset, isComment⟩
  have whole : seam.plain = text := List.take_append_drop offset text
  have length : seam.before.length = offset := length_take_gap gap
  have apart : seam.Apart dialect :=
    ⟨gap.noSlash, keeps, keepsArguments_of_gap gap isComment attached⟩
  have followed : seam.after ≠ [] := fun ended =>
    Nat.not_le.mpr gap.inside (List.drop_eq_nil_iff.mp ended)
  have same := apart.extract file ⟨_, gap.stretch plain⟩ followed
  rwa [whole, length] at same

/-- The comment stands before the type of a parameter. -/
theorem extract_commented_parameter :
    let text := "class A \x7b @NativeFunction fun f(a: Int) \x7d".toList
    SameExtraction (SameEntities .kotlin text 34 (headers .kotlin text 0 text.length false))
      (extract .kotlin text none)
      (extract .kotlin (text.take 34 ++ ("/* one */".toList ++ text.drop 34)) none) := by
  intro text
  obtain ⟨read, unquoted, noBacktick, last, next, comment⟩ :
      tokens text 0 text.length = (tokens text 0 text.length).take 8 ++
        ⟨.symbol, ":", 33, 34⟩ :: ⟨.word, "Int", 35, 38⟩ :: (tokens text 0 text.length).drop 10 ∧
      (∀ token ∈ (tokens text 0 text.length).take 8 ++ [⟨.symbol, ":", 33, 34⟩],
        token.kind ≠ .literal) ∧
      backtick ∉ text ∧ (text.take 34).getLast? = some ':' ∧ text[34]? = some ' ' ∧
      commentLength ("/* one */".toList ++ [' ']) = "/* one */".toList.length := by
    decide +kernel
  have isComment : IsComment "/* one */".toList :=
    isComment_of_followed (by decide) comment (List.cons_ne_nil _ _)
  have keeps : KeepsSinks (text.take 34) (text.drop 34) := by
    constructor
    · intro dot
      rw [last] at dot
      cases dot
    · intro c ends d _ mark
      rw [last] at ends
      cases ends
      cases mark
  refine extract_commented .kotlin none (.at_stop read ?_) ?_ isComment ?_ keeps
  · rw [last]
    decide
  · exact fun token member => token.plain_of_unquoted (unquoted token member) noBacktick
  · intro list
    rw [next] at list
    cases list

/-- Comments are not always harmless: one inside of a return type cuts it short. -/
theorem extract_commented_return_type :
    let text := "class A \x7b @NativeFunction fun f(): List<Int> \x7b\x7d \x7d".toList
    (∃ before first, Gap text 39 before first) ∧ IsComment "/* c */".toList ∧
      (extract .kotlin text none).result =
        .ok [⟨"A", [⟨.call, "f", "List<Int>", []⟩], .android⟩] ∧
      (extract .kotlin (text.take 39 ++ ("/* c */".toList ++ text.drop 39)) none).result =
        .ok [⟨"A", [⟨.call, "f", "List", []⟩], .android⟩] ∧
      compact "List<Int>" ≠ compact "List" := by
  intro text
  obtain ⟨read, last, comment, plain, commented, apart⟩ :
      tokens text 0 text.length = (tokens text 0 text.length).take 9 ++
        ⟨.word, "List", 35, 39⟩ :: ⟨.symbol, "<", 39, 40⟩ :: (tokens text 0 text.length).drop 11 ∧
      (text.take 39).getLast? ≠ some '/' ∧
      commentLength ("/* c */".toList ++ [' ']) = "/* c */".toList.length ∧
      (extract .kotlin text none).result =
        .ok [⟨"A", [⟨.call, "f", "List<Int>", []⟩], .android⟩] ∧
      (extract .kotlin (text.take 39 ++ ("/* c */".toList ++ text.drop 39)) none).result =
        .ok [⟨"A", [⟨.call, "f", "List", []⟩], .android⟩] ∧
      compact "List<Int>" ≠ compact "List" := by
    decide +kernel
  exact ⟨⟨_, _, .at_stop read last⟩,
    isComment_of_followed (by decide) comment (List.cons_ne_nil _ _), plain, commented, apart⟩

end Gaps

end DartBindings.Declaration
