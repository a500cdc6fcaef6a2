import DartBindings.Proofs.Declaration.FrontWalk
import DartBindings.Proofs.Declaration.Passage
import DartBindings.Proofs.Source.TypeText

/-!
Classes read from their own text. From the name of a class to the brace that closes its body the
text is a front, unless a literal in it ends elsewhere with other text behind the brace. So nothing
behind the brace has a part in what the class becomes. The search for the end of a parameter list
alone may leave the body.
-/

set_option autoImplicit false

namespace DartBindings.Declaration

open Text Source Bridge

/-! ## From the name to the body -/

section Opening

variable {text : List Char} {pos start : Nat}

/-- A group is passed over by whole tokens. -/
theorem tokens_skipGroup {opening closing : Char} (plain : backtick ∉ text)
    (delimits : Delimits opening closing) (pos : Nat) : ∃ inside, tokens text pos text.length =
      inside ++ tokens text (skipGroup text pos text.length opening closing) text.length := by
  unfold skipGroup
  split
  · rename_i n found
    obtain ⟨m, rfl, index⟩ := findClosing_ok found
    have bound := closingIndex_lt index
    rw [List.length_drop] at bound
    rw [Nat.min_eq_left (by omega)]
    exact tokens_of_closingIndex plain delimits index
  · refine ⟨tokens text pos text.length, ?_⟩
    rw [tokens_of_none (nextToken_of_drop_nil List.drop_length _), List.append_nil]

theorem tokens_afterHeaderToken (plain : backtick ∉ text) (token : Token) :
    ∃ inside, tokens text token.stop text.length =
      inside ++ tokens text (afterHeaderToken text token) text.length := by
  unfold afterHeaderToken
  split
  · exact tokens_skipGroup plain .round token.stop
  · split
    · exact tokens_skipGroup plain .angle token.stop
    · exact ⟨[], rfl⟩

/-- A body starts after the next token, or after a later one. -/
theorem opening_body_some (opens : (opening text pos).body = some start) :
    ∃ token, nextToken text pos text.length = some token ∧
      (token.value = "\x7b" ∧ start = token.stop ∨
        token.value ≠ "\x7b" ∧ endsHeader token = false ∧
          (opening text (afterHeaderToken text token)).body = some start) := by
  cases read : nextToken text pos text.length with
  | none =>
      rw [opening_of_none read] at opens
      cases opens
  | some token =>
      rw [opening_of_some read] at opens
      refine ⟨token, rfl, ?_⟩
      by_cases brace : token.value = "\x7b"
      · rw [if_pos (by simpa using brace)] at opens
        cases opens
        exact .inl ⟨brace, rfl⟩
      · rw [if_neg (by simpa using brace)] at opens
        cases ends : endsHeader token with
        | true =>
            rw [ends] at opens
            cases opens
        | false =>
            refine .inr ⟨brace, rfl, ?_⟩
            rw [ends] at opens
            dsimp only at opens
            split at opens
            · contradiction
            · split at opens <;> exact opens

theorem lt_of_opening (opens : (opening text pos).body = some start) :
    pos < start := by
  induction room : text.length - pos using Nat.strongRecOn generalizing pos with
  | ind bound ih =>
      obtain ⟨token, read, ⟨-, rfl⟩ | ⟨-, -, later⟩⟩ := opening_body_some opens
      · exact (nextToken_advances read).1
      · have advances := lt_afterHeaderToken read
        have inside := (nextToken_advances read).2
        exact Nat.lt_trans advances (ih _ (by omega) later rfl)

/-- Whole tokens stand before a body. -/
theorem tokens_of_opening (plain : backtick ∉ text)
    (opens : (opening text pos).body = some start) :
    ∃ inside, tokens text pos text.length = inside ++ tokens text start text.length := by
  induction room : text.length - pos using Nat.strongRecOn generalizing pos with
  | ind bound ih =>
      obtain ⟨token, read, found⟩ := opening_body_some opens
      rw [tokens_of_some read]
      rcases found with ⟨-, rfl⟩ | ⟨-, -, later⟩
      · exact ⟨[token], rfl⟩
      · have advances := lt_afterHeaderToken read
        have inside := (nextToken_advances read).2
        obtain ⟨group, skipped⟩ := tokens_afterHeaderToken plain token
        obtain ⟨others, rest⟩ := ih _ (by omega) later rfl
        refine ⟨token :: (group ++ others), ?_⟩
        rw [skipped, rest, List.cons_append, List.append_assoc]

theorem opening_skip {next : Nat}
    (same : nextToken text pos text.length = nextToken text next text.length) :
    opening text pos = opening text next := by
  cases read : nextToken text pos text.length with
  | none => rw [opening_of_none read, opening_of_none (same.symm.trans read)]
  | some token => rw [opening_of_some read, opening_of_some (same.symm.trans read)]

end Opening

end DartBindings.Declaration

namespace DartBindings.Source

open Declaration

section Front

variable {tails : List Char → Prop} {text last : List Char} {pos start : Nat}

theorem Stands.afterHeaderToken {token : Token} (stands : Stands tails text token.stop) :
    (∀ tail, tails tail → text.length ≤ afterHeaderToken (text ++ tail) token) ∨
    ∃ next, Stands tails text next ∧ ∀ tail, tails tail →
      afterHeaderToken (text ++ tail) token = next := by
  unfold Declaration.afterHeaderToken
  split
  · exact stands.skipGroup_whole .round
  · split
    · exact stands.skipGroup_whole .angle
    · exact .inr ⟨token.stop, stands, fun _ _ => rfl⟩

/-- A body that starts in the front starts there before all tails, after the same words. -/
theorem Stands.opening (stands : Stands tails text pos) (follows : tails last)
    (opens : (Declaration.opening (text ++ last) pos).body = some start)
    (within : start ≤ text.length) :
    Stands tails text start ∧
      ∀ tail, tails tail →
        Declaration.opening (text ++ tail) pos = Declaration.opening (text ++ last) pos := by
  induction room : text.length - pos using Nat.strongRecOn generalizing pos with
  | ind bound ih =>
      rcases stands.nextToken with ⟨blank, -⟩ | ⟨token, after, read⟩
      · -- the rest of the front is trivia, so the body starts behind it
        rw [opening_skip (blank.skip (stands.drop_append last) _), List.length_drop] at opens
        have beyond := lt_of_opening opens
        omega
      · have whole (tail : List Char) (comes : tails tail) :
            Source.nextToken (text ++ tail) pos (text ++ tail).length = some token :=
          read tail _ comes (by rw [List.length_append]; exact Nat.le_add_right _ _)
        have here := whole last follows
        obtain ⟨other, same, found⟩ := opening_body_some opens
        cases here.symm.trans same
        rcases found with ⟨brace, rfl⟩ | ⟨-, -, later⟩
        · refine ⟨after, fun tail comes => ?_⟩
          rw [opening_of_some (whole tail comes), opening_of_some here, brace]
          rfl
        · rcases after.afterHeaderToken with leaves | ⟨next, there, skipped⟩
          · have beyond := lt_of_opening later
            have behind := leaves last follows
            omega
          · have advances := lt_afterHeaderToken here
            rw [skipped last follows] at advances later
            have bound := there.inside
            obtain ⟨body, rest⟩ := ih _ (by omega) there later rfl
            refine ⟨body, fun tail comes => ?_⟩
            rw [opening_of_some (whole tail comes), opening_of_some here, skipped tail comes,
              skipped last follows, rest tail comes]

end Front

end DartBindings.Source

/-! ## Signatures -/

namespace DartBindings.Source

open Declaration

section Signature

variable {tails : List Char → Prop} {text last : List Char} {pos : Nat} {c : Char}

/-- Effects are passed over alike before all tails. -/
theorem Stands.afterEffects (stands : Stands tails text pos) (follows : tails last)
    (effects : List String) :
    ∃ found, (∀ token ∈ found, Stands tails text token.stop) ∧ ∀ tail, tails tail →
      afterEffects effects (text ++ tail) pos text.length = found := by
  induction room : text.length - pos using Nat.strongRecOn generalizing pos with
  | ind bound ih =>
      obtain ⟨found, after, read⟩ := stands.read
      cases found with
      | none => exact ⟨none, nofun, fun tail comes => afterEffects_of_none (read tail comes)⟩
      | some token =>
          have there := after token rfl
          by_cases effect : effects.contains token.value = true
          · obtain ⟨advances, inside⟩ := nextToken_advances (read last follows)
            obtain ⟨found, beyond, rest⟩ := ih _ (by omega) there rfl
            refine ⟨found, beyond, fun tail comes => ?_⟩
            rw [afterEffects_of_read (read tail comes), if_pos effect, rest tail comes]
          · refine ⟨some token, after, fun tail comes => ?_⟩
            rw [afterEffects_of_read (read tail comes), if_neg effect]

/-- A return type does not reach beyond the character after the front. -/
theorem returnTypeAt_front (first : ∀ tail, tails tail → tail.head? = some c)
    (early : pos ≤ text.length) {tail : List Char} (follows : tails tail) :
    returnTypeAt (text ++ tail) pos text.length = returnTypeAt (text ++ [c]) pos text.length := by
  obtain ⟨rest, rfl⟩ := List.head?_eq_some_iff.mp (first tail follows)
  have split : text ++ c :: rest = (text ++ [c]) ++ rest := by simp
  have size : (text ++ [c]).length = text.length + 1 := by simp
  rw [returnTypeAt, returnTypeAt, split, captureType_within (by omega) (by omega)]

theorem returnTypeAfter_front (first : ∀ tail, tails tail → tail.head? = some c)
    {found : Option Token} (stands : ∀ token ∈ found, Stands tails text token.stop) (mark : String)
    {tail : List Char} (follows : tails tail) :
    returnTypeAfter mark (text ++ tail) text.length found =
      returnTypeAfter mark (text ++ [c]) text.length found := by
  cases found with
  | none => rfl
  | some token =>
      rw [returnTypeAfter, returnTypeAfter,
        returnTypeAt_front first (stands token rfl).inside follows]

theorem Stands.returns (stands : Stands tails text pos) (follows : tails last)
    (first : ∀ tail, tails tail → tail.head? = some c) (style : ReturnStyle) :
    ∃ result, ∀ tail, tails tail → style.read (text ++ tail) pos text.length = result := by
  cases style with
  | colon =>
      obtain ⟨found, after, read⟩ := stands.read
      refine ⟨.ok (returnTypeAfter ":" (text ++ [c]) text.length found), fun tail comes => ?_⟩
      rw [ReturnStyle.read, read tail comes, returnTypeAfter_front first after ":" comes]
  | arrow effects =>
      obtain ⟨found, after, read⟩ := stands.afterEffects follows effects
      refine ⟨.ok (returnTypeAfter "->" (text ++ [c]) text.length found), fun tail comes => ?_⟩
      rw [ReturnStyle.read, read tail comes, returnTypeAfter_front first after "->" comes]
  | unstated => exact ⟨.error .unstatedReturn, fun _ _ => rfl⟩

end Signature

end DartBindings.Source

namespace DartBindings.Declaration

open Text Source Bridge

/-- A parameter list that starts at `pos` is closed before `stop`. -/
def ListCloses (text : List Char) (pos stop : Nat) : Prop :=
  ∀ token, nextToken text pos stop = some token → token.value = "(" →
    ∃ last, findClosing text token.stop '(' ')' = .ok last ∧ last < stop

section Members

variable {dialect : Dialect} {tails : List Char → Prop} {text last : List Char} {c : Char}

theorem signature?_front {pos : Nat} (stands : Stands tails text pos) (follows : tails last)
    (first : ∀ tail, tails tail → tail.head? = some c)
    (list : ListCloses (text ++ last) pos text.length) {tail : List Char} (comes : tails tail) :
    dialect.signature? (text ++ tail) pos text.length =
      dialect.signature? (text ++ last) pos text.length := by
  obtain ⟨found, after, read⟩ := stands.read
  unfold Dialect.signature?
  rw [read tail comes, read last follows]
  cases found with
  | none => rfl
  | some token =>
      by_cases opens : token.value = "("
      · obtain ⟨n, closed, before⟩ := list token (read last follows) opens
        rcases (after token rfl).findClosing .round with leaves | ⟨m, inside, beyond, found⟩
        · have := leaves last n follows closed
          omega
        · cases (found last follows).symm.trans closed
          obtain ⟨m, rfl, -⟩ := findClosing_ok closed
          have body (other : List Char) (among : tails other) :
              groupBody (text ++ other) token.stop '(' ')' =
                .ok ((text.drop token.stop).take m) := by
            rw [groupBody_eq, found other among]
            dsimp only
            rw [Nat.add_sub_cancel_left, take_drop_append (Nat.le_of_lt inside)]
          have size : token.stop + ((text.drop token.stop).take m).length + 1 =
              token.stop + m + 1 := by
            rw [List.length_take, List.length_drop]
            omega
          obtain ⟨stated, returns⟩ := beyond.returns follows first dialect.returns
          simp only [body tail comes, body last follows, size, returns tail comes,
            returns last follows]
      · have other : (token.value != "(") = true := by simpa using opens
        simp only [other, ↓reduceIte]

/-- Members are read unless they are of another kind, or of the class itself. -/
def Dialect.reads (dialect : Dialect) (member : Header) : Bool :=
  member.keyword == dialect.memberKeyword && !dialect.typeLevel.any member.modifiers.contains

theorem callable?_front (wholeClass : Bool) {member : Header}
    (stands : Stands tails text member.stop) (follows : tails last)
    (first : ∀ tail, tails tail → tail.head? = some c)
    (keyword : member.keyword = dialect.memberKeyword)
    (list : dialect.reads member = true → ListCloses (text ++ last) member.stop text.length)
    {tail : List Char} (comes : tails tail) :
    dialect.callable? (text ++ tail) wholeClass text.length member =
      dialect.callable? (text ++ last) wholeClass text.length member := by
  unfold Dialect.callable?
  cases ofClass : dialect.typeLevel.any member.modifiers.contains with
  | true => rfl
  | false =>
      have read : dialect.reads member = true := by
        rw [Dialect.reads, keyword, ofClass, beq_self_eq_true]
        rfl
      simp only [signature?_front stands follows first (list read) comes]

/-- The members are exposed alike if each one that is read is. -/
theorem callables_congr {text other : List Char} {className : String} {wholeClass : Bool}
    {stop : Nat} {members : List Header}
    (same : ∀ member ∈ members, member.keyword = dialect.memberKeyword →
      dialect.callable? other wholeClass stop member =
        dialect.callable? text wholeClass stop member) (taken : List String) :
    callables dialect other className wholeClass stop taken members =
      callables dialect text className wholeClass stop taken members := by
  induction members generalizing taken with
  | nil => rfl
  | cons member members ih =>
      have later := ih fun next among => same next (List.mem_cons_of_mem member among)
      rw [callables, callables]
      by_cases keyword : member.keyword = dialect.memberKeyword
      · simp only [same member List.mem_cons_self keyword, later]
      · have skipped : (member.keyword != dialect.memberKeyword) = true := by simpa using keyword
        rw [if_pos skipped, if_pos skipped]
        exact later taken

end Members

/-! ## Classes -/

/-- Literals that start between the two offsets are as long in the other text. This is asked of
literals without an end of their own, such as a stray apostrophe, which is one only if no other
apostrophe stands before the end of its line. -/
def LiteralsStay (text other : List Char) (pos stop : Nat) : Prop :=
  ∀ token ∈ tokens text pos text.length, token.kind = .literal → token.start < stop →
    ¬ ClosedLiteral token.value.toList →
      literalLength (other.drop token.start) = literalLength (text.drop token.start)

/-- Either of two texts, behind a closing brace. -/
def BraceThen (more rest tail : List Char) : Prop :=
  tail = '\x7d' :: more ∨ tail = '\x7d' :: rest

section Class

variable {dialect : Dialect} {before more rest : List Char} {pos start : Nat}

theorem BraceThen.head? {tail : List Char} (either : BraceThen more rest tail) :
    tail.head? = some '\x7d' := by
  rcases either with rfl | rfl <;> rfl

/-- From the name of a class to the brace that closes its body the text is a front. -/
theorem stands_of_class (plain : backtick ∉ before ++ '\x7d' :: more)
    (opens : (opening (before ++ '\x7d' :: more) pos).body = some start)
    (closes : findClosing (before ++ '\x7d' :: more) start '\x7b' '\x7d' = .ok before.length)
    (literals : '\'' ∈ before.drop pos →
      LiteralsStay (before ++ '\x7d' :: more) (before ++ '\x7d' :: rest) pos before.length) :
    Stands (BraceThen more rest) before pos := by
  obtain ⟨front, toBody⟩ := tokens_of_opening plain opens
  have braces : IsDelimiter '\x7b' ∧ IsDelimiter '\x7d' := by
    unfold IsDelimiter
    decide
  obtain ⟨body, brace, after, toBrace, ends⟩ :=
    exists_token_of_findClosing plain braces.1 braces.2 (by decide) closes
  rw [toBrace, ← List.append_assoc] at toBody
  obtain ⟨-, order⟩ := read_of_tokens toBody
  refine stands_of_tokens plain (List.cons_ne_nil _ _) (fun tail either => either.head?) toBody
    ends fun token member literal unclosed tail either => ?_
  obtain ⟨inside, next, beyond, read⟩ := order token member
  rw [ends] at inside
  have bounds := nextToken_bounds read
  rcases either with rfl | rfl
  · rfl
  · by_cases apostrophe : '\'' ∈ before.drop pos
    · have among : token ∈ tokens (before ++ '\x7d' :: more) pos
          (before ++ '\x7d' :: more).length := by
        rw [toBody]
        exact List.mem_append_left _ member
      exact literals apostrophe token among literal (by omega) unclosed
    · refine literalLength_of_free read literal inside ?_ rest
      rw [List.mem_append, List.mem_singleton]
      rintro (later | brace)
      · have further : pos ≤ token.start := Nat.le_trans beyond bounds.1
        exact apostrophe ((List.drop_subset_drop_left before further) later)
      · cases brace

theorem entity?_behind (plain : backtick ∉ before ++ '\x7d' :: more) (file : Option RawText)
    {header : Header}
    (opens : (opening (before ++ '\x7d' :: more) header.stop).body = some start)
    (closes : findClosing (before ++ '\x7d' :: more) start '\x7b' '\x7d' = .ok before.length)
    (literals : '\'' ∈ before.drop header.stop → LiteralsStay (before ++ '\x7d' :: more)
      (before ++ '\x7d' :: rest) header.stop before.length)
    (lists : ∀ member ∈ headers dialect (before ++ '\x7d' :: more) start before.length true,
      dialect.reads member = true →
        ListCloses (before ++ '\x7d' :: more) member.stop before.length) :
    findClosing (before ++ '\x7d' :: rest) start '\x7b' '\x7d' = .ok before.length ∧
      entity? dialect (before ++ '\x7d' :: rest) file header =
        entity? dialect (before ++ '\x7d' :: more) file header := by
  have known : BraceThen more rest ('\x7d' :: more) := .inl rfl
  have other : BraceThen more rest ('\x7d' :: rest) := .inr rfl
  obtain ⟨m, length, index⟩ := findClosing_ok closes
  have stands := stands_of_class plain opens closes literals
  obtain ⟨body, same⟩ := stands.opening known opens (by omega)
  have closed := body.findClosing_end .curly known other closes
  obtain ⟨members, found, inside⟩ :=
    @sameHeaders dialect _ _ _ true known (Walk.start start) body
  refine ⟨closed, ?_⟩
  have knownMembers : headers dialect (before ++ '\x7d' :: more) start before.length true =
      members := found _ known
  have otherMembers : headers dialect (before ++ '\x7d' :: rest) start before.length true =
      members := found _ other
  rw [knownMembers] at lists
  have exposed (wholeClass : Bool) := @callables_congr dialect (before ++ '\x7d' :: more)
    (before ++ '\x7d' :: rest) header.name wholeClass before.length members
    (fun member among keyword => callable?_front wholeClass (inside member among) known
      (fun _ either => either.head?) keyword (lists member among) other) []
  simp only [entity?, same _ other, opens, bodyStop, closes, closed, Extraction.andThen,
    Extraction.found, knownMembers, otherMembers, exposed]

end Class

/-- The closing delimiter cuts the text in two. -/
theorem split_of_findClosing {text : List Char} {start stop : Nat} {opening : Option Char}
    {c : Char} (closes : findClosing text start opening (some c) = .ok stop) :
    ∃ before more, text = before ++ c :: more ∧ before.length = stop := by
  obtain ⟨n, rfl, index⟩ := findClosing_ok closes
  obtain ⟨d, same, here⟩ := closingIndex_getElem? index
  cases same
  rw [List.getElem?_drop] at here
  obtain ⟨inside, value⟩ := List.getElem?_eq_some_iff.mp here
  refine ⟨text.take (start + n), text.drop (start + n + 1), ?_,
    List.length_take_of_le (Nat.le_of_lt inside)⟩
  rw [← value, ← List.drop_eq_getElem_cons inside, List.take_append_drop]

/-- What a class becomes does not depend on the text behind the brace that closes its body. Where an
apostrophe stands in it, the literals have to end where they do, and the parameter list of each
member that is read has to be closed in the body. -/
theorem entity?_own_text {dialect : Dialect} {text : List Char} (plain : backtick ∉ text)
    (file : Option RawText) {header : Header} {start stop : Nat}
    (opens : (opening text header.stop).body = some start)
    (closes : findClosing text start '\x7b' '\x7d' = .ok stop)
    (lists : ∀ member ∈ headers dialect text start stop true, dialect.reads member = true →
      ListCloses text member.stop stop)
    {rest : List Char}
    (literals : '\'' ∈ (text.take stop).drop header.stop →
      LiteralsStay text (text.take (stop + 1) ++ rest) header.stop stop) :
    findClosing (text.take (stop + 1) ++ rest) start '\x7b' '\x7d' = .ok stop ∧
      entity? dialect (text.take (stop + 1) ++ rest) file header =
        entity? dialect text file header := by
  obtain ⟨before, more, rfl, rfl⟩ := split_of_findClosing closes
  have known : (before ++ '\x7d' :: more).take (before.length + 1) ++ rest =
      before ++ '\x7d' :: rest := by
    rw [List.take_length_add_append, List.take_succ_cons, List.take_zero, List.append_assoc]
    rfl
  rw [known, List.take_left] at literals
  rw [known]
  exact entity?_behind plain file opens closes literals lists

theorem entity?_own_text_apostrophe :
    let text := "class A \x7b @NativeFunction fun f(c: Char = '\x7d') \x7b\x7d \x7d ' ".toList
    let rest := " // it's\nclass B \x7b".toList
    let header : Header := ⟨"class", "A", [], [], 0, 7⟩
    findClosing (text.take 51 ++ rest) 9 '\x7b' '\x7d' = .ok 50 ∧
      entity? .kotlin (text.take 51 ++ rest) none header = entity? .kotlin text none header := by
  intro text rest header
  obtain ⟨plain, opens, closes, members, list, closed, literals⟩ :
      backtick ∉ text ∧ (opening text header.stop).body = some 9 ∧
        findClosing text 9 '\x7b' '\x7d' = .ok 50 ∧
        headers .kotlin text 9 50 true = [⟨"fun", "f", ["NativeFunction"], [], 26, 31⟩] ∧
        nextToken text 31 50 = some ⟨.symbol, "(", 31, 32⟩ ∧
        findClosing text 32 '(' ')' = .ok 45 ∧
        ∀ token ∈ tokens text header.stop text.length, token.kind = .literal → token.start < 50 →
          literalLength ((text.take 51 ++ rest).drop token.start) =
            literalLength (text.drop token.start) := by
    decide +kernel
  refine entity?_own_text plain none opens closes ?_
    fun _ token member literal inside _ => literals token member literal inside
  rw [members]
  intro member only _ token read _
  cases List.mem_singleton.mp only
  cases list.symm.trans read
  exact ⟨45, closed, by decide⟩

/-- Without the condition on literals the text behind the brace has a part in it: it decides whether
an apostrophe of the class opens a literal. Here the comment in a literal becomes one. -/
theorem entity?_stray_apostrophe :
    let text := ("class A \x7b '/*$\x7b'\\(\x7d' @NativeFunction fun f() \x7b\x7d */ \x7d" ++
      "\n)\n").toList
    let other := text.take 52 ++ " ' ) ' \x7d \n".toList
    let header : Header := ⟨"class", "A", [], [], 0, 7⟩
    backtick ∉ text ∧ header ∈ headers .kotlin text 0 text.length false ∧
      (opening text header.stop).body = some 9 ∧
      findClosing text 9 '\x7b' '\x7d' = .ok 51 ∧ findClosing other 9 '\x7b' '\x7d' = .ok 51 ∧
      (entity? .kotlin text none header).result =
        .ok (some ⟨"A", [⟨.call, "f", "Unit", []⟩], .android⟩) ∧
      (entity? .kotlin other none header).result = .ok none := by
  decide +kernel

end DartBindings.Declaration
