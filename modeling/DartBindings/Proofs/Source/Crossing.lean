import DartBindings.Proofs.Source.Listed
import DartBindings.Proofs.Source.Passage

/-!
Crossings: what is left of a list between angles when a search for its end stopped too early. The
angle of an arrow is such an end, so of a list with an arrow something is always left. No
parenthesis comes after a word of it, and its groups end before the angle that closes it.
-/

set_option autoImplicit false

namespace DartBindings.Source

open Text

/-! ## Arrows end angles -/

/-- A search for the end of an angle that crosses an arrow stops early. -/
theorem Nested.endsGroup_arrow {inside : Bool} {text : List Char} (nested : Nested inside text)
    (arrow : '-' ∈ text) {depth : Nat} {rest : List Char} (ends : EndsGroup '<' '>' depth rest) :
    EndsGroup '<' '>' (depth + 1) (text ++ rest) := by
  induction nested generalizing depth rest with
  | nil => cases arrow
  | char type => exact absurd type (by rw [← List.mem_singleton.mp arrow]; decide)
  | blank => simp at arrow
  | arrow =>
      rw [List.cons_append]
      exact (ends.cons_closing .angle).inert_cons (by simp [Inert, isQuote])
  | separator cut =>
      rcases cut with rfl | rfl <;> simp at arrow
  | append before after first last =>
      rw [List.append_assoc]
      rcases List.mem_append.mp arrow with early | late
      · exact first early (after.endsGroup .angle ends)
      · exact before.endsGroup .angle (last late ends)
  | @group inside opening closing text paired nested ih =>
      have inner : '-' ∈ text := by
        have marks : '-' ≠ opening ∧ '-' ≠ closing := by cases paired <;> decide
        simpa [marks] using arrow
      rw [List.cons_append, List.append_assoc, List.singleton_append]
      cases paired with
      | angle => exact (ih inner (ends.cons_closing .angle)).cons_opening .angle
      | round =>
          have closed := @EndsGroup.inert_cons _ _ _ _ ')' ends (by simp [Inert, isQuote])
          exact (ih inner closed).inert_cons (by simp [Inert, isQuote])
      | square =>
          have closed := @EndsGroup.inert_cons _ _ _ _ ']' ends (by simp [Inert, isQuote])
          exact (ih inner closed).inert_cons (by simp [Inert, isQuote])

theorem Nested.getLast?_ne_dash {inside : Bool} {text : List Char} (nested : Nested inside text) :
    text.getLast? ≠ some '-' := by
  induction nested with
  | nil => simp
  | char type =>
      rintro ⟨⟩
      exact absurd type (by decide)
  | blank => simp
  | arrow => simp
  | separator cut => rcases cut with rfl | rfl <;> simp
  | append _ _ first last =>
      rw [List.getLast?_append, Ne, Option.or_eq_some_iff]
      rintro (dash | ⟨-, dash⟩)
      · exact last dash
      · exact first dash
  | @group inside opening closing text paired _ _ =>
      rw [← List.cons_append, List.getLast?_concat]
      cases paired <;> decide

/-! ## Loose texts -/

/-- The text starts with something other than a parenthesis, behind blanks or not. -/
def StartsPlain (text : List Char) : Prop :=
  (text.filter (· ≠ ' ')).head? ≠ some '('

theorem startsPlain_nil : StartsPlain [] := nofun

theorem startsPlain_cons {c : Char} {text : List Char} :
    StartsPlain (c :: text) ↔ c ≠ '(' ∧ (c = ' ' → StartsPlain text) := by
  by_cases blank : c = ' '
  · subst blank
    simp [StartsPlain]
  · simp [StartsPlain, blank]

theorem StartsPlain.of_blanks {blanks text : List Char} (plain : StartsPlain (blanks ++ text))
    (blank : ∀ c ∈ blanks, c = ' ') : StartsPlain text := by
  induction blanks with
  | nil => exact plain
  | cons c blanks ih =>
      obtain ⟨first, others⟩ := List.forall_mem_cons.mp blank
      exact ih ((startsPlain_cons.mp plain).2 first) others

/-- No parenthesis comes after a word, not even after blanks. -/
def Loose (text : List Char) : Prop :=
  List.IsChain (fun c d => isWordChar c = true → d ≠ '(') (text.filter (· ≠ ' '))

theorem Loose.append {first last : List Char} (before : Loose first) (after : Loose last)
    (plain : StartsPlain last) : Loose (first ++ last) := by
  rw [Loose, List.filter_append]
  refine List.isChain_append.mpr ⟨before, after, ?_⟩
  rintro b - d next - rfl
  exact plain next

theorem Loose.of_append {first last : List Char} (loose : Loose (first ++ last)) : Loose last := by
  rw [Loose, List.filter_append] at loose
  exact List.IsChain.suffix loose (List.suffix_append _ _)

theorem loose_cons {c : Char} {text : List Char} (loose : Loose text)
    (apart : isWordChar c = true → StartsPlain text) : Loose (c :: text) := by
  by_cases blank : c = ' '
  · rw [Loose, List.filter_cons_of_neg (by simpa using blank)]
    exact loose
  · rw [Loose, List.filter_cons_of_pos (by simpa using blank)]
    refine List.isChain_cons.mpr ⟨?_, loose⟩
    rintro d next word rfl
    exact apart word next

theorem loose_listed {pieces : List (List Char)} (loose : ∀ piece ∈ pieces, Loose piece) :
    Loose (listed ',' pieces) := by
  induction pieces with
  | nil => exact List.IsChain.nil
  | cons piece pieces ih =>
      obtain ⟨first, others⟩ := List.forall_mem_cons.mp loose
      cases pieces with
      | nil =>
          rw [listed_singleton]
          exact first
      | cons next pieces =>
          have later := loose_cons (loose_cons (c := ' ') (ih others) nofun) (c := ',') nofun
          rw [listed_cons_cons]
          exact first.append later (startsPlain_cons.mpr ⟨by decide, nofun⟩)

theorem Tight.loose {text : List Char} (tight : Tight text) : Loose text := by
  induction text with
  | nil => exact List.IsChain.nil
  | cons c text ih =>
      obtain ⟨next, later⟩ := List.isChain_cons.mp tight
      apply loose_cons (ih later)
      intro word
      cases text with
      | nil => exact startsPlain_nil
      | cons d text =>
          obtain ⟨solid, round⟩ := next d rfl word
          exact startsPlain_cons.mpr ⟨round, fun blank => absurd blank solid⟩

/-- What comes after a word of a loose text. -/
theorem Loose.startsPlain {word next : List Char} (loose : Loose (word ++ next))
    (named : IsWord word) : StartsPlain next := by
  have solid : word.filter (· ≠ ' ') = word := by
    refine List.filter_eq_self.mpr fun c among => ?_
    simpa using ne_of_class (named.chars c among) (d := ' ') (by decide)
  rw [Loose, List.filter_append, solid] at loose
  obtain ⟨-, -, meet⟩ := List.isChain_append.mp loose
  intro first
  have last := named.chars _ (List.getLast_mem named.nonempty)
  exact meet _ (List.getLast_mem_getLast? named.nonempty) '(' first last rfl

/-! ## What is ahead -/

/-- At this offset a loose text goes on with `rest`, and then `follow` comes, in the window. -/
structure Ahead (text : List Char) (stop : Nat) (follow rest : List Char) (pos : Nat) : Prop where
  window : Window text stop pos (rest ++ follow)
  chars : ∀ c ∈ rest, isNestedChar c = true
  loose : Loose rest
  groups : GroupsEnd rest
  single : ∀ c ∈ rest.getLast?, symbolAt c follow = ⟨.symbol, [c], 1⟩

/-- A token of what is ahead, and what is left of it after the token. -/
structure Crossed (token : Token) (next : List Char) : Prop where
  kind : token.kind = .word ∨ token.kind = .symbol
  noBrace : token.value ≠ "\x7b"
  plain : token.kind = .word → StartsPlain next
  groups : ∀ {opening closing}, Paired opening closing → token.value = String.ofList [opening] →
    EndsGroup opening closing 1 next

section Ahead

variable {text follow rest : List Char} {stop pos : Nat}

theorem Ahead.of_append (first : List Char) {last : List Char}
    (ahead : Ahead text stop follow (first ++ last) pos) :
    Ahead text stop follow last (pos + first.length) := by
  have window := ahead.window
  rw [List.append_assoc] at window
  refine ⟨window.of_append first, fun c member => ahead.chars c (List.mem_append_right _ member),
    ahead.loose.of_append, GroupsEnd.of_append ahead.groups, fun c final => ?_⟩
  apply ahead.single
  rw [List.getLast?_append, Option.mem_def.mp final]
  rfl

theorem Ahead.drop (ahead : Ahead text stop follow rest pos) {n : Nat}
    (inside : n ≤ rest.length) : Ahead text stop follow (rest.drop n) (pos + n) := by
  have split : Ahead text stop follow (rest.take n ++ rest.drop n) pos := by
    rwa [List.take_append_drop]
  have beyond := split.of_append (rest.take n)
  rwa [List.length_take, Nat.min_eq_left inside] at beyond

/-- The next token is the one after all that is ahead, or one that leaves less of it. -/
theorem Ahead.read {d : Char} {after : List Char} (ahead : Ahead text stop (d :: after) rest pos)
    (ends : isWordChar d = false) :
    nextToken text pos stop = nextToken text (pos + rest.length) stop ∨
      ∃ token next, nextToken text pos stop = some token ∧ Crossed token next ∧
        Ahead text stop (d :: after) next token.stop ∧ next.length < rest.length := by
  rcases nextToken_nested ahead.chars ends ahead.single ahead.window with
    beyond | ⟨blanks, kind, value, next, rfl, -, token, read⟩
  · exact .inl beyond
  · have inner := ahead.of_append blanks
    refine .inr ⟨_, next, read, ⟨token.kind_eq, ne_brace_of_nested inner.chars, ?_,
      fun paired => GroupsEnd.endsGroup inner.groups paired⟩, inner.of_append value, ?_⟩
    · rintro rfl
      cases token with
      | word named => exact inner.loose.startsPlain named
    · have some := List.length_pos_iff.mpr token.nonempty
      simp only [List.length_append]
      omega

/-- Right after a word no parenthesis is read. -/
theorem Ahead.read_ne_parenthesis {d : Char} {after : List Char}
    (ahead : Ahead text stop (d :: after) rest pos) (ends : isWordChar d = false)
    (plain : StartsPlain rest) {last : Token}
    (read : nextToken text (pos + rest.length) stop = some last) (other : last.value ≠ "(") :
    ∃ token, nextToken text pos stop = some token ∧ token.value ≠ "(" := by
  rcases nextToken_nested ahead.chars ends ahead.single ahead.window with
    beyond | ⟨blanks, kind, value, next, rfl, blank, -, found⟩
  · exact ⟨_, beyond.trans read, other⟩
  · refine ⟨_, found, fun same => ?_⟩
    have value : value = ['('] := String.ofList_injective same
    rw [value] at plain
    exact (startsPlain_cons.mp (plain.of_blanks blank)).1 rfl

end Ahead

/-! ## Crossings -/

/-- At this offset a list goes on with `rest` up to the angle that closes it. Then `after` comes,
and nothing else in the window. -/
structure Crossing (text : List Char) (stop : Nat) (after rest : List Char) (pos : Nat) : Prop where
  window : Window text stop pos (rest ++ '>' :: after)
  chars : ∀ c ∈ rest, isNestedChar c = true
  loose : Loose rest
  groups : GroupsEnd rest
  noDash : rest.getLast? ≠ some '-'

section Crossing

variable {text after rest : List Char} {stop pos : Nat}

/-- The last character of a crossing is no symbol together with the angle. -/
theorem crossing_iff_ahead :
    Crossing text stop after rest pos ↔ Ahead text stop ('>' :: after) rest pos := by
  constructor
  · intro crossing
    refine ⟨crossing.window, crossing.chars, crossing.loose, crossing.groups, fun c last => ?_⟩
    unfold symbolAt
    split
    · exact absurd last crossing.noDash
    · simp_all
    · rfl
  · intro ahead
    refine ⟨ahead.window, ahead.chars, ahead.loose, ahead.groups, fun dash => ?_⟩
    cases ahead.single '-' dash

theorem Crossing.drop (crossing : Crossing text stop after rest pos) {n : Nat}
    (inside : n ≤ rest.length) : Crossing text stop after (rest.drop n) (pos + n) :=
  crossing_iff_ahead.mpr ((crossing_iff_ahead.mp crossing).drop inside)

theorem Crossing.nextToken_angle (crossing : Crossing text stop after rest pos) :
    nextToken text (pos + rest.length) stop =
      some ⟨.symbol, ">", pos + rest.length, pos + rest.length + 1⟩ :=
  nextToken_single (by decide) (by decide) (by decide) (crossing.window.of_append rest)

/-- The next token of a crossing is the angle that closes the list, or one of the crossing. -/
theorem Crossing.read (crossing : Crossing text stop after rest pos) :
    (∃ n, nextToken text pos stop = some ⟨.symbol, ">", n, n + 1⟩ ∧
        Window text stop (n + 1) after) ∨
      ∃ token next, nextToken text pos stop = some token ∧ Crossed token next ∧
        Crossing text stop after next token.stop ∧ next.length < rest.length := by
  rcases (crossing_iff_ahead.mp crossing).read (by decide) with
    beyond | ⟨token, next, read, crossed, later, shorter⟩
  · exact .inl ⟨_, beyond.trans crossing.nextToken_angle, (crossing.window.of_append rest).tail⟩
  · exact .inr ⟨token, next, read, crossed, crossing_iff_ahead.mpr later, shorter⟩

/-- Right after a word of a crossing no parenthesis is read. -/
theorem Crossing.read_ne_parenthesis (crossing : Crossing text stop after rest pos)
    (plain : StartsPlain rest) :
    ∃ token, nextToken text pos stop = some token ∧ token.value ≠ "(" :=
  (crossing_iff_ahead.mp crossing).read_ne_parenthesis (by decide) plain crossing.nextToken_angle
    (by simp)

end Crossing

end DartBindings.Source
