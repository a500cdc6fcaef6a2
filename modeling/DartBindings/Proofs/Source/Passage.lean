import DartBindings.Proofs.Source.Nested
import DartBindings.Proofs.Source.Token
import Mathlib.Data.List.Chain

/-!
Passages: the texts of parameter lists and result types, from any token on. Every group that
starts in a passage ends in it, so a reader that skips a group stays inside. An arrow closes an
angle too many for such a reader, which ends the group early but never late.
-/

set_option autoImplicit false

namespace DartBindings.Source

open Text

/-! ## Tight texts -/

/-- Neither a blank nor a parenthesis comes right after a word. -/
def Tight (text : List Char) : Prop :=
  List.IsChain (fun c d => isWordChar c = true → d ≠ ' ' ∧ d ≠ '(') text

theorem tight_nil : Tight [] := List.IsChain.nil

theorem tight_word {word : List Char} (chars : ∀ c ∈ word, isWordChar c = true) : Tight word := by
  induction word with
  | nil => exact tight_nil
  | cons c word ih =>
      refine List.isChain_cons.mpr ⟨?_, ih fun d member => chars d (List.mem_cons_of_mem _ member)⟩
      intro d first _
      have inside := chars d (List.mem_cons_of_mem _ (List.mem_of_mem_head? first))
      exact ⟨ne_of_class inside (by decide), ne_of_class inside (by decide)⟩

theorem Tight.cons {c : Char} {text : List Char} (tight : Tight text)
    (other : isWordChar c = false) : Tight (c :: text) := by
  refine List.isChain_cons.mpr ⟨fun d _ word => ?_, tight⟩
  rw [other] at word
  cases word

theorem Tight.append_cons {c : Char} {first last : List Char} (before : Tight first)
    (after : Tight (c :: last)) (apart : c ≠ ' ' ∧ c ≠ '(') : Tight (first ++ c :: last) := by
  refine List.isChain_append.mpr ⟨before, after, ?_⟩
  intro b _ d next _
  rw [List.head?_cons, Option.mem_some_iff] at next
  exact next ▸ apart

theorem Tight.of_append {first last : List Char} (tight : Tight (first ++ last)) : Tight last :=
  tight.suffix (List.suffix_append first last)

/-! ## Groups that are closed -/

/-- The text closes the group in which it stands, if up to `depth` levels of it are open. -/
def EndsGroup (opening closing : Char) (depth : Nat) (text : List Char) : Prop :=
  ∀ level, 0 < level → level ≤ depth → ∀ after, ∃ n, n < text.length ∧
    closingIndex (some opening) (some closing) level (text ++ after) = some n

section EndsGroup

variable {opening closing : Char} {depth : Nat} {text : List Char}

theorem endsGroup_nil : EndsGroup opening closing 0 text :=
  fun _ positive bound => absurd positive (by omega)

theorem EndsGroup.append (ends : EndsGroup opening closing depth text) (more : List Char) :
    EndsGroup opening closing depth (text ++ more) := by
  intro level positive bound after
  obtain ⟨n, inside, found⟩ := ends level positive bound (more ++ after)
  rw [← List.append_assoc] at found
  exact ⟨n, by rw [List.length_append]; omega, found⟩

theorem EndsGroup.inert {run : List Char} (ends : EndsGroup opening closing depth text)
    (inert : ∀ c ∈ run, Inert (some opening) (some closing) c) :
    EndsGroup opening closing depth (run ++ text) := by
  intro level positive bound after
  obtain ⟨n, inside, found⟩ := ends level positive bound after
  refine ⟨n + run.length, ?_, ?_⟩
  · rw [List.length_append]
    omega
  · rw [List.append_assoc, closingIndex_inert inert, found, Option.map_some]

theorem EndsGroup.inert_cons {c : Char} (ends : EndsGroup opening closing depth text)
    (inert : Inert (some opening) (some closing) c) :
    EndsGroup opening closing depth (c :: text) := by
  change EndsGroup opening closing depth ([c] ++ text)
  apply ends.inert
  simpa using inert

theorem EndsGroup.cons_opening (paired : Paired opening closing)
    (ends : EndsGroup opening closing (depth + 1) text) :
    EndsGroup opening closing depth (opening :: text) := by
  intro level positive bound after
  obtain ⟨n, inside, found⟩ := ends (level + 1) (Nat.succ_pos level) (by omega) after
  have quote : isQuote opening = false := by cases paired <;> decide
  have slash : opening ≠ '/' := by cases paired <;> decide
  refine ⟨n + 1, ?_, ?_⟩
  · rw [List.length_cons]
    omega
  · rw [List.cons_append, closingIndex_opening quote (commentLength_of_ne slash _), found,
      Option.map_some]

theorem EndsGroup.cons_closing (paired : Paired opening closing)
    (ends : EndsGroup opening closing depth text) :
    EndsGroup opening closing (depth + 1) (closing :: text) := by
  intro level positive bound after
  have quote : isQuote closing = false := by cases paired <;> decide
  have slash : closing ≠ '/' := by cases paired <;> decide
  have different : some closing ≠ some opening := by cases paired <;> decide
  rw [List.cons_append, closingIndex_closing quote (commentLength_of_ne slash _) different]
  by_cases last : level ≤ 1
  · exact ⟨0, Nat.succ_pos _, if_pos last⟩
  · obtain ⟨n, inside, found⟩ := ends (level - 1) (by omega) (by omega) after
    rw [if_neg last, found, Option.map_some]
    exact ⟨n + 1, by rw [List.length_cons]; omega, rfl⟩

theorem EndsGroup.shallower (ends : EndsGroup opening closing (depth + 1) text) :
    EndsGroup opening closing depth text :=
  fun level positive bound => ends level positive (Nat.le_succ_of_le bound)

end EndsGroup

/-! ## Groups of nested texts -/

section Groups

variable {opening closing : Char}

theorem Nested.endsGroup {inside : Bool} {text : List Char} (nested : Nested inside text)
    (paired : Paired opening closing) {depth : Nat} {rest : List Char}
    (ends : EndsGroup opening closing depth rest) :
    EndsGroup opening closing depth (text ++ rest) := by
  induction nested generalizing depth rest with
  | nil => exact ends
  | @char inside c type =>
      have brackets : isTypeChar opening = false ∧ isTypeChar closing = false := by
        cases paired <;> decide
      apply ends.inert
      intro d member
      rw [List.mem_singleton.mp member]
      exact inert_of_ne (by simp [isNestedChar, type]) (ne_of_class type brackets.1)
        (ne_of_class type brackets.2)
  | blank =>
      apply ends.inert
      cases paired <;> simp [Inert, isQuote]
  | arrow =>
      rw [List.cons_append]
      apply EndsGroup.inert_cons
      · cases paired with
        | angle => exact (ends.cons_closing .angle).shallower
        | round => exact ends.inert_cons (by simp [Inert, isQuote])
        | square => exact ends.inert_cons (by simp [Inert, isQuote])
      · cases paired <;> simp [Inert, isQuote]
  | separator cut =>
      apply ends.inert
      rcases cut with rfl | rfl <;> cases paired <;> simp [Inert, isQuote]
  | append _ _ first last =>
      rw [List.append_assoc]
      exact first (last ends)
  | @group inside otherOpening otherClosing text other _ ih =>
      rw [List.cons_append, List.append_assoc]
      rcases paired.eq_or_ne other with ⟨rfl, rfl⟩ | ⟨different, apart, closed, distinct⟩
      · exact (ih (ends.cons_closing paired)).cons_opening paired
      · have nestedChars : isNestedChar otherOpening = true ∧ isNestedChar otherClosing = true := by
          cases other <;> decide
        have ends : EndsGroup opening closing depth ([otherClosing] ++ rest) := by
          apply ends.inert
          simpa using inert_of_ne nestedChars.2 closed distinct
        apply EndsGroup.inert_cons (ih ends)
        simpa using inert_of_ne nestedChars.1 different apart

/-- Every group that starts in the text ends in it. -/
def GroupsEnd (text : List Char) : Prop :=
  ∀ {opening closing}, Paired opening closing → ∀ before inner,
    text = before ++ opening :: inner → EndsGroup opening closing 1 inner

theorem groupsEnd_of_not_mem {text : List Char}
    (none : ∀ {opening closing}, Paired opening closing → opening ∉ text) : GroupsEnd text := by
  intro opening closing paired before inner split
  exact absurd (by simp [split]) (none paired)

theorem GroupsEnd.append {first last : List Char} (before : GroupsEnd first)
    (after : GroupsEnd last) : GroupsEnd (first ++ last) := by
  intro opening closing paired front inner split
  rcases List.append_eq_append_iff.mp split with ⟨middle, -, rest⟩ | ⟨middle, start, rest⟩
  · exact after paired middle inner rest
  · cases middle with
    | nil => exact after paired [] inner rest.symm
    | cons c middle =>
        rw [List.cons_append, List.cons.injEq] at rest
        obtain ⟨rfl, rfl⟩ := rest
        exact (before paired front middle start).append last

theorem GroupsEnd.of_append {first last : List Char} (groups : GroupsEnd (first ++ last)) :
    GroupsEnd last := by
  intro opening closing paired before inner split
  exact groups paired (first ++ before) inner (by rw [split, List.append_assoc])

theorem Nested.groupsEnd {inside : Bool} {text : List Char} (nested : Nested inside text) :
    GroupsEnd text := by
  induction nested with
  | nil => exact groupsEnd_of_not_mem fun _ => List.not_mem_nil
  | @char inside c type =>
      apply groupsEnd_of_not_mem
      intro opening closing paired member
      rw [← List.mem_singleton.mp member] at type
      cases paired <;> revert type <;> decide
  | blank => exact groupsEnd_of_not_mem fun paired => by cases paired <;> decide
  | arrow => exact groupsEnd_of_not_mem fun paired => by cases paired <;> decide
  | separator cut =>
      apply groupsEnd_of_not_mem
      intro opening closing paired
      rcases cut with rfl | rfl <;> cases paired <;> decide
  | append _ _ first last => exact first.append last
  | @group inside opening closing text paired nested ih =>
      have ended : GroupsEnd [closing] :=
        groupsEnd_of_not_mem fun other => by cases paired <;> cases other <;> decide
      intro first last other before inner split
      cases before with
      | nil =>
          rw [List.nil_append, List.cons.injEq] at split
          obtain ⟨rfl, rfl⟩ := split
          rcases other.eq_or_ne paired with ⟨-, rfl⟩ | ⟨different, -⟩
          · exact nested.endsGroup paired (EndsGroup.cons_closing paired endsGroup_nil)
          · exact absurd rfl different
      | cons c before =>
          rw [List.cons_append, List.cons.injEq] at split
          exact (ih.append ended) other before inner split.2

end Groups

/-! ## Tokens of nested texts -/

section Tokens

variable {text after rest : List Char} {stop pos : Nat}

theorem symbolAt_cases (c d : Char) (rest : List Char) :
    symbolAt c (d :: rest) = ⟨.symbol, [c], 1⟩ ∨
      d ≠ ' ' ∧ symbolAt c (d :: rest) = ⟨.symbol, [c, d], 2⟩ := by
  unfold symbolAt
  split
  · rename_i arrow
    cases arrow
    exact .inr ⟨by decide, rfl⟩
  · rename_i colons
    cases colons
    exact .inr ⟨by decide, rfl⟩
  · exact .inl rfl

theorem exists_word {c : Char} (word : isWordChar c = true) (others : List Char) :
    ∃ run next, c :: others = run ++ next ∧ IsWord run ∧ EndsWord next := by
  refine ⟨(c :: others).takeWhile isWordChar, (c :: others).dropWhile isWordChar,
    List.takeWhile_append_dropWhile.symm, ⟨?_, fun d => List.mem_takeWhile_imp⟩, ?_⟩
  · rw [List.takeWhile_cons_of_pos word]
    exact List.cons_ne_nil _ _
  · intro d rest left
    have first := List.head?_dropWhile_not isWordChar (c :: others)
    rw [left] at first
    simpa using first

theorem EndsWord.append {first last : List Char} (before : EndsWord first) (after : EndsWord last) :
    EndsWord (first ++ last) := by
  cases first with
  | nil => exact after
  | cons c rest => exact endsWord_cons (before c rest rfl) _

theorem isBlank_of_isNestedChar {c : Char} (nested : isNestedChar c = true) (solid : c ≠ ' ') :
    isBlank c = false := by
  simp only [isNestedChar, isTypeChar, Bool.or_eq_true, beq_iff_eq, List.contains_eq_mem,
    List.mem_cons, List.not_mem_nil, or_false, decide_eq_true_eq] at nested
  rcases nested with ((word | rfl) | rfl) | rfl | bracket
  · exact isBlank_of_isWordChar word
  · decide
  · decide
  · exact absurd rfl solid
  · rcases bracket with rfl | rfl | rfl | rfl | rfl | rfl | rfl | rfl | rfl <;> decide

/-- The characters of a token of a nested text. -/
inductive IsToken : TokenKind → List Char → Prop where
  | word {value} : IsWord value → IsToken .word value
  | symbol {value} : value ≠ [] → IsToken .symbol value

theorem IsToken.nonempty {kind : TokenKind} {value : List Char} (token : IsToken kind value) :
    value ≠ [] := by
  cases token with
  | word named => exact named.nonempty
  | symbol nonempty => exact nonempty

theorem IsToken.kind_eq {kind : TokenKind} {value : List Char} (token : IsToken kind value) :
    kind = .word ∨ kind = .symbol := by
  cases token with
  | word => exact .inl rfl
  | symbol => exact .inr rfl

/-- The token that a nested text starts with lies in it, whatever comes after the text. -/
theorem nextToken_of_isNestedChar {c d : Char} {others : List Char}
    (chars : ∀ e ∈ c :: others, isNestedChar e = true) (solid : isBlank c = false)
    (ends : isWordChar d = false)
    (apart : ∀ e ∈ (c :: others).getLast?, symbolAt e (d :: after) = ⟨.symbol, [e], 1⟩)
    (window : Window text stop pos (c :: others ++ d :: after)) :
    ∃ kind value next, c :: others = value ++ next ∧ IsToken kind value ∧
      nextToken text pos stop = some ⟨kind, String.ofList value, pos, pos + value.length⟩ := by
  have nested := chars c List.mem_cons_self
  cases word : isWordChar c with
  | true =>
      obtain ⟨run, next, whole, named, run_ends⟩ := exists_word word others
      rw [whole, List.append_assoc] at window
      exact ⟨_, run, next, whole, .word named,
        nextToken_word named (run_ends.append (endsWord_cons ends _)) window⟩
  | false =>
      have symbol : isSymbolStart c = true := by
        have ne {d : Char} (other : isNestedChar d = false) := ne_of_class nested other
        simp [isSymbolStart, solid, word, isQuote_of_isNestedChar nested,
          ne (d := backtick) (by decide), ne (d := '@') (by decide), ne (d := '/') (by decide)]
      cases others with
      | nil =>
          have read := nextToken_symbol symbol window
          rw [apart c rfl] at read
          exact ⟨_, [c], [], rfl, .symbol (by simp), read⟩
      | cons e others =>
          rw [List.cons_append, List.cons_append] at window
          have read := nextToken_symbol symbol window
          rcases symbolAt_cases c e (others ++ d :: after) with single | ⟨-, double⟩
          · exact ⟨_, [c], e :: others, rfl, .symbol (by simp), by rw [read, single]; rfl⟩
          · exact ⟨_, [c, e], others, rfl, .symbol (by simp), by rw [read, double]; rfl⟩

/-- The next token at a nested text is one of the text, after blanks if there are any, or the one
after the text. -/
theorem nextToken_nested {d : Char} (chars : ∀ c ∈ rest, isNestedChar c = true)
    (ends : isWordChar d = false)
    (apart : ∀ c ∈ rest.getLast?, symbolAt c (d :: after) = ⟨.symbol, [c], 1⟩)
    (window : Window text stop pos (rest ++ d :: after)) :
    nextToken text pos stop = nextToken text (pos + rest.length) stop ∨
      ∃ blanks kind value next, rest = blanks ++ (value ++ next) ∧ (∀ c ∈ blanks, c = ' ') ∧
        IsToken kind value ∧ nextToken text pos stop =
          some ⟨kind, String.ofList value, pos + blanks.length,
            pos + blanks.length + value.length⟩ := by
  induction rest generalizing pos with
  | nil => exact .inl rfl
  | cons c others ih =>
      cases blank : isBlank c with
      | false =>
          obtain ⟨kind, value, next, split, token, read⟩ :=
            nextToken_of_isNestedChar chars blank ends apart window
          exact .inr ⟨[], kind, value, next, split, by simp, token, read⟩
      | true =>
          obtain ⟨first, later⟩ := List.forall_mem_cons.mp chars
          have space : c = ' ' := by
            by_contra solid
            rw [isBlank_of_isNestedChar first solid] at blank
            cases blank
          have apart : ∀ e ∈ others.getLast?, symbolAt e (d :: after) = ⟨.symbol, [e], 1⟩ := by
            intro e last
            apply apart
            rw [List.getLast?_cons]
            exact Option.mem_some_iff.mpr (by rw [Option.mem_def.mp last]; rfl)
          have skipped := nextToken_blank blank window
          rcases ih later apart window.tail with beyond | ⟨blanks, kind, value, next, rest, found⟩
          · left
            rw [skipped, beyond, List.length_cons, Nat.add_right_comm, Nat.add_assoc]
          · right
            obtain ⟨blank, token, read⟩ := found
            refine ⟨c :: blanks, kind, value, next, by rw [rest]; rfl, ?_, token, ?_⟩
            · exact List.forall_mem_cons.mpr ⟨space, blank⟩
            · rw [skipped, read, List.length_cons, Nat.add_right_comm, Nat.add_assoc]

end Tokens

/-! ## Passages -/

/-- What a walk passes between the name of a member and its body, or the rest of it. -/
structure IsPassage (text : List Char) : Prop where
  chars : ∀ c ∈ text, isNestedChar c = true
  tight : Tight text
  groups : GroupsEnd text

theorem Nested.isPassage {inside : Bool} {text : List Char} (nested : Nested inside text)
    (tight : Tight text) : IsPassage text :=
  ⟨nested.chars, tight, nested.groupsEnd⟩

theorem IsPassage.of_append {first last : List Char} (passage : IsPassage (first ++ last)) :
    IsPassage last :=
  ⟨fun c member => passage.chars c (List.mem_append_right _ member), passage.tight.of_append,
    GroupsEnd.of_append passage.groups⟩

def emptyBody : List Char := [' ', '\x7b', '\x7d']

theorem nextToken_emptyBody {text after : List Char} {stop pos : Nat}
    (window : Window text stop pos (emptyBody ++ after)) :
    nextToken text pos stop = some ⟨.symbol, "\x7b", pos + 1, pos + 2⟩ := by
  rw [nextToken_blank (by decide) window,
    nextToken_single (by decide) (by decide) (by decide) window.tail]

/-- At this offset a passage goes on with `rest`. An empty body and then `after` follow it in
the window. -/
structure Passing (text : List Char) (stop : Nat) (after rest : List Char) (pos : Nat) : Prop where
  window : Window text stop pos (rest ++ (emptyBody ++ after))
  passage : IsPassage rest

section Passing

variable {text after rest : List Char} {stop pos : Nat}

theorem Passing.of_append (first : List Char) {last : List Char}
    (passing : Passing text stop after (first ++ last) pos) :
    Passing text stop after last (pos + first.length) := by
  have window := passing.window
  rw [List.append_assoc] at window
  exact ⟨window.of_append first, passing.passage.of_append⟩

theorem Passing.drop (passing : Passing text stop after rest pos) {n : Nat}
    (inside : n ≤ rest.length) : Passing text stop after (rest.drop n) (pos + n) := by
  have split : Passing text stop after (rest.take n ++ rest.drop n) pos := by
    rwa [List.take_append_drop]
  have beyond := split.of_append (rest.take n)
  rwa [List.length_take, Nat.min_eq_left inside] at beyond

/-- A token of a passage, and what is left of the passage after it. -/
structure Passed (token : Token) (next : List Char) : Prop where
  kind : token.kind = .word ∨ token.kind = .symbol
  noBrace : token.value ≠ "\x7b"
  tight : token.kind = .word → ∀ c ∈ next.head?, c ≠ ' ' ∧ c ≠ '('
  groups : ∀ {opening closing}, Paired opening closing → token.value = String.ofList [opening] →
    EndsGroup opening closing 1 next

theorem ne_brace_of_nested {value next : List Char}
    (chars : ∀ c ∈ value ++ next, isNestedChar c = true) : String.ofList value ≠ "\x7b" := by
  intro same
  have brace : value = ['\x7b'] := String.ofList_injective same
  exact absurd (chars '\x7b' (by simp [brace])) (by decide)

theorem GroupsEnd.endsGroup {value next : List Char} (groups : GroupsEnd (value ++ next))
    {opening closing : Char} (paired : Paired opening closing)
    (same : String.ofList value = String.ofList [opening]) : EndsGroup opening closing 1 next := by
  have group : value = [opening] := String.ofList_injective same
  exact groups paired [] next (by rw [group]; rfl)

theorem passed_of_isToken {kind : TokenKind} {value next : List Char} {start stop : Nat}
    (token : IsToken kind value) (passage : IsPassage (value ++ next)) :
    Passed ⟨kind, String.ofList value, start, stop⟩ next := by
  refine ⟨token.kind_eq, ne_brace_of_nested passage.chars, ?_,
    fun paired => GroupsEnd.endsGroup passage.groups paired⟩
  rintro rfl c first
  cases token with
  | word named =>
      obtain ⟨-, -, meet⟩ := List.isChain_append.mp passage.tight
      have last := List.getLast_mem named.nonempty
      exact meet _ (List.getLast_mem_getLast? named.nonempty) c first (named.chars _ last)

theorem symbolAt_blank (after : List Char) :
    ∀ c ∈ rest.getLast?, symbolAt c (' ' :: after) = ⟨.symbol, [c], 1⟩ := by
  intro c _
  rcases symbolAt_cases c ' ' after with single | ⟨apart, -⟩
  · exact single
  · exact absurd rfl apart

/-- The next token at a passage is the brace of the body if nothing is left of the passage, and
otherwise one that leaves less of it. -/
theorem Passing.read (passing : Passing text stop after rest pos) :
    (∃ n, nextToken text pos stop = some ⟨.symbol, "\x7b", n, n + 1⟩ ∧
        Window text stop (n + 1) ('\x7d' :: after)) ∨
      ∃ token next, nextToken text pos stop = some token ∧ Passed token next ∧
        Passing text stop after next token.stop ∧ next.length < rest.length := by
  rcases nextToken_nested passing.passage.chars (by decide) (symbolAt_blank _) passing.window with
    beyond | ⟨blanks, kind, value, next, rfl, -, token, read⟩
  · have body := passing.window.of_append rest
    exact .inl ⟨_, beyond.trans (nextToken_emptyBody body), body.tail.tail⟩
  · have inner := passing.of_append blanks
    refine .inr ⟨_, next, read, passed_of_isToken token inner.passage, inner.of_append value, ?_⟩
    have some := List.length_pos_iff.mpr token.nonempty
    simp only [List.length_append]
    omega

/-- Right after a word of a passage no parenthesis is read. -/
theorem Passing.read_ne_parenthesis (passing : Passing text stop after rest pos)
    (apart : ∀ c ∈ rest.head?, c ≠ ' ' ∧ c ≠ '(') :
    ∃ token, nextToken text pos stop = some token ∧ token.value ≠ "(" := by
  rcases nextToken_nested passing.passage.chars (by decide) (symbolAt_blank _) passing.window with
    beyond | ⟨blanks, kind, value, next, rfl, blank, token, read⟩
  · exact ⟨_, beyond.trans (nextToken_emptyBody (passing.window.of_append rest)), by simp⟩
  · refine ⟨_, read, fun same => ?_⟩
    have value : value = ['('] := String.ofList_injective same
    cases blanks with
    | nil => exact (apart '(' (by simp [value])).2 rfl
    | cons c blanks => exact (apart c rfl).1 (blank c List.mem_cons_self)

end Passing

end DartBindings.Source
