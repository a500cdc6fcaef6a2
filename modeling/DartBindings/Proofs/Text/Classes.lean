import DartBindings.Source.Pieces
import DartBindings.Text.Alnum

/-!
What a character of a class is not. Blanks and word characters are told from quotes, brackets
and separators by evaluation: a character in a class differs from each one outside of it.
-/

set_option autoImplicit false

namespace DartBindings.Text

open Source

theorem ne_of_class {p : Char → Bool} {c d : Char} (member : p c = true) (other : p d = false) :
    c ≠ d := by
  intro same
  rw [same, other] at member
  cases member

theorem isQuote_of_class {p : Char → Bool} {c : Char} (member : p c = true)
    (double : p '"' = false) (single : p '\'' = false) : isQuote c = false := by
  have noDouble := ne_of_class member double
  have noSingle := ne_of_class member single
  simp [isQuote, noDouble, noSingle]

theorem isQuote_of_isBlank {c : Char} (blank : isBlank c = true) : isQuote c = false :=
  isQuote_of_class blank (by decide) (by decide)

theorem isQuote_of_isWordChar {c : Char} (word : isWordChar c = true) : isQuote c = false :=
  isQuote_of_class word (by decide) (by decide)

def blankCodes : List Nat :=
  List.range' 9 5 ++ List.range' 28 5 ++ [0x85, 0xA0, 0x1680] ++ List.range' 0x2000 11
    ++ [0x2028, 0x2029, 0x202F, 0x205F, 0x3000]

theorem mem_blankCodes {c : Char} (blank : isBlank c = true) : c.toNat ∈ blankCodes := by
  simp only [isBlank, Bool.or_eq_true, Bool.and_eq_true, decide_eq_true_eq, beq_iff_eq] at blank
  simp only [blankCodes, List.mem_append, List.mem_range'_1, List.mem_cons, List.not_mem_nil,
    or_false]
  omega

theorem isWordChar_of_mem_blankCodes :
    ∀ code ∈ blankCodes, isWordChar (Char.ofNat code) = false := by
  decide +kernel

theorem isBlank_of_isWordChar {c : Char} (word : isWordChar c = true) : isBlank c = false := by
  cases blank : isBlank c with
  | false => rfl
  | true =>
      have other := isWordChar_of_mem_blankCodes c.toNat (mem_blankCodes blank)
      rw [Char.ofNat_toNat, word] at other
      cases other

theorem isWordChar_of_isBlank {c : Char} (blank : isBlank c = true) : isWordChar c = false := by
  cases word : isWordChar c with
  | false => rfl
  | true =>
      rw [isBlank_of_isWordChar word] at blank
      cases blank

end DartBindings.Text
