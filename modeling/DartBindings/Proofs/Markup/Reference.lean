import DartBindings.Proofs.Markup.Grammar
import DartBindings.Proofs.Text.Classes

/-!
How references are read. A reference to a character is read as this character, so a text of the
grammar is read as what it spells, be it the value of an attribute or a text between tags.
-/

set_option autoImplicit false

namespace DartBindings.Markup

open Text

/-! ## Numerals -/

section Numerals

variable {base n : Nat} {text : List Char} {c : Char}

theorem digitValue?_writtenDigits (known : base = 10 ∨ base = 16) {digit : Nat}
    (inside : digit < base) (written : c ∈ writtenDigits digit) :
    digitValue? base c = some digit := by
  have ten : ∀ digit < 10,
      (writtenDigits digit).all (digitValue? 10 · == some digit) = true := by decide
  have sixteen : ∀ digit < 16,
      (writtenDigits digit).all (digitValue? 16 · == some digit) = true := by decide
  rcases known with rfl | rfl
  · exact beq_iff_eq.mp (List.all_eq_true.mp (ten digit inside) c written)
  · exact beq_iff_eq.mp (List.all_eq_true.mp (sixteen digit inside) c written)

theorem IsNumeral.numeral? (numeral : IsNumeral base text n) (known : base = 10 ∨ base = 16) :
    numeral? base text = some n := by
  obtain ⟨digits, some, inside, written, rfl⟩ := numeral
  have values : text.mapM (digitValue? base) = .some digits := by
    clear some
    induction written with
    | nil => rfl
    | cons here _ ih =>
        rw [List.forall_mem_cons] at inside
        simp [List.mapM_cons, digitValue?_writtenDigits known inside.1 here, ih inside.2]
  have nonempty : text.isEmpty = false := by
    cases written with
    | nil => exact absurd rfl some
    | cons => rfl
  rw [Text.numeral?, nonempty, values, Nat.ofDigits_eq_foldr, List.foldr_reverse]
  simp [Nat.add_comm, Nat.mul_comm]

theorem IsNumeral.mem_writtenDigits (numeral : IsNumeral base text n) (member : c ∈ text) :
    ∃ digit < base, c ∈ writtenDigits digit := by
  obtain ⟨digits, -, inside, written, -⟩ := numeral
  induction written with
  | nil => cases member
  | cons here _ ih =>
      rw [List.forall_mem_cons] at inside
      rcases List.mem_cons.mp member with rfl | later
      · exact ⟨_, inside.1, here⟩
      · exact ih later inside.2

theorem IsNumeral.isAlphanum (numeral : IsNumeral base text n) (known : base = 10 ∨ base = 16)
    (member : c ∈ text) : c.isAlphanum = true := by
  have alphanum : ∀ digit < 16, (writtenDigits digit).all Char.isAlphanum = true := by decide
  obtain ⟨digit, inside, written⟩ := numeral.mem_writtenDigits member
  exact List.all_eq_true.mp (alphanum digit (by omega)) c written

theorem numberedChar?_of_isNumeral (numeral : IsNumeral base text c.toNat)
    (known : base = 10 ∨ base = 16) (legal : isMarkupChar c = true) :
    numberedChar? base text = some c := by
  have valid : c.toNat.isValidChar := c.valid
  simp [numberedChar?, numeral.numeral? known, charOf?, valid, legal]

end Numerals

/-! ## References -/

section References

variable {name text value rest : List Char} {c : Char} {isPlain : Char → Bool}

/-- A character that may occur in a reference. -/
def isReferenceChar (c : Char) : Bool :=
  c.isAlphanum || c == '#' || c == '&' || c == ';'

theorem Refers.chars (refers : Refers name c) :
    ∀ d ∈ name, d.isAlphanum = true ∨ d = '#' := by
  intro d member
  cases refers with
  | name known =>
      have letters : predefined.all (fun entry => entry.1.toList.all Char.isAlphanum) = true := by
        decide
      exact .inl (List.all_eq_true.mp (List.all_eq_true.mp letters _ known) d member)
  | decimal legal numeral =>
      rcases List.mem_cons.mp member with rfl | digit
      · exact .inr rfl
      · exact .inl (numeral.isAlphanum (.inl rfl) digit)
  | hexadecimal legal numeral =>
      rcases List.mem_cons.mp member with rfl | later
      · exact .inr rfl
      · rcases List.mem_cons.mp later with rfl | digit
        · exact .inl (by decide)
        · exact .inl (numeral.isAlphanum (.inr rfl) digit)

/-- A sign that is neither plain nor part of a reference does not occur. -/
theorem Spells.not_mem (spells : Spells isPlain text value) {sign : Char}
    (plain : isPlain sign = false) (outside : isReferenceChar sign = false) : sign ∉ text := by
  induction spells with
  | nil => exact List.not_mem_nil
  | plain here _ ih =>
      rw [List.mem_cons, not_or]
      exact ⟨(ne_of_class here plain).symm, ih⟩
  | reference refers _ ih =>
      simp only [isReferenceChar, Bool.or_eq_false_iff, beq_eq_false_iff_ne] at outside
      obtain ⟨⟨⟨noAlphanum, noNumber⟩, noAmpersand⟩, noSemicolon⟩ := outside
      simp only [List.mem_cons, List.mem_append, not_or]
      refine ⟨noAmpersand, fun inside => ?_, noSemicolon, ih⟩
      rcases refers.chars sign inside with alphanum | rfl
      · rw [noAlphanum] at alphanum
        cases alphanum
      · exact noNumber rfl

theorem Refers.referenceName? (refers : Refers name c) (rest : List Char) :
    referenceName? (name ++ ';' :: rest) = some name := by
  have whole : (name ++ ';' :: rest).takeWhile (· != ';') = name := by
    rw [List.takeWhile_append_of_pos]
    · simp
    · intro d member
      rcases refers.chars d member with alphanum | rfl
      · simpa using ne_of_class alphanum (by decide : Char.isAlphanum ';' = false)
      · decide
  rw [Markup.referenceName?, whole]
  simp

theorem Refers.referent? (refers : Refers name c) (entities : Entities) :
    entities.referent? name = some (.char c) := by
  cases refers with
  | name known =>
      simp only [predefined, List.mem_cons, Prod.mk.injEq, List.not_mem_nil, or_false] at known
      rcases known with ⟨rfl, rfl⟩ | ⟨rfl, rfl⟩ | ⟨rfl, rfl⟩ | ⟨rfl, rfl⟩ | ⟨rfl, rfl⟩ <;> rfl
  | @decimal text _ legal numeral =>
      have plain : ∀ digits, text ≠ 'x' :: digits := by
        rintro digits rfl
        obtain ⟨digit, inside, written⟩ := numeral.mem_writtenDigits List.mem_cons_self
        have other : ∀ digit < 10, 'x' ∉ writtenDigits digit := by decide
        exact other digit inside written
      rw [Entities.referent?, numberedChar?_of_isNumeral numeral (.inl rfl) legal, Option.map_some]
      simpa using plain
  | hexadecimal legal numeral =>
      rw [Entities.referent?, numberedChar?_of_isNumeral numeral (.inr rfl) legal, Option.map_some]

/-! ## Texts -/

/-- A reference is passed over whole. -/
theorem drop_reference (name rest : List Char) :
    (name ++ ';' :: rest).drop (name.length + 1) = rest := by
  rw [List.drop_append, List.drop_of_length_le (Nat.le_succ _)]
  simp

/-- A text is read as the value that it spells. -/
theorem Spells.valueWith (spells : Spells isPlain text value) (noBracket : isPlain '<' = false)
    (noReference : isPlain '&' = false) (noReturn : isPlain '\r' = false) (entities : Entities)
    (inner : List Char → Option (List Char)) : entities.valueWith inner text = some value := by
  induction spells with
  | nil => rw [Entities.valueWith]
  | plain here _ ih =>
      rw [Entities.valueWith, ih]
      · rfl
      · exact ne_of_class here noBracket
      · exact ne_of_class here noReference
      · exact fun _ same => absurd same (ne_of_class here noReturn)
  | reference refers _ ih =>
      rw [Entities.valueWith, refers.referenceName?, Option.bind_eq_bind, Option.bind_some,
        drop_reference, ih]
      simp [refers.referent?]

theorem isSpaces_nil : IsSpaces [] :=
  fun _ member => absurd member List.not_mem_nil

theorem isData_nil : IsData [] :=
  ⟨⟨[], .nil⟩, by simp [sectionEnd]⟩

/-- The references in a text between tags stand for characters only. -/
theorem IsData.referredPieces? (data : IsData text) (entities : Entities)
    (inner : List Char → Option (List Piece)) :
    referredPieces? entities inner text = some [] := by
  obtain ⟨⟨value, spells⟩, -⟩ := data
  induction spells with
  | nil => rw [Markup.referredPieces?]
  | plain here _ ih =>
      rw [Markup.referredPieces?, ih]
      exact ne_of_class here (by decide)
  | reference refers _ ih =>
      rw [Markup.referredPieces?, refers.referenceName?, Option.bind_eq_bind, Option.bind_some,
        drop_reference, ih]
      simp [refers.referent?]

end References

end DartBindings.Markup
