import DartBindings.Text.Unicode
import Mathlib.Data.List.Basic

/-!
The bytes of a text. They are read back as the text, and a character of ASCII is its own byte. Of
the characters only those of line breaks are changed.
-/

set_option autoImplicit false

namespace DartBindings.Text

/-! ## Sequences -/

section Sequences

variable {low high lead first second third : UInt8} {rest : List UInt8}

/-- A byte after the lead of a sequence. -/
def IsContinuation (byte : UInt8) : Prop :=
  0x80 ≤ byte ∧ byte ≤ 0xBF

theorem continuation_zero (low high : UInt8) (code : Nat) (rest : List UInt8) :
    continuation 0 low high code rest = (some code, 0) := by
  cases rest <;> rfl

theorem continuation_succ (count code : Nat) (rest : List UInt8)
    (fits : low ≤ first ∧ first ≤ high) :
    continuation (count + 1) low high code (first :: rest) =
      ((continuation count 0x80 0xBF (code * 64 + first.toNat % 64) rest).1,
        (continuation count 0x80 0xBF (code * 64 + first.toNat % 64) rest).2 + 1) := by
  have inside : (low ≤ first && first ≤ high) = true := by
    simpa using fits
  rw [continuation, if_pos inside]

/-- Which sequences start with a byte. -/
theorem sequenceAt_eq (lead : UInt8) (rest : List UInt8) :
    sequenceAt lead rest =
      if lead.toNat < 0x80 then (some lead.toNat, 0)
      else if lead.toNat < 0xC2 then (none, 0)
      else if lead.toNat < 0xE0 then continuation 1 0x80 0xBF (lead.toNat % 32) rest
      else if lead.toNat = 0xE0 then continuation 2 0xA0 0xBF 0 rest
      else if lead.toNat = 0xED then continuation 2 0x80 0x9F 13 rest
      else if lead.toNat < 0xF0 then continuation 2 0x80 0xBF (lead.toNat % 16) rest
      else if lead.toNat = 0xF0 then continuation 3 0x90 0xBF 0 rest
      else if lead.toNat < 0xF4 then continuation 3 0x80 0xBF (lead.toNat % 8) rest
      else if lead.toNat = 0xF4 then continuation 3 0x80 0x8F 4 rest
      else (none, 0) := by
  simp only [sequenceAt, UInt8.lt_iff_toNat_lt, ← UInt8.toNat_inj]
  rfl

theorem sequenceAt_one (small : lead.toNat < 0x80) :
    sequenceAt lead rest = (some lead.toNat, 0) := by
  rw [sequenceAt_eq, if_pos small]

theorem sequenceAt_two (range : 0xC2 ≤ lead.toNat ∧ lead.toNat < 0xE0)
    (next : IsContinuation first) :
    sequenceAt lead (first :: rest) = (some (lead.toNat % 32 * 64 + first.toNat % 64), 1) := by
  rw [sequenceAt_eq, if_neg (by omega), if_neg (by omega), if_pos range.2,
    continuation_succ 0 _ _ next, continuation_zero]

theorem sequenceAt_three (range : 0xE0 ≤ lead.toNat ∧ lead.toNat < 0xF0)
    (next : IsContinuation first) (last : IsContinuation second)
    (lower : lead.toNat = 0xE0 → 0xA0 ≤ first)
    (upper : lead.toNat = 0xED → first ≤ 0x9F) :
    sequenceAt lead (first :: second :: rest) =
      (some ((lead.toNat % 16 * 64 + first.toNat % 64) * 64 + second.toNat % 64), 2) := by
  rw [sequenceAt_eq, if_neg (by omega), if_neg (by omega), if_neg (by omega)]
  split
  · rename_i least
    rw [continuation_succ 1 _ _ ⟨lower least, next.2⟩, continuation_succ 0 _ _ last,
      continuation_zero, least]
  · split
    · rename_i greatest
      rw [continuation_succ 1 _ _ ⟨next.1, upper greatest⟩, continuation_succ 0 _ _ last,
        continuation_zero, greatest]
    · rw [if_pos range.2, continuation_succ 1 _ _ next, continuation_succ 0 _ _ last,
        continuation_zero]

theorem sequenceAt_four (range : 0xF0 ≤ lead.toNat ∧ lead.toNat ≤ 0xF4)
    (next : IsContinuation first) (inner : IsContinuation second) (last : IsContinuation third)
    (lower : lead.toNat = 0xF0 → 0x90 ≤ first)
    (upper : lead.toNat = 0xF4 → first ≤ 0x8F) :
    sequenceAt lead (first :: second :: third :: rest) =
      (some (((lead.toNat % 8 * 64 + first.toNat % 64) * 64 + second.toNat % 64) * 64 +
        third.toNat % 64), 3) := by
  have rest (code : Nat) {low high : UInt8}
      (fits : low ≤ first ∧ first ≤ high) :
      continuation 3 low high code (first :: second :: third :: rest) =
        (some (((code * 64 + first.toNat % 64) * 64 + second.toNat % 64) * 64 +
          third.toNat % 64), 3) := by
    rw [continuation_succ 2 _ _ fits, continuation_succ 1 _ _ inner, continuation_succ 0 _ _ last,
      continuation_zero]
  rw [sequenceAt_eq, if_neg (by omega), if_neg (by omega), if_neg (by omega), if_neg (by omega),
    if_neg (by omega), if_neg (by omega)]
  split
  · rename_i least
    rw [rest 0 ⟨lower least, next.2⟩, least]
  · split
    · rw [rest _ next]
    · have greatest : lead.toNat = 0xF4 := by omega
      rw [if_pos greatest, rest 4 ⟨next.1, upper greatest⟩, greatest]

end Sequences

/-! ## Characters -/

/-- The bytes of a character are read as the character, whatever stands behind them. -/
theorem sequenceAt_char (c : Char) (rest : List UInt8) :
    ∃ lead tail, String.utf8EncodeChar c = lead :: tail ∧
      sequenceAt lead (tail ++ rest) = (some c.toNat, tail.length) := by
  have valid : c.toNat < 0xD800 ∨ 0xDFFF < c.toNat ∧ c.toNat < 0x110000 := c.valid
  have code : c.val.toNat = c.toNat := rfl
  rw [String.utf8EncodeChar, code]
  generalize c.toNat = v at valid
  split
  · refine ⟨_, _, rfl, ?_⟩
    rw [sequenceAt_one (by rw [UInt8.toNat_ofNat']; omega), UInt8.toNat_ofNat']
    exact congrArg₂ Prod.mk (congrArg some (by omega)) rfl
  · split
    · refine ⟨_, _, rfl, ?_⟩
      simp only [List.cons_append, List.nil_append]
      rw [sequenceAt_two]
      · simp only [UInt8.toNat_ofNat']
        exact congrArg₂ Prod.mk (congrArg some (by omega)) rfl
      · simp only [UInt8.toNat_ofNat']
        omega
      · simp only [IsContinuation, UInt8.le_iff_toNat_le, UInt8.toNat_ofNat', UInt8.reduceToNat]
        omega
    · split
      · refine ⟨_, _, rfl, ?_⟩
        simp only [List.cons_append, List.nil_append]
        rw [sequenceAt_three]
        · simp only [UInt8.toNat_ofNat']
          exact congrArg₂ Prod.mk (congrArg some (by omega)) rfl
        all_goals
          simp only [IsContinuation, UInt8.le_iff_toNat_le, UInt8.toNat_ofNat', UInt8.reduceToNat]
          omega
      · refine ⟨_, _, rfl, ?_⟩
        simp only [List.cons_append, List.nil_append]
        rw [sequenceAt_four]
        · simp only [UInt8.toNat_ofNat']
          exact congrArg₂ Prod.mk (congrArg some (by omega)) rfl
        all_goals
          simp only [IsContinuation, UInt8.le_iff_toNat_le, UInt8.toNat_ofNat', UInt8.reduceToNat]
          omega

/-- The first byte of a character; one of ASCII is the character itself. -/
theorem exists_lead (c : Char) :
    ∃ lead tail, String.utf8EncodeChar c = lead :: tail ∧
      (lead.toNat < 0x80 → lead.toNat = c.toNat) := by
  obtain ⟨lead, tail, bytes, read⟩ := sequenceAt_char c []
  refine ⟨lead, tail, bytes, fun small => ?_⟩
  rw [sequenceAt_one small] at read
  exact Option.some.inj (Prod.mk.inj read).1

theorem utf8EncodeChar_ascii {c : Char} (ascii : c.toNat < 0x80) :
    String.utf8EncodeChar c = [UInt8.ofNat c.toNat] := by
  have code : c.val.toNat = c.toNat := rfl
  rw [String.utf8EncodeChar, code]
  exact if_pos (Nat.le_of_lt_succ ascii)

theorem scalars_char (c : Char) (rest : List UInt8) :
    scalars (String.utf8EncodeChar c ++ rest) = some c :: scalars rest := by
  obtain ⟨lead, tail, bytes, read⟩ := sequenceAt_char c rest
  rw [bytes, List.cons_append, scalars, read]
  simp only [Option.map_some, List.drop_left, Char.ofNat_toNat]

theorem byteArray_toList_loop (bytes : ByteArray) (i : Nat) (found : List UInt8) :
    ByteArray.toList.loop bytes i found = found.reverse ++ bytes.data.toList.drop i := by
  fun_induction ByteArray.toList.loop bytes i found with
  | case1 i found inside ih =>
      have here : i < bytes.data.toList.length := by simpa using inside
      rw [ih, List.drop_eq_getElem_cons here]
      simp [ByteArray.get!, inside]
  | case2 i found past =>
      rw [List.drop_eq_nil_of_le (by simpa using Nat.le_of_not_lt past), List.append_nil]

theorem encodeUtf8_ofList (text : List Char) :
    encodeUtf8 (String.ofList text) = text.flatMap String.utf8EncodeChar := by
  rw [encodeUtf8, String.toUTF8_eq_toByteArray, String.toByteArray_ofList, List.utf8Encode,
    ByteArray.toList, byteArray_toList_loop, List.toList_data_toByteArray]
  rfl

theorem encodeUtf8_eq (text : String) :
    encodeUtf8 text = text.toList.flatMap String.utf8EncodeChar := by
  rw [← encodeUtf8_ofList, String.ofList_toList]

/-- The bytes of a text are read back as the text. -/
theorem decodeUtf8?_encodeUtf8 (text : String) :
    decodeUtf8? (encodeUtf8 text) = some text.toList := by
  have whole : scalars (encodeUtf8 text) = text.toList.map some := by
    rw [encodeUtf8_eq]
    induction text.toList with
    | nil => rw [List.flatMap_nil, scalars, List.map_nil]
    | cons c rest ih => rw [List.flatMap_cons, scalars_char, ih, List.map_cons]
  rw [decodeUtf8?, whole]
  induction text.toList with
  | nil => rfl
  | cons c rest ih => simp [List.mapM_cons, ih]

/-! ## Line breaks -/

section LineBreaks

variable {raw front rest : List Char} {c : Char}

theorem mem_unifyLineBreaks (member : c ∈ raw) : c = '\r' ∨ c ∈ unifyLineBreaks raw := by
  fun_induction unifyLineBreaks raw with
  | case1 rest ih =>
      simp only [List.mem_cons] at member ⊢
      tauto
  | case2 rest _ ih =>
      simp only [List.mem_cons] at member ⊢
      tauto
  | case3 d rest _ _ ih =>
      simp only [List.mem_cons] at member ⊢
      tauto
  | case4 => cases member

theorem unifyLineBreaks_cons (other : c ≠ '\r') (raw : List Char) :
    unifyLineBreaks (c :: raw) = c :: unifyLineBreaks raw := by
  rw [unifyLineBreaks]
  · exact fun _ same => absurd same other
  · exact other

theorem unifyLineBreaks_eq_self (apart : '\r' ∉ raw) : unifyLineBreaks raw = raw := by
  induction raw with
  | nil => rfl
  | cons c raw ih =>
      rw [List.mem_cons, not_or] at apart
      rw [unifyLineBreaks_cons (Ne.symm apart.1), ih apart.2]

theorem head_unifyLineBreaks (first : c ∈ raw.head?) :
    c = '\r' ∨ c ∈ (unifyLineBreaks raw).head? := by
  cases raw with
  | nil => cases first
  | cons d raw =>
      cases first
      by_cases carriage : c = '\r'
      · exact .inl carriage
      · rw [unifyLineBreaks_cons carriage]
        exact .inr rfl

/-- A character that is no line break is not changed. -/
theorem exists_of_unifyLineBreaks_cons (apart : c ≠ '\n') (same : unifyLineBreaks raw = c :: rest) :
    ∃ later, raw = c :: later ∧ unifyLineBreaks later = rest := by
  unfold unifyLineBreaks at same
  split at same
  · exact absurd (List.cons.inj same).1.symm apart
  · exact absurd (List.cons.inj same).1.symm apart
  · obtain ⟨rfl, rfl⟩ := List.cons.inj same
    exact ⟨_, rfl, rfl⟩
  · cases same

theorem exists_of_unifyLineBreaks (apart : '\n' ∉ front)
    (same : unifyLineBreaks raw = front ++ rest) :
    ∃ later, raw = front ++ later ∧ unifyLineBreaks later = rest := by
  induction front generalizing raw with
  | nil => exact ⟨raw, rfl, same⟩
  | cons c front ih =>
      rw [List.mem_cons, not_or] at apart
      obtain ⟨later, rfl, next⟩ := exists_of_unifyLineBreaks_cons (Ne.symm apart.1) same
      obtain ⟨last, rfl, final⟩ := ih apart.2 next
      exact ⟨last, rfl, final⟩

end LineBreaks

end DartBindings.Text
