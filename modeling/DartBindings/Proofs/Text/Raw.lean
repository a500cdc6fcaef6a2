import DartBindings.Text.Raw
import Mathlib.Data.List.Basic

/-!
Raw texts against texts of characters only. A raw text is one of these exactly if it has an
encoding, and no two raw texts have the same codes.
-/

set_option autoImplicit false

namespace DartBindings.Text

theorem CodePoint.code_injective : Function.Injective CodePoint.code := by
  -- The codes of stray bytes are among those that characters leave out.
  have apart (c : Char) (byte : Fin 128) : c.toNat ≠ 0xDC80 + byte.val := by
    intro same
    have valid : c.toNat < 0xD800 ∨ 0xDFFF < c.toNat ∧ c.toNat < 0x110000 := c.valid
    have bounded := byte.isLt
    omega
  intro point other same
  cases point with
  | char c =>
      cases other with
      | char d => exact congrArg _ (Char.toNat_inj.mp same)
      | stray byte => exact absurd same (apart c byte)
  | stray byte =>
      cases other with
      | char d => exact absurd same.symm (apart d byte)
      | stray other => exact congrArg _ (Fin.ext (Nat.add_left_cancel same))

theorem RawText.codes_injective : Function.Injective RawText.codes :=
  List.map_injective_iff.mpr CodePoint.code_injective

/-- A raw text without stray bytes. -/
def RawText.IsText (raw : RawText) : Prop :=
  ∀ point ∈ raw, point.char?.isSome = true

instance (raw : RawText) : Decidable raw.IsText :=
  inferInstanceAs (Decidable (∀ point ∈ raw, point.char?.isSome = true))

section Characters

variable {raw other : RawText} {text : String}

theorem mapM_char?_eq_some_iff {chars : List Char} :
    raw.mapM CodePoint.char? = some chars ↔ raw = chars.map .char := by
  induction raw generalizing chars with
  | nil => cases chars <;> simp
  | cons point raw ih =>
      cases point with
      | stray byte => cases chars <;> simp [CodePoint.char?]
      | char c =>
          rw [List.mapM_cons]
          cases chars with
          | nil => simp [CodePoint.char?, Option.bind_eq_some_iff]
          | cons d chars =>
              simp [CodePoint.char?, Option.bind_eq_some_iff, ih, and_comm]

/-- A raw text has an encoding if and only if it holds characters only. -/
theorem RawText.toString_eq_ok_iff : raw.toString = .ok text ↔ raw = RawText.ofString text := by
  rw [RawText.ofString, ← mapM_char?_eq_some_iff, RawText.toString]
  cases raw.mapM CodePoint.char? with
  | none => simp
  | some chars => simp [← String.toList_inj]

theorem RawText.toString_ofString (text : String) :
    (RawText.ofString text).toString = .ok text :=
  RawText.toString_eq_ok_iff.mpr rfl

theorem RawText.isText_ofString (text : String) : (RawText.ofString text).IsText := by
  intro point member
  obtain ⟨c, -, rfl⟩ := List.mem_map.mp member
  rfl

theorem RawText.isText_iff : raw.IsText ↔ ∃ text, raw = RawText.ofString text := by
  constructor
  · intro plain
    refine ⟨String.ofList (raw.filterMap CodePoint.char?), ?_⟩
    rw [RawText.ofString, String.toList_ofList]
    induction raw with
    | nil => rfl
    | cons point raw ih =>
        have first := plain point List.mem_cons_self
        have later := ih fun other member => plain other (List.mem_cons_of_mem _ member)
        cases point with
        | stray byte => cases first
        | char c => exact congrArg _ later
  · rintro ⟨text, rfl⟩
    exact RawText.isText_ofString text

theorem RawText.isText_append :
    RawText.IsText (raw ++ other) ↔ raw.IsText ∧ other.IsText := by
  simp only [RawText.IsText, List.mem_append, or_imp, forall_and]

theorem RawText.encode_eq_ok_iff {bytes : List UInt8} :
    raw.encode = .ok bytes ↔ ∃ text, raw = RawText.ofString text ∧ bytes = encodeUtf8 text := by
  simp only [← RawText.toString_eq_ok_iff, RawText.encode]
  cases raw.toString with
  | error error => simp [Except.map]
  | ok text => simp [Except.map, eq_comm]

theorem RawText.encode_isOk_iff : (∃ bytes, raw.encode = .ok bytes) ↔ raw.IsText := by
  simp only [RawText.encode_eq_ok_iff, RawText.isText_iff]
  exact ⟨fun ⟨_, text, same, _⟩ => ⟨text, same⟩, fun ⟨text, same⟩ => ⟨_, text, same, rfl⟩⟩

theorem RawText.ofString_append (first second : String) :
    RawText.ofString (first ++ second) = RawText.ofString first ++ RawText.ofString second := by
  simp [RawText.ofString]

end Characters

end DartBindings.Text
