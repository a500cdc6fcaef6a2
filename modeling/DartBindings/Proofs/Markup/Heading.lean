import DartBindings.Proofs.Markup.Document
import DartBindings.Proofs.Text.Utf8

/-!
How files are read. A document in UTF-8 is found to be one from its first bytes, and its heading is
found in them too, since it consists of ASCII.
-/

set_option autoImplicit false

namespace DartBindings.Markup

open Text

/-! ## Encodings -/

section Encodings

variable {front text rest : List Char} {c d : Char}

def IsAscii (text : List Char) : Prop :=
  ∀ c ∈ text, c.toNat < 0x80

theorem flatMap_utf8EncodeChar (ascii : IsAscii front) :
    front.flatMap String.utf8EncodeChar = front.map fun c => UInt8.ofNat c.toNat := by
  induction front with
  | nil => rfl
  | cons c front ih =>
      obtain ⟨first, others⟩ := List.forall_mem_cons.mp ascii
      rw [List.flatMap_cons, utf8EncodeChar_ascii first, ih others]
      rfl

theorem unitChars_utf8 (bytes : List UInt8) :
    Encoding.utf8.unitChars bytes = bytes.map fun byte => Char.ofNat byte.toNat := rfl

theorem toNat_ofNat_toNat (byte : UInt8) : (Char.ofNat byte.toNat).toNat = byte.toNat := by
  have small := byte.toNat_lt
  rw [Char.ofNat, dif_pos (.inl (by omega))]
  rfl

theorem unitChars_append (ascii : IsAscii front) (rest : List Char) :
    Encoding.utf8.unitChars ((front ++ rest).flatMap String.utf8EncodeChar) =
      front ++ Encoding.utf8.unitChars (rest.flatMap String.utf8EncodeChar) := by
  have same : (front.map fun c => UInt8.ofNat c.toNat).map
      (fun byte => Char.ofNat byte.toNat) = front := by
    rw [List.map_map]
    conv_rhs => rw [← List.map_id front]
    refine List.map_congr_left fun c member => Char.toNat_inj.mp ?_
    have small := ascii c member
    rw [Function.comp_apply, toNat_ofNat_toNat, UInt8.toNat_ofNat', id]
    omega
  rw [List.flatMap_append, flatMap_utf8EncodeChar ascii, unitChars_utf8, unitChars_utf8,
    List.map_append, same]

/-- The units of a text start with signs of ASCII only if the text does. -/
theorem prefix_of_unitChars (ascii : IsAscii front)
    (starts : front <+: Encoding.utf8.unitChars (text.flatMap String.utf8EncodeChar)) :
    front <+: text := by
  induction front generalizing text with
  | nil => exact List.nil_prefix
  | cons c front ih =>
      obtain ⟨first, others⟩ := List.forall_mem_cons.mp ascii
      cases text with
      | nil => exact absurd starts (by simp [Encoding.unitChars])
      | cons d text =>
          obtain ⟨lead, tail, bytes, small⟩ := exists_lead d
          rw [unitChars_utf8, List.flatMap_cons, bytes, List.cons_append, List.map_cons,
            List.cons_prefix_cons] at starts
          have lead_eq : lead.toNat = c.toNat := by
            rw [starts.1, toNat_ofNat_toNat]
          obtain rfl : c = d :=
            Char.toNat_inj.mp (lead_eq.symm.trans (small (by omega)))
          rw [utf8EncodeChar_ascii first] at bytes
          obtain ⟨-, rfl⟩ := List.cons.inj bytes
          exact List.cons_prefix_cons.mpr ⟨rfl, ih others starts.2⟩

/-- No byte after the first one shows another encoding. -/
theorem head_flatMap_utf8EncodeChar (chars : ∀ c ∈ text, c.toNat ≠ 0) :
    ∀ byte ∈ (text.flatMap String.utf8EncodeChar).head?, byte.toNat ≠ 0 := by
  cases text with
  | nil => simp
  | cons c text =>
      obtain ⟨lead, tail, bytes, small⟩ := exists_lead c
      intro byte head zero
      rw [List.flatMap_cons, bytes] at head
      cases head
      exact chars c List.mem_cons_self ((small (by omega)).symm.trans zero)

/-- The first bytes show that a document is in UTF-8. -/
theorem detect_flatMap_utf8EncodeChar (first : ∀ c ∈ text.head?, c.toNat < 0x80)
    (chars : ∀ c ∈ text, c.toNat ≠ 0) :
    Encoding.detect (text.flatMap String.utf8EncodeChar) =
      (.utf8, text.flatMap String.utf8EncodeChar) := by
  cases text with
  | nil => rfl
  | cons c rest =>
      have small : c.toNat < 0x80 := first c rfl
      obtain ⟨some, others⟩ := List.forall_mem_cons.mp chars
      have lead {byte : UInt8} (same : UInt8.ofNat c.toNat = byte) :
          byte.toNat < 0x80 ∧ byte.toNat ≠ 0 := by
        rw [← same, UInt8.toNat_ofNat']
        omega
      have next := head_flatMap_utf8EncodeChar others
      rw [List.flatMap_cons, utf8EncodeChar_ascii small, List.singleton_append]
      unfold Encoding.detect
      -- Each other encoding shows in a first byte beyond ASCII or in one of the two that is zero.
      split <;> rename_i same
      · exact absurd (lead (List.cons.inj same).1).1 (by decide)
      · exact absurd (lead (List.cons.inj same).1).1 (by decide)
      · exact absurd (lead (List.cons.inj same).1).1 (by decide)
      · exact absurd (lead (List.cons.inj same).1).2 (by decide)
      · exact absurd rfl (next 0 (by rw [(List.cons.inj same).2]; rfl))
      · rfl

theorem decode_flatMap_utf8EncodeChar (chars : ∀ c ∈ text, isMarkupChar c = true)
    (standsAlone : Bool) :
    WrittenDocument.decode .utf8 standsAlone (text.flatMap String.utf8EncodeChar) =
      .ok ⟨standsAlone, unifyLineBreaks text⟩ := by
  have decoded : Encoding.utf8.decode? (text.flatMap String.utf8EncodeChar) = some text := by
    rw [← encodeUtf8_ofList]
    exact (decodeUtf8?_encodeUtf8 _).trans (by rw [String.toList_ofList])
  rw [WrittenDocument.decode, decoded]
  simp only
  rw [if_pos (List.all_eq_true.mpr chars)]

end Encodings

/-! ## Headings -/

section Headings

variable {heading : TagText} {c : Char}

theorem toNat_lt_of_isAlphanum (alphanum : c.isAlphanum = true) : c.toNat < 0x80 := by
  have classes : (decide ('A'.val ≤ c.val ∧ c.val ≤ 'Z'.val) ||
      (decide ('a'.val ≤ c.val) && decide (c.val ≤ 'z'.val)) ||
      (decide ('0'.val ≤ c.val) && decide (c.val ≤ '9'.val))) = true := alphanum
  simp only [Bool.or_eq_true, Bool.and_eq_true, decide_eq_true_eq,
    UInt32.le_iff_toNat_le] at classes
  have code : c.val.toNat = c.toNat := rfl
  have bounds : UInt32.toNat 'Z'.val = 90 ∧ UInt32.toNat 'z'.val = 122 ∧
      UInt32.toNat '9'.val = 57 := by decide
  omega

namespace IsHeading

theorem text_eq (isHeading : IsHeading heading) :
    heading.text = 'x' :: 'm' :: 'l' :: heading.later := by
  rw [TagText.text, isHeading.name]
  rfl

/-- The attributes of a heading have three names. -/
theorem names (isHeading : IsHeading heading) {field : AttributeText}
    (among : field ∈ heading.attributes) : field.name.all isHeadingChar = true := by
  obtain ⟨version, encoding, answer, later, fields, sublist, -, -⟩ := isHeading.fields
  have known : String.ofList field.name ∈ ["version", "encoding", "standalone"] := by
    have pair := List.mem_map_of_mem (f := fun field : AttributeText =>
      (String.ofList field.name, String.ofList field.content)) among
    rw [fields] at pair
    rcases List.mem_cons.mp pair with same | within
    · simp [(Prod.mk.inj same).1]
    · have one := sublist.subset within
      simp only [List.mem_cons, Prod.mk.injEq, List.not_mem_nil, or_false] at one ⊢
      tauto
  have letters : ∀ name ∈ ["version", "encoding", "standalone"],
      name.toList.all isHeadingChar = true := by decide
  simpa using letters _ known

/-- What stands in a heading is a space, a sign of an attribute, or of the few characters of names
and values. -/
theorem chars (isHeading : IsHeading heading) (member : c ∈ heading.later) :
    isSpace c = true ∨ c ∈ ['=', '"', '\''] ∨ isHeadingChar c = true := by
  rw [TagText.later, List.mem_append, List.mem_flatMap] at member
  rcases member with ⟨field, among, inside⟩ | space
  · have proper := isHeading.wellFormed.attributes field among
    simp only [AttributeText.text, AttributeText.body, List.mem_append, List.mem_cons,
      List.not_mem_nil, or_false] at inside
    rcases inside with space | name | space | rfl | space | rfl | content | rfl
    · exact .inl (proper.before c space)
    · exact .inr (.inr (List.all_eq_true.mp (isHeading.names among) c name))
    · exact .inl (proper.beforeSign c space)
    · exact .inr (.inl (by simp))
    · exact .inl (proper.afterSign c space)
    · exact .inr (.inl (by rcases proper.quote with quote | quote <;> simp [quote]))
    · exact .inr (.inr (List.all_eq_true.mp (isHeading.content field among) c content))
    · exact .inr (.inl (by rcases proper.quote with quote | quote <;> simp [quote]))
  · exact .inl (isHeading.wellFormed.after c space)

theorem ascii (isHeading : IsHeading heading) : IsAscii heading.later := by
  intro c member
  rcases isHeading.chars member with space | sign | char
  · rcases isSpace_cases space with rfl | rfl | rfl | rfl <;> decide
  · simp only [List.mem_cons, List.not_mem_nil, or_false] at sign
    rcases sign with rfl | rfl | rfl <;> decide
  · simp only [isHeadingChar, Bool.or_eq_true, beq_iff_eq] at char
    rcases char with ((alphanum | rfl) | rfl) | rfl
    · exact toNat_lt_of_isAlphanum alphanum
    all_goals decide

theorem question_not_mem (isHeading : IsHeading heading) : '?' ∉ heading.later := by
  intro member
  rcases isHeading.chars member with space | sign | char
  · exact absurd space (by decide)
  · exact absurd sign (by decide)
  · exact absurd char (by decide)

/-- What a heading states is read; the encoding is UTF-8 if it states one. -/
theorem ofContent? (isHeading : IsHeading heading) :
    ∃ found, Heading.ofContent? heading.later = some found ∧
      ∀ name ∈ found.encoding, Encoding.declared .utf8 name = .ok .utf8 := by
  obtain ⟨version, encoding, answer, later, fields, sublist, known, settled⟩ := isHeading.fields
  have unqualified : (heading.attributes.map AttributeText.written).any
      (fun field => field.name.qualifier.isSome) = false := by
    simp [AttributeText.written]
  have content : (heading.attributes.map AttributeText.written).all
      (fun field => field.content.all isHeadingChar) = true := by
    simpa [AttributeText.written] using isHeading.content
  have values : (heading.attributes.map AttributeText.written).map
      (fun field => (String.ofList field.name.localName, String.ofList field.content)) =
        ("version", version) :: later := by
    rw [← fields, List.map_map]
    rfl
  have stated : Heading.ofContent? heading.later = Heading.ofFields? later := by
    rw [Heading.ofContent?, isHeading.wellFormed.attributes?_later]
    simp only [Option.bind_eq_bind, Option.bind_some, unqualified, content, values,
      Bool.not_true, Bool.false_eq_true, ↓reduceIte]
  have utf8 : ∀ name ∈ some encoding, Encoding.declared .utf8 name = .ok .utf8 := by
    rintro _ ⟨⟩
    rcases known with rfl | rfl <;> exact ok_of_toOption (by decide +kernel)
  have letter : encoding.toList.head?.any Char.isAlpha = true := by
    rcases known with rfl | rfl <;> decide
  rw [stated]
  -- Of the encoding and the answer each may be left out.
  rcases List.sublist_cons_iff.mp sublist with rest | ⟨_, rfl, rest⟩ <;>
    rcases List.sublist_cons_iff.mp rest with last | ⟨_, rfl, last⟩ <;>
    obtain rfl := List.sublist_nil.mp last
  · exact ⟨⟨none, false⟩, rfl, by simp⟩
  · rcases settled with rfl | rfl
    · exact ⟨⟨none, true⟩, rfl, by simp⟩
    · exact ⟨⟨none, false⟩, rfl, by simp⟩
  · exact ⟨⟨some encoding, false⟩, by rw [Heading.ofFields?, if_pos letter], utf8⟩
  · refine ⟨⟨some encoding, answer == "yes"⟩, ?_, utf8⟩
    rcases settled with rfl | rfl <;> simp [Heading.ofFields?, letter]

theorem headingContent? (isHeading : IsHeading heading) (rest : List Char) :
    headingContent? ('<' :: '?' :: (heading.text ++ '?' :: '>' :: rest)) =
      some (heading.later, heading.later.length + 7) := by
  have first : ((heading.later ++ '?' :: '>' :: rest).head?.any
      fun c => isSpace c || c == '?') = true := by
    cases inside : heading.later with
    | nil => rfl
    | cons c later =>
        have space := isHeading.wellFormed.isSpace_later c (by rw [inside]; rfl)
        simp [space]
  have found : indexOf? ['?', '>'] (heading.later ++ '?' :: '>' :: rest) =
      some heading.later.length :=
    indexOf?_append isHeading.question_not_mem ['>'] rest
  rw [isHeading.text_eq]
  simp only [List.cons_append, Markup.headingContent?, first, ↓reduceIte, found, Option.map_some,
    List.take_left]

end IsHeading

end Headings

/-! ## Files -/

section Files

variable {written : DocumentText} {heading : TagText} {content : Content} {root : Element}
  {raw : List Char} {file : String}

theorem toNat_ne_zero_of_isMarkupChar {c : Char} (char : isMarkupChar c = true) : c.toNat ≠ 0 := by
  intro zero
  have null : c = Char.ofNat 0 := Char.toNat_inj.mp zero
  exact absurd char (by rw [null]; decide)

theorem headingContent?_eq_none (apart : ¬ ['<', '?'] <+: raw) : headingContent? raw = none := by
  unfold headingContent?
  split
  · exact absurd (List.prefix_append ['<', '?'] _) apart
  · rfl

theorem ofBytes_plain (first : ∀ c ∈ raw.head?, c.toNat < 0x80)
    (chars : ∀ c ∈ raw, isMarkupChar c = true) (apart : ¬ ['<', '?'] <+: raw) :
    WrittenDocument.ofBytes (raw.flatMap String.utf8EncodeChar) =
      .ok ⟨false, unifyLineBreaks raw⟩ := by
  have found : headingContent?
      (Encoding.utf8.unitChars (raw.flatMap String.utf8EncodeChar)) = none :=
    headingContent?_eq_none fun starts =>
      apart (prefix_of_unitChars (by simp [IsAscii]) starts)
  rw [WrittenDocument.ofBytes, detect_flatMap_utf8EncodeChar first
    fun c member => toNat_ne_zero_of_isMarkupChar (chars c member)]
  simp only [found]
  exact decode_flatMap_utf8EncodeChar chars false

theorem ofBytes_heading (isHeading : IsHeading heading)
    (chars : ∀ c ∈ '<' :: '?' :: (heading.text ++ '?' :: '>' :: raw), isMarkupChar c = true) :
    ∃ standsAlone, WrittenDocument.ofBytes
      (('<' :: '?' :: (heading.text ++ '?' :: '>' :: raw)).flatMap String.utf8EncodeChar) =
        .ok ⟨standsAlone, unifyLineBreaks raw⟩ := by
  have ascii : IsAscii ('<' :: '?' :: (heading.text ++ ['?', '>'])) := by
    have signs : ∀ sign ∈ ['<', '?', 'x', 'm', 'l', '>'], sign.toNat < 0x80 := by simp
    intro c member
    simp only [isHeading.text_eq, List.mem_cons, List.mem_append, List.not_mem_nil,
      or_false] at member signs
    rcases member with sign | sign | (sign | sign | sign | inside) | sign | sign
    case inr.inr.inl.inr.inr.inr => exact isHeading.ascii c inside
    all_goals exact signs c (by simp [sign])
  have whole : '<' :: '?' :: (heading.text ++ '?' :: '>' :: raw) =
      '<' :: '?' :: (heading.text ++ ['?', '>']) ++ raw := by
    simp
  have units : Encoding.utf8.unitChars
      (('<' :: '?' :: (heading.text ++ '?' :: '>' :: raw)).flatMap String.utf8EncodeChar) =
      '<' :: '?' :: (heading.text ++ '?' :: '>' ::
        Encoding.utf8.unitChars (raw.flatMap String.utf8EncodeChar)) := by
    rw [whole, unitChars_append ascii]
    simp
  have rest : (('<' :: '?' :: (heading.text ++ '?' :: '>' :: raw)).flatMap
      String.utf8EncodeChar).drop ((heading.later.length + 7) * 1) =
      raw.flatMap String.utf8EncodeChar := by
    rw [whole, List.flatMap_append, flatMap_utf8EncodeChar ascii]
    refine List.drop_left' ?_
    simp [isHeading.text_eq]
  have decoded (standsAlone : Bool) := decode_flatMap_utf8EncodeChar
    (fun c member => chars c (by simp [member]) : ∀ c ∈ raw, _) standsAlone
  obtain ⟨read, content, utf8⟩ := isHeading.ofContent?
  refine ⟨read.standsAlone, ?_⟩
  rw [WrittenDocument.ofBytes, detect_flatMap_utf8EncodeChar (by simp)
    fun c member => toNat_ne_zero_of_isMarkupChar (chars c member)]
  simp only [units, isHeading.headingContent?, content, Encoding.unitSize, rest]
  cases stated : read.encoding with
  | none => exact decoded _
  | some name =>
      simp only [utf8 name stated]
      exact decoded _

/-- Outside the root there are spaces, comments and a bracket that is followed by no question
mark. -/
theorem Content.IsWellFormed.start (wellFormed : content.IsWellFormed) (outer : content.IsOuter)
    (some : content.elements ≠ []) :
    (∀ c ∈ content.text.head?, isSpace c = true ∨ c = '<') ∧ ¬ ['<', '?'] <+: content.text := by
  have bracket {before later : List Char} (spaces : IsSpaces before)
      (other : ¬ ['?'] <+: later) :
      (∀ c ∈ (before ++ '<' :: later).head?, isSpace c = true ∨ c = '<') ∧
        ¬ ['<', '?'] <+: before ++ '<' :: later := by
    refine ⟨fun c first => head_cases spaces first, fun starts => ?_⟩
    cases before with
    | nil => exact other (List.cons_prefix_cons.mp starts).2
    | cons c before =>
        rw [List.cons_append, List.cons_prefix_cons] at starts
        exact absurd (spaces c List.mem_cons_self) (by rw [← starts.1]; decide)
  have named {text : List Char} (starts : StartsName text) : ¬ ['?'] <+: text := by
    obtain ⟨c, rest, rfl, start⟩ := starts
    rw [List.cons_prefix_cons]
    exact fun same => ne_of_class start (by decide) same.1.symm
  cases content with
  | last text => exact absurd rfl some
  | comment before words after => exact bracket outer.1 (by simp)
  | element before tag inner closing after =>
      exact bracket outer.1 (named (wellFormed.2.1.startsName _))
  | empty before tag after => exact bracket outer.1 (named (wellFormed.2.1.startsName _))

theorem DocumentText.IsWellFormed.ofBytes (wellFormed : written.IsWellFormed)
    (same : unifyLineBreaks file.toList = written.text) :
    ∃ standsAlone, WrittenDocument.ofBytes (encodeUtf8 file) =
      .ok ⟨standsAlone, written.content.text⟩ := by
  have chars : ∀ c ∈ file.toList, isMarkupChar c = true := by
    intro c member
    rcases mem_unifyLineBreaks member with rfl | kept
    · decide
    · exact wellFormed.chars c (same ▸ kept)
  rw [encodeUtf8_eq]
  cases stated : written.heading with
  | none =>
      have text : written.text = written.content.text := by
        rw [DocumentText.text, stated, List.nil_append]
      obtain ⟨start, apart⟩ := wellFormed.content.start wellFormed.outer
        (by rw [wellFormed.root]; exact List.cons_ne_nil _ _)
      have first : ∀ c ∈ file.toList.head?, c.toNat < 0x80 := by
        intro c head
        rcases head_unifyLineBreaks head with rfl | kept
        · decide
        · rcases start c (by rwa [same, text] at kept) with space | rfl
          · rcases isSpace_cases space with rfl | rfl | rfl | rfl <;> decide
          · decide
      refine ⟨false, ?_⟩
      rw [ofBytes_plain first chars, same, text]
      rintro ⟨later, starts⟩
      refine apart ⟨unifyLineBreaks later, ?_⟩
      rw [← text, ← same, ← starts]
      simp [unifyLineBreaks_cons]
  | some heading =>
      have isHeading := wellFormed.heading heading stated
      have text : written.text = '<' :: '?' :: (heading.text ++ ['?', '>']) ++
          written.content.text := by
        rw [DocumentText.text, stated]
      have line : '\n' ∉ '<' :: '?' :: (heading.text ++ ['?', '>']) := by
        simp [isHeading.line]
      obtain ⟨raw, split, rest⟩ := exists_of_unifyLineBreaks line (same.trans text)
      have whole : file.toList = '<' :: '?' :: (heading.text ++ '?' :: '>' :: raw) := by
        simpa using split
      rw [whole, ← rest]
      exact ofBytes_heading isHeading (whole ▸ chars)

/-- A file that holds a document of the grammar is read as the element that the document denotes. -/
theorem DocumentText.IsWellFormed.document (wellFormed : written.IsWellFormed)
    (same : unifyLineBreaks file.toList = written.text) :
    document (encodeUtf8 file) = .ok written.root := by
  obtain ⟨standsAlone, found⟩ := wellFormed.ofBytes same
  rw [Markup.document, found]
  simp only [Bind.bind, Except.bind, wellFormed.content.root? wellFormed.outer wellFormed.root]
  rfl

end Files

end DartBindings.Markup
