import DartBindings.Markup.Document
import Mathlib.Data.Nat.Digits.Defs

/-!
How documents are written. A document of this grammar has no type declaration, no namespaces, no
instructions and no literal sections; its values may hold any characters, by themselves as far as
they can stand there, or by references. Each document denotes an element.
-/

set_option autoImplicit false

namespace DartBindings.Markup

/-! ## Characters -/

/-- The two ways to write a digit. -/
def writtenDigits (digit : Nat) : List Char :=
  [Nat.digitChar digit, (Nat.digitChar digit).toUpper]

/-- The digits to a base of at most sixteen, the letters among them in either case, of a number. -/
def IsNumeral (base : Nat) (text : List Char) (n : Nat) : Prop :=
  ∃ digits : List Nat, digits ≠ [] ∧ (∀ digit ∈ digits, digit < base) ∧
    List.Forall₂ (fun c digit => c ∈ writtenDigits digit) text digits ∧
    Nat.ofDigits base digits.reverse = n

/-- What stands between the ampersand and the semicolon of a reference to a character: its name,
or a number sign and its number. -/
inductive Refers : List Char → Char → Prop where
  | name {name : String} {c : Char} : (name, c) ∈ predefined → Refers name.toList c
  | decimal {text : List Char} {c : Char} : isMarkupChar c = true → IsNumeral 10 text c.toNat →
      Refers ('#' :: text) c
  | hexadecimal {text : List Char} {c : Char} : isMarkupChar c = true →
      IsNumeral 16 text c.toNat → Refers ('#' :: 'x' :: text) c

/-- The characters that a text stands for, each by itself, if it can be plain there, or by a
reference. Plain spaces and line breaks are blanks. -/
inductive Spells (isPlain : Char → Bool) : List Char → List Char → Prop where
  | nil : Spells isPlain [] []
  | plain {c : Char} {text value : List Char} : isPlain c = true → Spells isPlain text value →
      Spells isPlain (c :: text) ((if isSpace c then ' ' else c) :: value)
  | reference {name : List Char} {c : Char} {text value : List Char} : Refers name c →
      Spells isPlain text value → Spells isPlain ('&' :: (name ++ ';' :: text)) (c :: value)

/-- A character that can stand in a value between such quotes. -/
def isValueChar (quote c : Char) : Bool :=
  c != '<' && c != '&' && c != '\r' && c != quote

/-- A character that can stand between tags. -/
def isDataChar (c : Char) : Bool :=
  c != '<' && c != '&'

/-- A text that can stand between tags, whatever it stands for. -/
structure IsData (text : List Char) : Prop where
  spells : ∃ value, Spells isDataChar text value
  apart : ¬ sectionEnd <:+: text

def IsSpaces (text : List Char) : Prop :=
  ∀ c ∈ text, isSpace c = true

/-! ## Tags -/

/-- An attribute with the spaces before it and around its equals sign. -/
structure AttributeText where
  before : List Char
  name : List Char
  beforeSign : List Char
  afterSign : List Char
  quote : Char
  content : List Char
  value : List Char

namespace AttributeText

/-- The attribute without the spaces before it. -/
def body (field : AttributeText) : List Char :=
  field.name ++ (field.beforeSign ++
    '=' :: (field.afterSign ++ field.quote :: (field.content ++ [field.quote])))

def text (field : AttributeText) : List Char :=
  field.before ++ field.body

/-- The attribute as it is cut out of a tag. -/
def written (field : AttributeText) : WrittenAttribute :=
  ⟨⟨none, field.name⟩, field.content⟩

structure IsWellFormed (field : AttributeText) : Prop where
  before : IsSpaces field.before
  apart : field.before ≠ []
  name : isName field.name = true
  plain : field.name ≠ declarationName
  beforeSign : IsSpaces field.beforeSign
  afterSign : IsSpaces field.afterSign
  quote : field.quote = '"' ∨ field.quote = '\''
  value : Spells (isValueChar field.quote) field.content field.value

end AttributeText

/-- What a tag holds, with the spaces at its end. -/
structure TagText where
  name : List Char
  attributes : List AttributeText
  after : List Char

namespace TagText

/-- What comes after the name. -/
def later (tag : TagText) : List Char :=
  tag.attributes.flatMap AttributeText.text ++ tag.after

def text (tag : TagText) : List Char :=
  tag.name ++ tag.later

structure IsWellFormed (tag : TagText) : Prop where
  name : isName tag.name = true
  attributes : ∀ field ∈ tag.attributes, field.IsWellFormed
  distinct : (tag.attributes.map AttributeText.name).Nodup
  after : IsSpaces tag.after

/-- The element with this tag and these elements directly in it. -/
def element (tag : TagText) (children : List Element) : Element where
  name := String.ofList tag.name
  attributes := tag.attributes.map fun field =>
    (String.ofList field.name, String.ofList field.value)
  children := children

end TagText

/-! ## Content -/

/-- What stands between two tags: texts with comments and elements between them. An element may be
written with one tag if there is nothing in it. -/
inductive Content where
  | last (text : List Char)
  | comment (before words : List Char) (after : Content)
  | element (before : List Char) (tag : TagText) (inner : Content) (closing : List Char)
      (after : Content)
  | empty (before : List Char) (tag : TagText) (after : Content)

namespace Content

def text : Content → List Char
  | .last text => text
  | .comment before words after =>
    before ++ '<' :: '!' :: '-' :: '-' :: (words ++ '-' :: '-' :: '>' :: after.text)
  | .element before tag inner closing after =>
    before ++ '<' :: (tag.text ++ '>' :: (inner.text ++
      '<' :: '/' :: (tag.name ++ closing ++ '>' :: after.text)))
  | .empty before tag after => before ++ '<' :: (tag.text ++ '/' :: '>' :: after.text)

/-- The elements that are not inside another one. -/
def elements : Content → List Element
  | .last _ => []
  | .comment _ _ after => after.elements
  | .element _ tag inner _ after => tag.element inner.elements :: after.elements
  | .empty _ tag after => tag.element [] :: after.elements

/-- Two dashes are not in a comment, nor is one at its end. -/
structure IsComment (words : List Char) : Prop where
  inside : ¬ ['-', '-'] <:+: words
  atEnd : words.getLast? ≠ some '-'

def IsWellFormed : Content → Prop
  | .last text => IsData text
  | .comment before words after => IsData before ∧ IsComment words ∧ after.IsWellFormed
  | .element before tag inner closing after =>
    IsData before ∧ tag.IsWellFormed ∧ inner.IsWellFormed ∧ IsSpaces closing ∧ after.IsWellFormed
  | .empty before tag after => IsData before ∧ tag.IsWellFormed ∧ after.IsWellFormed

/-- There are only spaces around the elements. -/
def IsOuter : Content → Prop
  | .last text => IsSpaces text
  | .comment before _ after => IsSpaces before ∧ after.IsOuter
  | .element before _ _ _ after => IsSpaces before ∧ after.IsOuter
  | .empty before _ after => IsSpaces before ∧ after.IsOuter

end Content

/-! ## Documents -/

/-- A heading states a version, and may state the encoding UTF-8 and whether the document stands
alone. It is written on one line. -/
structure IsHeading (heading : TagText) : Prop where
  wellFormed : heading.IsWellFormed
  name : heading.name = ['x', 'm', 'l']
  content : ∀ field ∈ heading.attributes, field.content.all isHeadingChar = true
  fields : ∃ version encoding answer later,
    heading.attributes.map (fun field => (String.ofList field.name, String.ofList field.content)) =
      ("version", version) :: later ∧
    later.Sublist [("encoding", encoding), ("standalone", answer)] ∧
    (encoding = "utf-8" ∨ encoding = "UTF-8") ∧ (answer = "yes" ∨ answer = "no")
  line : '\n' ∉ heading.text

structure DocumentText where
  heading : Option TagText
  content : Content
  root : Element

namespace DocumentText

def text (document : DocumentText) : List Char :=
  (match document.heading with
    | none => []
    | some heading => '<' :: '?' :: (heading.text ++ ['?', '>'])) ++ document.content.text

structure IsWellFormed (document : DocumentText) : Prop where
  heading : ∀ heading ∈ document.heading, IsHeading heading
  content : document.content.IsWellFormed
  outer : document.content.IsOuter
  root : document.content.elements = [document.root]
  chars : ∀ c ∈ document.text, isMarkupChar c = true

end DocumentText

end DartBindings.Markup
