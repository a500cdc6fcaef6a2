/-!
Patterns: regular expressions over the characters of a name, with groups that can be referred to,
assertions about what stands ahead and behind, and repetitions that prefer many or few copies.
-/

set_option autoImplicit false

namespace DartBindings.Regex

/-! ## Flags -/

/-- What can be turned on for a pattern, or for a group in it. -/
inductive Flag where
  /-- Letters match up to case. -/
  | ignoreCase
  /-- Words, digits, blanks and case are those of the locale. -/
  | locale
  /-- The assertions of start and end hold for each line. -/
  | multiline
  /-- A full stop stands for line feeds too. -/
  | dotAll
  /-- Blanks and comments between the signs are left out. -/
  | verbose
  /-- Words, digits, blanks and case are those of ASCII. -/
  | ascii
  /-- Nothing is repeated. -/
  | template
  /-- Words, digits, blanks and case are those of every script. -/
  | unicode
  deriving DecidableEq, Repr

abbrev Flags := List Flag

/-- The flag says which characters are words, digits, blanks and letters. -/
def Flag.isType : Flag → Bool
  | .locale | .ascii | .unicode => true
  | _ => false

/-- The flag can be turned on for a whole pattern only. -/
def Flag.isGlobal : Flag → Bool
  | .template => true
  | _ => false

/-- The flags in a group that turns some on and some off. -/
def Flags.within (around on off : Flags) : Flags :=
  let kept := if on.any Flag.isType then around.filter (!·.isType) else around
  (kept ++ on).filter (!off.contains ·)

/-! ## Patterns -/

inductive Category where
  | word
  | digit
  | blank
  deriving DecidableEq, Repr

/-- A member of a set in brackets. Characters are given by their codes, of which some are no
characters. -/
inductive SetItem where
  | char (code : Nat)
  | range (first last : Nat)
  | category (category : Category) (negated : Bool)
  deriving DecidableEq, Repr

/-- A condition on a character. -/
inductive CharTest where
  | char (negated : Bool) (code : Nat)
  | set (negated : Bool) (items : List SetItem)
  /-- Any character, unless it ends a line. -/
  | any
  deriving DecidableEq, Repr

inductive Assertion where
  /-- The start of the text, or of a line. -/
  | start
  /-- The end of the text or the position before a line feed that ends it, or the end of a line. -/
  | stop
  | veryStart
  | veryEnd
  /-- A word character on exactly one side; or not, if negated. An empty text has neither kind
  of position. -/
  | boundary (negated : Bool)
  deriving DecidableEq, Repr

/-- How a repetition chooses among its counts. -/
inductive Mode where
  /-- As many copies as possible first. -/
  | greedy
  /-- As few copies as possible first. -/
  | reluctant
  /-- As many copies as possible, and no other count. -/
  | possessive
  deriving DecidableEq, Repr

/-- How many characters a match takes. -/
structure Width where
  least : Nat
  most : Nat
  deriving DecidableEq, Repr

inductive Pattern where
  | empty
  | single (test : CharTest)
  | assertion (assertion : Assertion)
  /-- What a group has matched, once more. The width is that of the group. -/
  | reference (group : Nat) (width : Width)
  | sequence (first second : Pattern)
  | choice (first second : Pattern)
  | repeated (body : Pattern) (least : Nat) (most : Option Nat) (mode : Mode)
  /-- A group with a number or with flags of its own. -/
  | group (number : Option Nat) (on off : Flags) (body : Pattern)
  /-- A group whose first match is its only one. -/
  | atomic (body : Pattern)
  /-- A condition on what stands ahead, or behind. -/
  | look (behind negated : Bool) (body : Pattern)
  /-- One pattern if a group has matched, and another one if not. -/
  | conditional (group : Nat) (found missing : Pattern)
  deriving DecidableEq, Repr

def Pattern.sequenceOf : List Pattern → Pattern
  | [] => .empty
  | [pattern] => pattern
  | pattern :: rest => .sequence pattern (sequenceOf rest)

/-- Any one of the patterns, the first preferred. -/
def Pattern.choiceOf : List Pattern → Pattern
  | [] => .empty
  | [pattern] => pattern
  | pattern :: rest => .choice pattern (choiceOf rest)

/-! ## Widths -/

/-- Widths are not told apart from here on. -/
def widthLimit : Nat := 0x10000000000000000

def Width.capped (width : Width) : Width :=
  ⟨min width.least widthLimit, min width.most widthLimit⟩

def Width.either (first second : Width) : Width :=
  ⟨min first.least second.least, max first.most second.most⟩

def Pattern.width : Pattern → Width
  | .empty | .assertion _ | .look .. => ⟨0, 0⟩
  | .single _ => ⟨1, 1⟩
  | .reference _ width => width
  | .sequence first second =>
    Width.capped ⟨first.width.least + second.width.least, first.width.most + second.width.most⟩
  | .choice first second => first.width.either second.width
  | .repeated body least most _ =>
    let longest :=
      match most with
      | some most => body.width.most * most
      | none => if body.width.most = 0 then 0 else widthLimit
    Width.capped ⟨body.width.least * least, longest⟩
  | .group _ _ _ body | .atomic body => body.width
  | .conditional _ found missing => found.width.either missing.width

end DartBindings.Regex
