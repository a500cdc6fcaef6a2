import DartBindings.Markup.ContentModel
import DartBindings.Markup.Definition

/-!
Type declarations: what the symbols before the root element of a document define. Declarations
of elements, of notations and of entities for declarations define nothing, but have a form to
keep.
-/

set_option autoImplicit false

namespace DartBindings.Markup

def isPublicChar (c : Char) : Bool :=
  c.isAlphanum || " \r\n-'()+,./:=?;!*#@$_%".toList.contains c

/-- The symbols after the place of something that is kept elsewhere. -/
def afterPlace? : List Symbol → Option (List Symbol)
  | .name "SYSTEM" :: .literal _ :: rest => some rest
  | .name "PUBLIC" :: .literal name :: .literal _ :: rest =>
    if name.all isPublicChar then some rest else none
  | _ => none

/-! ## Entities -/

/-- The text that a declaration gives to an entity: references to characters are replaced,
others are kept. -/
def declaredText? (text : List Char) : Option (List Char) :=
  match text with
  | [] => some []
  | '%' :: _ => none
  | '&' :: rest => do
    let name ← referenceName? rest
    let later ← declaredText? (rest.drop (name.length + 1))
    if name.head? != some '#' then
      if isName name then return '&' :: (name ++ ';' :: later)
      failure
    match ← (Entities.mk [] true).referent? name with
    | .char c => return c :: later
    | _ => failure
  | c :: rest => do
    let later ← declaredText? rest
    return c :: later
termination_by text.length
decreasing_by all_goals (simp only [List.length_cons, List.length_drop]; omega)

/-- The declaration of an entity; one with a percent sign is for declarations. The text of
an entity is looked at only where declarations count. -/
def Definitions.declareEntity? (definitions : Definitions) (symbols : List Symbol) :
    Option Definitions := do
  let text? := fun content =>
    if definitions.isFollowed then declaredText? content else some []
  match symbols with
  | [.percent, .name _, .literal content] => return ← (text? content).map fun _ => definitions
  | .percent :: .name _ :: place =>
    if afterPlace? place == some [] then return definitions else failure
  | [.name name, .literal content] =>
    return definitions.addEntity name.toList (.text (← text? content))
  | .name name :: place =>
    match ← afterPlace? place with
    | [] | [.name "NDATA", .name _] => return definitions.addEntity name.toList .elsewhere
    | _ => failure
  | _ => failure

/-! ## Attributes -/

/-- How many symbols a list of choices takes with the parenthesis after it. -/
def choicesLength? (isChoice : Symbol → Bool) : List Symbol → Option Nat
  | choice :: .bar :: rest =>
    if isChoice choice then (choicesLength? isChoice rest).map (· + 2) else none
  | choice :: .closeGroup none :: _ => if isChoice choice then some 2 else none
  | _ => none

def Symbol.isPlainName : Symbol → Bool
  | .name _ => true
  | _ => false

def Symbol.isToken : Symbol → Bool
  | .name _ | .qualified _ | .token _ => true
  | _ => false

def typeWords : List (String × AttributeType) := [
  ("CDATA", .characters), ("ID", .identifier), ("IDREF", .tokens), ("IDREFS", .tokens),
  ("ENTITY", .tokens), ("ENTITIES", .tokens), ("NMTOKEN", .tokens), ("NMTOKENS", .tokens)]

/-- The type of an attribute that starts the symbols, and how many of them it takes. -/
def attributeType? : List Symbol → Option (AttributeType × Nat)
  | .openGroup :: rest => (choicesLength? Symbol.isToken rest).map fun n => (.tokens, n + 1)
  | .name "NOTATION" :: .openGroup :: rest =>
    (choicesLength? Symbol.isPlainName rest).map fun n => (.tokens, n + 2)
  | .name word :: _ => (typeWords.lookup word).map fun type => (type, 1)
  | _ => none

/-- The default of an attribute that starts the symbols, as it is written, and how many of them
it takes. -/
def attributeDefault? : List Symbol → Option (Option (List Char) × Nat)
  | .reserved "IMPLIED" :: _ | .reserved "REQUIRED" :: _ => some (none, 1)
  | .reserved "FIXED" :: .literal content :: _ => some (some content, 2)
  | .literal content :: _ => some (some content, 1)
  | _ => none

/-- The definitions of attributes that the symbols are. -/
def attributeDefinitions? (symbols : List Symbol) : Option (List AttributeDefinition) :=
  match symbols with
  | [] => some []
  | symbol :: rest => do
    let name ← symbol.tagName?
    let (type, n) ← attributeType? rest
    let (default, m) ← attributeDefault? (rest.drop n)
    let later ← attributeDefinitions? (rest.drop (n + m))
    return ⟨name, type, default⟩ :: later
termination_by symbols.length
decreasing_by simp only [List.length_cons, List.length_drop]; omega

/-! ## Declarations -/

def isNotation : List Symbol → Bool
  | [.name _, .name "SYSTEM", .literal _] => true
  | [.name _, .name "PUBLIC", .literal name] => name.all isPublicChar
  | [.name _, .name "PUBLIC", .literal name, .literal _] => name.all isPublicChar
  | _ => false

/-- The declaration with this word and these symbols. -/
def Definitions.declare? (definitions : Definitions) (keyword : String)
    (symbols : List Symbol) : Option Definitions :=
  match keyword, symbols with
  | "ENTITY", _ => definitions.declareEntity? symbols
  | "ATTLIST", element :: rest => do
    definitions.defineAll? (← element.tagName?) (← attributeDefinitions? rest)
  | "ELEMENT", element :: rest =>
    if element.tagName?.isSome && isContentModel rest then some definitions else none
  | "NOTATION", _ => if isNotation symbols then some definitions else none
  | _, _ => none

/-- The declarations between square brackets, and the symbols after them. -/
def Definitions.declareAll? (definitions : Definitions) (symbols : List Symbol) :
    Option (Definitions × List Symbol) :=
  match symbols with
  | .closeBracket :: rest => some (definitions, rest)
  | .aside :: rest => definitions.declareAll? rest
  | .parameter :: rest => definitions.withOmission.declareAll? rest
  | .opened keyword :: rest => do
    let content := rest.takeWhile (· != .closed)
    let definitions ← definitions.declare? keyword content
    definitions.declareAll? (rest.drop (content.length + 1))
  | _ => none
termination_by symbols.length
decreasing_by all_goals (simp only [List.length_cons, List.length_drop]; omega)

/-- The symbols after the declarations that may stand between square brackets. -/
def Definitions.declareSubset? (definitions : Definitions) :
    List Symbol → Option (Definitions × List Symbol)
  | .openBracket :: rest => definitions.declareAll? rest
  | rest => some (definitions, rest)

/-- What the symbols before a root element define: there may be a type declaration among
comments and instructions. -/
def Definitions.ofSymbols? (definitions : Definitions) (symbols : List Symbol) :
    Option Definitions :=
  match symbols.dropWhile (· == .aside) with
  | [] => some definitions
  | .opened "DOCTYPE" :: name :: rest => do
    let _ ← name.tagName?
    let (definitions, rest) :=
      match afterPlace? rest with
      | some rest => ({ definitions with hasOmissions := true }, rest)
      | none => (definitions, rest)
    match ← definitions.declareSubset? rest with
    | (definitions, .closed :: rest) =>
      if rest.all (· == .aside) then return definitions else failure
    | _ => failure
  | _ => none

end DartBindings.Markup
