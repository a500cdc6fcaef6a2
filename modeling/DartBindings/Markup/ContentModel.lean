import DartBindings.Markup.Symbol

/-!
Content models: what the declaration of an element says it may hold. Models are read for their
form only; no element is held to one.
-/

set_option autoImplicit false

namespace DartBindings.Markup

/-- The symbols complete the groups that are open, the inmost first. Each group has its
separator once it is known, and keeps to it. -/
def completesGroups (separators : List (Option Symbol)) (isItemNext : Bool) :
    List Symbol → Bool
  | [] => separators.isEmpty && !isItemNext
  | symbol :: rest =>
    match isItemNext, symbol, separators with
    | true, .openGroup, _ => completesGroups (none :: separators) true rest
    | true, .name _, _ | true, .qualified _, _ | true, .counted _, _ =>
      completesGroups separators false rest
    | false, .closeGroup _, _ :: outer => completesGroups outer false rest
    | false, .comma, known :: outer | false, .bar, known :: outer =>
      (known.isNone || known == some symbol)
        && completesGroups (some symbol :: outer) true rest
    | _, _, _ => false

/-- The symbols complete a group of text and elements of at least one name. -/
def completesMixture : List Symbol → Bool
  | [.bar, name, .closeGroup (some '*')] => name.tagName?.isSome
  | .bar :: name :: rest => name.tagName?.isSome && completesMixture rest
  | _ => false

def isContentModel : List Symbol → Bool
  | [.name "EMPTY"] | [.name "ANY"] => true
  | [.openGroup, .reserved "PCDATA", .closeGroup none] => true
  | [.openGroup, .reserved "PCDATA", .closeGroup (some '*')] => true
  | .openGroup :: .reserved "PCDATA" :: rest => completesMixture rest
  | .openGroup :: rest => completesGroups [none] true rest
  | _ => false

end DartBindings.Markup
