import DartBindings.Text.Raw

/-!
Paths as texts, normalised without a look at any file: empty components and full stops are
dropped, parents are kept.
-/

set_option autoImplicit false

namespace DartBindings.Files

open Text

/-- Where a path starts. Exactly two slashes at the start are kept apart from one. -/
inductive Anchor where
  | relative
  | root
  | doubleRoot
  deriving DecidableEq, Repr

def Anchor.text : Anchor → RawText
  | .relative => ""
  | .root => "/"
  | .doubleRoot => "//"

/-- A path: an anchor, and components that are neither empty nor a full stop. -/
structure Path where
  anchor : Anchor
  parts : List RawText
  deriving DecidableEq, Repr

/-- The components of a text between its slashes, empty ones included. -/
def components : RawText → List RawText
  | [] => [[]]
  | point :: rest =>
    if point = .char '/' then [] :: components rest
    else
      match components rest with
      | [] => [[point]]
      | part :: parts => (point :: part) :: parts

def anchorOf (text : RawText) : Anchor :=
  match (text.takeWhile (· == .char '/')).length with
  | 0 => .relative
  | 2 => .doubleRoot
  | _ => .root

def Path.ofText (text : RawText) : Path :=
  ⟨anchorOf text, (components text).filter fun part => !part.isEmpty && part != "."⟩

/-- The text of a path; that of an empty relative path is a full stop. -/
def Path.text (path : Path) : RawText :=
  if path.anchor == .relative && path.parts.isEmpty then "."
  else path.anchor.text ++ [.char '/'].intercalate path.parts

def Path.isAbsolute (path : Path) : Bool :=
  path.anchor != .relative

def Path.join (base path : Path) : Path :=
  if path.isAbsolute then path else ⟨base.anchor, base.parts ++ path.parts⟩

def Path.parent (path : Path) : Path :=
  ⟨path.anchor, path.parts.dropLast⟩

/-- The last component, empty if there is none. -/
def Path.name (path : Path) : RawText :=
  path.parts.getLast?.getD []

end DartBindings.Files
