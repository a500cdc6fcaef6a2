import DartBindings.Files.Path

/-!
File trees: directories and files by their locations, and the look-up, creation and writing of
paths in them.

A location lists the components from the root. Every look-up walks from component to component
and needs a directory at each step, so a parent component is physical: the way to it has to
exist.
-/

set_option autoImplicit false

namespace DartBindings.Files

open Text

/-- The place of a file or a directory: its components from the root. -/
abbrev Location := List RawText

inductive Entry where
  | directory
  | file (content : List UInt8)
  deriving DecidableEq, Repr

def Entry.isDirectory : Entry → Bool
  | .directory => true
  | .file _ => false

/-- The entries by their locations; the first of a location counts. The root is a directory
and need not be listed. -/
structure FileTree where
  entries : List (Location × Entry)
  deriving DecidableEq, Repr

def FileTree.entry? (tree : FileTree) (location : Location) : Option Entry :=
  if location.isEmpty then some .directory else tree.entries.lookup location

def FileTree.put (tree : FileTree) (location : Location) (entry : Entry) : FileTree :=
  ⟨(location, entry) :: tree.entries.filter fun other => other.1 != location⟩

inductive Fault where
  | missing
  | occupied
  | notDirectory
  | isDirectory
  deriving DecidableEq, Repr

/-- A path that cannot be used, as the program wrote it. -/
structure FileError where
  fault : Fault
  path : RawText
  deriving DecidableEq, Repr

/-- The number of a fault among the operating system's. -/
def Fault.number : Fault → Nat
  | .missing => 2
  | .occupied => 17
  | .notDirectory => 20
  | .isDirectory => 21

def Fault.text : Fault → String
  | .missing => "No such file or directory"
  | .occupied => "File exists"
  | .notDirectory => "Not a directory"
  | .isDirectory => "Is a directory"

def FileError.message (error : FileError) : String :=
  "[Errno " ++ toString error.fault.number ++ "] " ++ error.fault.text ++ ": "
    ++ quote error.path

/-- The place reached from `location` by these components. Every step starts in a directory. -/
def FileTree.walk (tree : FileTree) (location : Location) :
    List RawText → Except Fault (Location × Entry)
  | [] =>
    match tree.entry? location with
    | some entry => .ok (location, entry)
    | none => .error .missing
  | part :: rest =>
    match tree.entry? location with
    | none => .error .missing
    | some (.file _) => .error .notDirectory
    | some .directory =>
      if part.isEmpty || part == "." then tree.walk location rest
      else if part == ".." then tree.walk location.dropLast rest
      else tree.walk (location ++ [part]) rest

/-- A file tree and the directory in which relative paths start. -/
structure World where
  tree : FileTree
  directory : Location
  deriving DecidableEq, Repr

def World.origin (world : World) : Anchor → Location
  | .relative => world.directory
  | .root => []
  | .doubleRoot => []

/-- What a path denotes that is given as a text. A slash at its end asks for a directory. -/
def World.locateText (world : World) (text : RawText) : Except Fault (Location × Entry) :=
  if text.isEmpty then .error .missing
  else world.tree.walk (world.origin (anchorOf text)) (components text)

def World.locate (world : World) (path : Path) : Except Fault (Location × Entry) :=
  world.tree.walk (world.origin path.anchor) path.parts

def World.isDirectory (world : World) (path : Path) : Bool :=
  match world.locate path with
  | .ok (_, entry) => entry.isDirectory
  | .error _ => false

def World.read (world : World) (text : RawText) : Except FileError (List UInt8) :=
  match world.locateText text with
  | .ok (_, .file content) => .ok content
  | .ok (_, .directory) => .error ⟨.isDirectory, text⟩
  | .error fault => .error ⟨fault, text⟩

def World.put (world : World) (location : Location) (entry : Entry) : World :=
  { world with tree := world.tree.put location entry }

/-- Creates one directory in a directory that exists. -/
def World.makeDirectory (world : World) (path : Path) : Except Fault World :=
  match world.locate path with
  | .ok _ => .error .occupied
  | .error .missing =>
    match world.locate path.parent with
    | .ok (location, .directory) => .ok (world.put (location ++ [path.name]) .directory)
    | .ok (_, .file _) => .error .notDirectory
    | .error fault => .error fault
  | .error fault => .error fault

/-- A directory that was to be created may exist already; anything else is an error. -/
def World.settle (world : World) (path : Path) (fault : Fault) : World × Except FileError Unit :=
  if fault != .missing && world.isDirectory path then (world, .ok ())
  else (world, .error ⟨fault, path.text⟩)

/-- Creates the directory with the components `parts`, the last one first, and its parents.
What has been created before an error remains. -/
def World.makeParts (world : World) (anchor : Anchor) :
    List RawText → World × Except FileError Unit
  | [] => (world, .ok ())
  | name :: above =>
    let path : Path := ⟨anchor, (name :: above).reverse⟩
    match world.makeDirectory path with
    | .ok world => (world, .ok ())
    | .error .missing =>
      match world.makeParts anchor above with
      | (world, .error error) => (world, .error error)
      | (world, .ok ()) =>
        match world.makeDirectory path with
        | .ok world => (world, .ok ())
        | .error fault => world.settle path fault
    | .error fault => world.settle path fault

/-- Creates a directory with its parents; those that exist are left alone. -/
def World.makeDirectories (world : World) (path : Path) : World × Except FileError Unit :=
  world.makeParts path.anchor path.parts.reverse

/-- Writes a file into a directory that exists. -/
def World.write (world : World) (path : Path) (content : List UInt8) :
    World × Except FileError Unit :=
  match world.locate path with
  | .ok (location, .file _) => (world.put location (.file content), .ok ())
  | .ok (_, .directory) => (world, .error ⟨.isDirectory, path.text⟩)
  | .error .missing =>
    match world.locate path.parent with
    | .ok (location, .directory) =>
      (world.put (location ++ [path.name]) (.file content), .ok ())
    | .ok (_, .file _) => (world, .error ⟨.notDirectory, path.text⟩)
    | .error fault => (world, .error ⟨fault, path.text⟩)
  | .error fault => (world, .error ⟨fault, path.text⟩)

end DartBindings.Files
