import DartBindings.Files.Tree

/-!
Listings: the files at any depth below a directory, in the order of their components, and the
project that a directory belongs to.
-/

set_option autoImplicit false

namespace DartBindings.Files

open Text

/-- The components after `root` of a file below it whose name has the ending. -/
def fileBelow? (root : Location) (ending : RawText) : Location × Entry → Option (List RawText)
  | (_, .directory) => none
  | (location, .file _) =>
    if root.isPrefixOf location && root.length < location.length
        && ending.isSuffixOf (location.getLast?.getD []) then
      some (location.drop root.length)
    else none

/-- The components of all such files, in ascending order; components are compared one by one by
their code points. -/
def filesBelow (tree : FileTree) (root : Location) (ending : RawText) : List (List RawText) :=
  (tree.entries.filterMap (fileBelow? root ending)).mergeSort fun a b =>
    (compare (a.map RawText.codes) (b.map RawText.codes)).isLE

/-- The files at any depth below the directory `root` whose names have the ending, in order.
There are none if `root` is no directory. -/
def World.files (world : World) (root : Path) (ending : RawText) : List Path :=
  match world.locate root with
  | .ok (location, .directory) =>
    (filesBelow world.tree location ending).map fun parts => root.join ⟨.relative, parts⟩
  | _ => []

/-- The location that components lead to when a parent component takes back the one before it,
whether or not anything stands there. -/
def resolveParts (location : Location) : List RawText → Location
  | [] => location
  | part :: rest =>
    if part == ".." then resolveParts location.dropLast rest
    else resolveParts (location ++ [part]) rest

/-- The file that marks the root of a project. -/
def projectMarker : RawText := "pubspec.yaml"

def FileTree.startsProject (tree : FileTree) (location : Location) : Bool :=
  match tree.entry? (location ++ [projectMarker]) with
  | some (.file _) => true
  | _ => false

/-- The location and those above it, from the location up. -/
def ancestors (location : Location) : List Location :=
  (List.range (location.length + 1)).reverse.map location.take

/-- The root of the project that the path is in, as an absolute path; the nearest one counts.
An absent or empty path is the current directory. -/
def World.projectRoot? (world : World) (start : Option RawText) : Option Path :=
  let start := Path.ofText (start.getD [])
  let location := resolveParts (world.origin start.anchor) start.parts
  ((ancestors location).find? world.tree.startsProject).map fun found => ⟨.root, found⟩

end DartBindings.Files
