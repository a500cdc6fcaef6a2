import DartBindings.Declaration.Extraction
import DartBindings.Files.Listing
import DartBindings.Text.Unicode

/-!
Source trees: the entities that all files of a dialect below a directory declare.
-/

set_option autoImplicit false

namespace DartBindings.Declaration

open Text Bridge Files

/-- The text of a source file: faults are replaced, and every line break is a line feed. -/
def sourceText (content : List UInt8) : List Char :=
  unifyLineBreaks (decodeReplacing content)

/-- The entities that a source file declares; reports mention its path. A file that is gone
declares none. -/
def extractFile (dialect : Dialect) (world : World) (path : Path) : Extraction (List Entity) :=
  match world.locate path with
  | .ok (_, .file content) => extract dialect (sourceText content) (some path.text)
  | _ => .found []

def extractFiles (dialect : Dialect) (world : World) : List Path → Extraction (List Entity)
  | [] => .found []
  | path :: rest =>
    (extractFile dialect world path).andThen fun entities =>
      (extractFiles dialect world rest).map fun later => entities ++ later

def extractDirectory (dialect : Dialect) (world : World) (root : Path) :
    Extraction (List Entity) :=
  extractFiles dialect world (world.files root dialect.fileEnding)

end DartBindings.Declaration
