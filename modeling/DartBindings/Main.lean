import DartBindings.CommandLine.Execution

/-!
The command: loads the files on which a run depends into a world, executes the run on it, prints
what the run prints, and saves the files that it has changed.
-/

set_option autoImplicit false

namespace DartBindings.CommandLine

open Text Files Declaration

variable [Regex.CharacterNames]

/-- Loads what stands at a location. -/
def loadEntry (world : World) (location : Location) : IO World := do
  let place := (← IO.currentDir) / (Path.text ⟨.root, location⟩).escaped
  if ← place.isDir then return world.put location .directory
  if ← place.pathExists then
    return world.put location (.file (← IO.FS.readBinFile place).toList)
  return world

/-- Loads a path and everything on the way to it. -/
def loadPath (world : World) (path : Path) : IO World := do
  let stops := (List.range (path.parts.length + 1)).map fun n =>
    resolveParts (world.origin path.anchor) (path.parts.take n)
  (stops.flatMap fun stop => (ancestors stop).reverse).eraseDups.foldlM loadEntry world

def loadSources (world : World) (dialect : Dialect) (root : Path) : IO World := do
  let world ← loadPath world root
  let location := resolveParts (world.origin root.anchor) root.parts
  let place := (← IO.currentDir) / (Path.text ⟨.root, location⟩).escaped
  if !(← place.isDir) then return world
  let mut world := world
  for found in ← place.walkDir do
    if (← found.isDir) || found.toString.endsWith dialect.fileEnding then
      world ← loadEntry world (Path.ofText found.toString).parts
  return world

/-- Loads the files on which the command depends. -/
def loadWorld (arguments : List RawText) : IO World := do
  let directory := (Path.ofText (← IO.currentDir).toString).parts
  let start : World := ⟨⟨[]⟩, directory⟩
  let markers := (ancestors directory).map fun location => location ++ [projectMarker]
  let world ← markers.foldlM loadEntry (← loadPath start (Path.ofText []))
  match readArguments arguments with
  | .ok (.run options) =>
    let given := [stated options.config [], stated options.projectRoot []].map Path.ofText
    let world ← given.foldlM loadPath world
    match task world options with
    | .ok task =>
      let world ← loadSources world .kotlin task.kotlin
      let world ← loadSources world .swift task.swift
      task.output.toList.foldlM loadPath world
    | .error _ => return world
  | _ => return world

def saveChanges (before after : World) : IO Unit := do
  for (location, entry) in after.tree.entries.reverse do
    if before.tree.entry? location != some entry then
      let path := (Path.text ⟨.root, location⟩).escaped
      match entry with
      | .directory => IO.FS.createDirAll path
      | .file content => IO.FS.writeBinFile path ⟨content.toArray⟩

end DartBindings.CommandLine

def main (arguments : List String) : IO UInt32 := do
  let _ := DartBindings.Regex.asciiNames
  let arguments := arguments.map DartBindings.Text.RawText.ofString
  let world ← DartBindings.CommandLine.loadWorld arguments
  let outcome := DartBindings.CommandLine.execute world arguments
  IO.print outcome.output
  IO.eprint outcome.errors
  DartBindings.CommandLine.saveChanges world outcome.world
  match outcome.ending with
  | .exit code => return code.toUInt32
  | .brokenOff error =>
    IO.eprintln error.message.escaped
    return 1
