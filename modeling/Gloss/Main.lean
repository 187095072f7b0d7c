import Gloss.CommandLine

/-!
# The command line

The files that the arguments name are looked at first; then the run is carried
out on them, and what it says and writes is passed on.
-/

namespace Gloss.CommandLine

def look (files : Files) (path : Path) : IO Files := do
  let place := (← IO.currentDir) / path.render
  if ← place.isDir then
    return { files with directories := files.directories ++ [path] }
  else if ← place.pathExists then
    let bytes ← IO.FS.readBinFile place
    return { files with contents := files.contents.insert path bytes.toList }
  else return files

def lookAt (files : Files) (command : Command) : IO Files := do
  let paths := command.files.filterMap fun written => (files.resolve written).toOption
  (paths.flatMap Path.upwards).eraseDups.foldlM look files

def surroundings : IO Files := do
  let workingDirectory ← IO.currentDir
  let home ← IO.getEnv "HOME"
  let home := home.map Path.ofAbsolute
  return { workingDirectory := Path.ofAbsolute workingDirectory.toString, home }

/-- Writes a text to a file; the directories on the way are made as needed. -/
def store (path : Path) (text : String) : IO Unit := do
  let root ← IO.currentDir
  IO.FS.createDirAll (root / path.parent.render)
  IO.FS.writeFile (root / path.render) text

def deliver (outcome : Outcome) : IO Unit := do
  for (path, text) in outcome.written.entries do
    store path text
  IO.print outcome.output
  IO.eprint outcome.errors
  for entry in outcome.log do
    IO.eprintln entry.render

end Gloss.CommandLine

open Gloss.CommandLine in
def main (arguments : List String) : IO UInt32 := do
  let files ← surroundings
  let seen ← match Command.ofArguments arguments with
    | .ok command => lookAt files command
    | .error _ => pure files
  let outcome := run seen arguments
  deliver outcome
  return outcome.exit.toUInt32
