import Gloss.Table
import Gloss.Text.Quoted

/-!
# Files

The files that a run can see, by their full paths.  Directories are those that
are known as such and all those on the way to a file.
-/

namespace Gloss.CommandLine

/-- The names from the root down to a file or directory. -/
structure Path where
  names : List String
  deriving DecidableEq, Repr

inductive Entry where
  | file (bytes : List UInt8)
  | directory
  deriving DecidableEq, Repr

/-- Files and directories as they are seen from a working directory. -/
structure Files where
  workingDirectory : Path
  home : Option Path := none
  directories : List Path := []
  contents : Table Path (List UInt8) := .empty
  deriving DecidableEq, Repr

/-- Why a file cannot be opened. -/
inductive FileFault where
  | isDirectory (path : Path)
  | notDirectory (path : Path)
  | alreadyExists (path : Path)
  | noHome
  deriving DecidableEq, Repr

namespace Path

def render (path : Path) : String := "/" ++ Text.joined "/" path.names

/-- The path one level up; the root is above itself. -/
def parent (path : Path) : Path := ⟨path.names.dropLast⟩

def isBelow (path above : Path) : Bool :=
  above.names.isPrefixOf path.names && above.names.length < path.names.length

def upwards (path : Path) : List Path :=
  (List.range path.names.length).map fun count => ⟨path.names.take (count + 1)⟩

def ofAbsolute (written : String) : Path :=
  ⟨(Text.splitOn '/' written).filter fun name => name ≠ ""⟩

/-- Goes on from a path by names, two dots going one level up. -/
def follow (path : Path) : List String → Path
  | [] => path
  | name :: rest => follow (if name = ".." then path.parent else ⟨path.names ++ [name]⟩) rest

end Path

namespace FileFault

def message : FileFault → String
  | .isDirectory path => "[Errno 21] Is a directory: " ++ Text.Quoted.encode path.render
  | .notDirectory path => "[Errno 20] Not a directory: " ++ Text.Quoted.encode path.render
  | .alreadyExists path => "[Errno 17] File exists: " ++ Text.Quoted.encode path.render
  | .noHome => "Could not determine home directory."

end FileFault

namespace Files

/-- The path that a written path means.  A tilde stands for the home directory. -/
def resolve (files : Files) (written : String) : Except FileFault Path :=
  let names := (Text.splitOn '/' written).filter fun name => name ≠ "" && name ≠ "."
  if Text.startsWith "/" written then .ok (Path.follow ⟨[]⟩ names)
  else
    match names with
    | first :: rest =>
        if Text.startsWith "~" first then
          match first, files.home with
          | "~", some home => .ok (home.follow rest)
          | _, _ => .error .noHome
        else .ok (files.workingDirectory.follow names)
    | [] => .ok files.workingDirectory

def isDirectory (files : Files) (path : Path) : Bool :=
  path ∈ files.directories || path = files.workingDirectory ||
    files.workingDirectory.isBelow path || files.directories.any (fun one => one.isBelow path) ||
    files.contents.keys.any (fun file => file.isBelow path)

def entry? (files : Files) (path : Path) : Option Entry :=
  match files.contents.get? path with
  | some bytes => some (.file bytes)
  | none => if files.isDirectory path then some .directory else none

def isFile (files : Files) (path : Path) : Bool := files.contents.contains path

/-- The files with an empty one at a path, ready to be written.  The directories
on the way are made as they are needed. -/
def create (files : Files) (path : Path) : Except FileFault Files :=
  if files.contents.keys.any (fun file => path.parent.isBelow file) then
    .error (.notDirectory path.parent)
  else if files.isFile path.parent then .error (.alreadyExists path.parent)
  else if files.isDirectory path then .error (.isDirectory path)
  else .ok { files with contents := files.contents.insert path [] }

end Files

end Gloss.CommandLine
