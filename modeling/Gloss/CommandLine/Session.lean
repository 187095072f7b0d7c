import Gloss.CommandLine.Files
import Gloss.Text.Utf8

/-!
# Sessions

A session is one run of the program: the files as they are, what has been
printed and logged so far, and the file that takes the output, if one does.
A step can end the session with an exit code, or break it off with a message.
-/

namespace Gloss.CommandLine

inductive LogLevel where
  | warning
  | error
  deriving DecidableEq, Repr

structure LogEntry where
  level : LogLevel
  text : String
  deriving DecidableEq, Repr

structure SessionState where
  files : Files
  output : String := ""
  errors : String := ""
  log : List LogEntry := []
  written : Table Path String := .empty
  sink : Option Path := none
  deriving DecidableEq, Repr

/-- Why a run ends before its last step. -/
inductive Ending where
  /-- With an exit code, everything having been said. -/
  | exit (code : Nat)
  | broken (message : String)
  deriving DecidableEq, Repr

abbrev Session := ExceptT Ending (StateM SessionState)

inductive ExitCode where
  | success
  | mismatch
  | failure
  | malformed
  deriving DecidableEq, Repr

namespace LogEntry

def render (entry : LogEntry) : String :=
  let level := match entry.level with
    | .warning => "WARNING"
    | .error => "ERROR"
  level ++ ": " ++ entry.text

end LogEntry

namespace ExitCode

def number : ExitCode → Nat
  | .success => 0
  | .mismatch => 1
  | .failure => 2
  | .malformed => 3

end ExitCode

namespace Session

def log (level : LogLevel) (text : String) : Session Unit :=
  modify fun state => { state with log := state.log ++ [{ level, text }] }

def complain (line : String) : Session Unit :=
  modify fun state => { state with errors := state.errors ++ line ++ "\n" }

/-- Prints a text to the file that takes the output, else to the reader. -/
def print (text : String) : Session Unit :=
  modify fun state =>
    match state.sink with
    | none => { state with output := state.output ++ text }
    | some path =>
        let before := (state.written.get? path).getD ""
        { state with written := state.written.insert path (before ++ text) }

def exit (code : ExitCode) : Session Unit := throw (.exit code.number)

/-- Breaks off the run unless something went well. -/
def orBreak {α : Type} : Except FileFault α → Session α
  | .ok value => pure value
  | .error fault => throw (.broken fault.message)

/-- The path of something that must be there; `label` says what it is. -/
def locate (label written : String) : Session Path := do
  let state ← get
  let path ← orBreak (state.files.resolve written)
  match state.files.entry? path with
  | some _ => return path
  | none => do
      log .error (label ++ " not found: " ++ path.render)
      throw (.exit ExitCode.failure.number)

/-- The text of a file, its line breaks written as line feeds; else why it
cannot be read. -/
def textAt (path : Path) : Session (Except String (List Char)) := do
  let state ← get
  match state.files.contents.get? path with
  | none => return .error (FileFault.isDirectory path).message
  | some bytes =>
      match Text.Utf8.decode bytes with
      | .error defect => return .error defect.message
      | .ok text => return .ok (Text.withLineFeeds text)

/-- The text of a file; the run breaks off when it cannot be read. -/
def readText (path : Path) : Session (List Char) := do
  match ← textAt path with
  | .ok text => return text
  | .error message => throw (.broken message)

/-- Lets a file take the output, if one other than a hyphen is named. -/
def openOutput (output : Option String) : Session Unit := do
  match output with
  | none | some "-" => pure ()
  | some written => do
      let state ← get
      let path ← orBreak (state.files.resolve written)
      let files ← orBreak (state.files.create path)
      set { state with files, written := state.written.insert path "", sink := some path }

end Session

end Gloss.CommandLine
