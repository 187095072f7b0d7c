import Gloss.AnalyzerName
import Gloss.CommandLine.Command
import Gloss.CommandLine.Session
import Gloss.Document.Json
import Gloss.Document.Yaml
import Gloss.Options.Reading

/-!
# The program

`run` carries out what the arguments ask for on the files that it is given, and
tells what was printed, logged and written and with which code the program
ends.  The worst code of the checked fixtures is that of the check.
-/

namespace Gloss.CommandLine

structure Outcome where
  exit : Nat
  output : String
  errors : String
  log : List LogEntry
  written : Table Path String
  deriving DecidableEq, Repr

def versionText : String := "resolve-oracle 0.1.0\n"

def usageText : String :=
  "usage: resolve-oracle [-h] [--version] [-v] <command> ...\n\n" ++
    "commands:\n" ++
    "  extract FIXTURE [-f text|json] [-o FILE]\n" ++
    "  check FIXTURE... [--analyzer MODULE:CALLABLE] [--config FILE] [--fail-fast]\n" ++
    "        [-f gcc|json|summary] [-o FILE]\n" ++
    "  parse SOURCE [-f yaml|json|repr] [-o FILE]\n"

def jsonText (document : Document) : String :=
  Document.Json.render (.indented 2) document ++ "\n"

def faultCode (fault : Fault) : ExitCode :=
  if fault.exitCode = 3 then .malformed else .failure

def reportFault (fault : Fault) : Session ExitCode := do
  Session.complain fault.render
  return faultCode fault

def fixtureDocument (fixture : Fixture) : Document :=
  .object
    [("file", .text fixture.file),
      ("text", .text (String.ofList fixture.text)),
      ("tables", fixture.expectations.toDocument)]

def markerLine (marker : Marker) : String :=
  Text.padLeft 6 (toString marker.offset) ++ "  " ++
    Text.padRight 12 marker.kind.label ++ " " ++ marker.payload ++ "\n"

def fixtureText (fixture : Fixture) : String :=
  let lineEnd := if fixture.text.getLast? = some '\n' then "" else "\n"
  String.ofList fixture.text ++ lineEnd ++ "--- markers ---\n" ++
    Text.joined "" (fixture.markers.map markerLine)

def extract (written : String) (format : ExtractFormat) (output : Option String) :
    Session ExitCode := do
  let path ← Session.locate "fixture" written
  let text ← Session.readText path
  match Fixture.extract path.render text with
  | .error fault => reportFault fault
  | .ok fixture => do
      Session.openOutput output
      Session.print (match format with
        | .json => jsonText (fixtureDocument fixture)
        | .text => fixtureText fixture)
      return .success

def readClean (file : String) (text : List Char) : Except Fault Tree.File :=
  match Fixture.strip text with
  | .error fault => .error fault
  | .ok clean => Grammar.read file clean

/-- The exit code when a source cannot be shown: a text that is no source is no
failure of the program. -/
def parseCode (fault : Fault) : ExitCode :=
  if fault.cause.isMalformed || fault.cause.isMissingContext then .malformed else .mismatch

/-- Shows the tree of a source file, which may be a fixture. -/
def parse (written : String) (format : ParseFormat) (output : Option String) :
    Session ExitCode := do
  let path ← Session.locate "source file" written
  let text ← Session.readText path
  match readClean path.render text with
  | .error fault => do
      Session.complain fault.render
      return parseCode fault
  | .ok file => do
      let root := Node.file file
      Session.openOutput output
      Session.print (match format with
        | .yaml => Document.Yaml.render root.outline
        | .json => jsonText root.outline
        | .term => root.term ++ "\n")
      return .success

/-- Checks a text by what an analyzer's name leads to.  The function that only
reads a text gives a tree, which is no analysis. -/
def checkBy (analyzer : Named) (options : Options) (file : String) (text : List Char) :
    Session (Except Fault (Verification NodeRef)) :=
  let broken (detail : String) : Analyzer NodeRef Descriptor TypeConstructor :=
    fun _ _ => .error (.breakdown detail)
  match analyzer with
  | .parse =>
      match readClean file text, Fixture.extract file text with
      | _, .error fault => return .error fault
      | .error fault, _ => return .error fault
      | .ok _, .ok _ =>
          throw (.broken "'FileNode' object has no attribute 'diagnostics'")
  | .resolverClass =>
      return check (broken "SemanticAnalyzer() takes no arguments") options file text
  | .resolverMethod =>
      let detail :=
        "SemanticAnalyzer.analyze() missing 1 required positional argument: 'source'"
      return check (broken detail) options file text
  | _ => return check Resolution.analyze options file text

def verificationText (format : CheckFormat) (verification : Verification NodeRef) : String :=
  match format with
  | .gcc => Text.joined "" (verification.failures.map fun fault => fault.render ++ "\n")
  | .json => ""
  | .summary =>
      let failed := verification.findings.filterMap fun finding =>
        finding.failure.map fun fault =>
          "  " ++ finding.describe ++ ": " ++ fault.message ++ "\n"
      verification.summary ++ "\n" ++ Text.joined "" failed

def closingText (format : CheckFormat) (verifications : List (Verification NodeRef)) :
    String :=
  match format with
  | .gcc => ""
  | .json => jsonText (.list (verifications.map Verification.toDocument))
  | .summary =>
      let failed := verifications.countP fun verification => !verification.passed
      s!"\n--- {verifications.length} fixture(s) checked, {failed} failed ---\n"

def worse (first second : ExitCode) : ExitCode :=
  if first.number < second.number then second else first

/-- The exit code for a fault that ended the check of a fixture; a mismatch can
do that too. -/
def checkCode (fault : Fault) : ExitCode :=
  if fault.cause.isAssertion then .mismatch else faultCode fault

def checkFixture (request : CheckRequest) (analyzer : Named) (options : Options)
    (written : String) : Session (Except Fault (Verification NodeRef)) := do
  let path ← Session.locate "fixture" written
  let text ← Session.readText path
  match ← checkBy analyzer options path.render text with
  | .error fault => do
      Session.complain fault.render
      return .error fault
  | .ok verification => do
      Session.print (verificationText request.format verification)
      return .ok verification

/-- Checks fixtures in order; gives their verifications and the worst code. -/
def checkFixtures (request : CheckRequest) (analyzer : Named) (options : Options)
    (worst : ExitCode) (verifications : List (Verification NodeRef)) :
    List String → Session (List (Verification NodeRef) × ExitCode)
  | [] => return (verifications, worst)
  | written :: rest => do
      match ← checkFixture request analyzer options written with
      | .error fault =>
          checkFixtures request analyzer options (worse worst (checkCode fault)) verifications
            rest
      | .ok verification =>
          let code := if verification.passed then ExitCode.success else .mismatch
          checkFixtures request analyzer options (worse worst code)
            (verifications ++ [verification]) rest

/-- The options in a file; a file that cannot be used is told of in words. -/
def readOptions (path : Path) : Session (Except String Options) := do
  match ← Session.textAt path with
  | .error message => return .error message
  | .ok text => do
      let (remarks, result) := Options.ofSheet path.render (String.ofList text)
      for remark in remarks do
        Session.log .warning remark
      return (result.mapError OptionsFault.message)

def chosenOptions (request : CheckRequest) : Session (Except String Options) := do
  let chosen ← match request.options with
    | none | some "" => pure (.ok {})
    | some written => do
        let path ← Session.locate "config file" written
        readOptions path
  return chosen.map fun options =>
    if request.failFast then { options with failFast := true } else options

def checkAll (request : CheckRequest) : Session ExitCode := do
  match Named.load request.analyzer with
  | .error fault => do
      Session.log .error
        ("Cannot load analyzer " ++ request.analyzer ++ ": " ++ fault.message)
      return .failure
  | .ok analyzer => do
      match ← chosenOptions request with
      | .error message => do
          Session.log .error
            ("Bad config file " ++ request.options.getD "" ++ ": " ++ message)
          return .failure
      | .ok options => do
          Session.openOutput request.output
          let (verifications, worst) ←
            checkFixtures request analyzer options .success [] request.fixtures
          Session.print (closingText request.format verifications)
          return worst

def perform : Command → Session ExitCode
  | .extract fixture format output => extract fixture format output
  | .check request => checkAll request
  | .parse source format output => parse source format output

def spoken (exit : Nat) (output errors : String) : Outcome :=
  { exit, output, errors, log := [], written := .empty }

def outcome (files : Files) (command : Command) : Outcome :=
  let (result, state) := ((perform command).run).run { files }
  let ended (exit : Nat) (more : List LogEntry) : Outcome :=
    { exit, output := state.output, errors := state.errors
      log := state.log ++ more, written := state.written }
  match result with
  | .ok code => ended code.number []
  | .error (.exit code) => ended code []
  | .error (.broken message) =>
      ended ExitCode.failure.number
        [{ level := .error, text := "Unhandled exception: " ++ message }]

def run (files : Files) (arguments : List String) : Outcome :=
  match Command.ofArguments arguments with
  | .error .help => spoken ExitCode.success.number usageText ""
  | .error .version => spoken ExitCode.success.number versionText ""
  | .error .misuse => spoken ExitCode.failure.number "" usageText
  | .ok command => outcome files command

end Gloss.CommandLine
