import Gloss.CommandLine.Arguments

/-!
# Commands

What the program can be asked to do: show the tables of a fixture, check
fixtures, or show the tree of a source file.
-/

namespace Gloss.CommandLine

/-- How the tables of a fixture are shown. -/
inductive ExtractFormat where
  | text
  | json
  deriving DecidableEq, Repr

inductive CheckFormat where
  | gcc
  | json
  | summary
  deriving DecidableEq, Repr

inductive ParseFormat where
  | yaml
  | json
  | term
  deriving DecidableEq, Repr

structure CheckRequest where
  fixtures : List String
  analyzer : String
  options : Option String
  failFast : Bool
  format : CheckFormat
  output : Option String
  deriving DecidableEq, Repr

inductive Command where
  | extract (fixture : String) (format : ExtractFormat) (output : Option String)
  | check (request : CheckRequest)
  | parse (source : String) (format : ParseFormat) (output : Option String)
  deriving DecidableEq, Repr

namespace Command

def defaultAnalyzer : String := "fixturelang:analyze"

def helpForm : OptionForm := { key := "help", names := ["-h", "--help"], effect := .help }

def commonForms : List OptionForm :=
  [helpForm,
    { key := "version", names := ["--version"], effect := .version },
    { key := "verbose", names := ["-v", "--verbose"], effect := .mark }]

def outputForm : OptionForm :=
  { key := "output", names := ["-o", "--output"], effect := .value none }

def formatForm (choices : List String) : OptionForm :=
  { key := "format", names := ["-f", "--format"], effect := .value (some choices) }

def extractForms : List OptionForm := [helpForm, formatForm ["text", "json"], outputForm]

def checkForms : List OptionForm :=
  [helpForm,
    { key := "analyzer", names := ["--analyzer"], effect := .value none },
    { key := "config", names := ["--config"], effect := .value none },
    { key := "fail-fast", names := ["--fail-fast"], effect := .mark },
    formatForm ["gcc", "json", "summary"], outputForm]

def parseForms : List OptionForm := [helpForm, formatForm ["yaml", "json", "repr"], outputForm]

def valueOf (reading : Reading) (key : String) : Option String := reading.values.get? key

def firstWord (reading : Reading) : String := reading.words.headD ""

/-- The command with a name and arguments, and whether an argument was left. -/
def read (name : String) (arguments : List String) : Except Halt (Command × Bool) :=
  match name with
  | "extract" =>
      (Reading.read extractForms .one arguments).map fun reading =>
        let format := match valueOf reading "format" with
          | some "json" => ExtractFormat.json
          | _ => .text
        (.extract (firstWord reading) format (valueOf reading "output"), reading.hasLeftover)
  | "check" =>
      (Reading.read checkForms .several arguments).map fun reading =>
        let format := match valueOf reading "format" with
          | some "json" => CheckFormat.json
          | some "summary" => .summary
          | _ => .gcc
        (.check
          { fixtures := reading.words
            analyzer := (valueOf reading "analyzer").getD defaultAnalyzer
            options := valueOf reading "config"
            failFast := (valueOf reading "fail-fast").isSome
            format, output := valueOf reading "output" },
          reading.hasLeftover)
  | "parse" =>
      (Reading.read parseForms .one arguments).map fun reading =>
        let format := match valueOf reading "format" with
          | some "json" => ParseFormat.json
          | some "repr" => .term
          | _ => .yaml
        (.parse (firstWord reading) format (valueOf reading "output"), reading.hasLeftover)
  | _ => .error .misuse

def files : Command → List String
  | .extract fixture _ output => fixture :: output.toList
  | .check request => request.fixtures ++ request.options.toList ++ request.output.toList
  | .parse source _ output => source :: output.toList

/-- Reads the options before the name of a command, and then the command. -/
def readAfter (hasLeftover : Bool) : List (String × Look) → Except Halt Command
  | [] => .error .misuse
  | (_, .unknown) :: rest => readAfter true rest
  | (_, .option form given) :: rest =>
      match Cluster.of? commonForms form given with
      | none => .error .misuse
      | some cluster =>
          match Reading.applyAll {} cluster.options with
          | .error halt => .error halt
          | .ok _ => readAfter (hasLeftover || cluster.hasLeftover) rest
  | (name, _) :: rest =>
      match read name (rest.map Prod.fst) with
      | .error halt => .error halt
      | .ok (command, more) => if hasLeftover || more then .error .misuse else .ok command

def ofArguments (arguments : List String) : Except Halt Command :=
  match Look.all? commonForms arguments with
  | none => .error .misuse
  | some looks => readAfter false looks

end Command

end Gloss.CommandLine
