import Gloss.Document.Term
import Gloss.Fixture.Payload

/-!
# Options

What can be chosen for the check of a fixture.  Options are given by name, a
hyphen standing for an underscore; a name that is no option is passed over
with a remark, a value of the wrong kind is a fault.
-/

namespace Gloss

/-- What can be chosen for a check. -/
structure Options where
  /-- Whether the first failed expectation ends the check. -/
  failFast : Bool := false
  prefixes : Prefixes := {}
  declarationsOnly : Bool := false
  deriving DecidableEq, Repr

inductive OptionName where
  | failFast
  | libraryPrefix
  | parameterPrefix
  | declarationsOnly
  deriving DecidableEq, Repr

/-- Why options cannot be used. -/
inductive OptionsFault where
  | wrongKind (key expected : String) (value : Document)
  | malformed (file : String)
  | noMapping (file : String) (found : Document)
  deriving Repr

namespace OptionName

def all : List OptionName := [.failFast, .libraryPrefix, .parameterPrefix, .declarationsOnly]

def label : OptionName → String
  | .failFast => "fail_fast"
  | .libraryPrefix => "std_prefix"
  | .parameterPrefix => "parameter_prefix"
  | .declarationsOnly => "check_declarations_only"

def ofKey? (key : String) : Option OptionName :=
  let name := String.ofList (key.toList.map fun character =>
    if character = '-' then '_' else character)
  all.find? fun option => option.label = name

def kindName : OptionName → String
  | .failFast | .declarationsOnly => "bool"
  | .libraryPrefix | .parameterPrefix => "str"

end OptionName

namespace OptionsFault

def message : OptionsFault → String
  | .wrongKind key expected value =>
      "option " ++ Text.Quoted.encode key ++ " must be a " ++ expected ++ ", got " ++
        value.kindName ++ " " ++ value.term
  | .malformed file => file ++ ": invalid YAML"
  | .noMapping file found =>
      file ++ ": expected a mapping of options, got " ++ found.kindName

end OptionsFault

namespace Options

/-- The options with one of them set, if the value is of the right kind. -/
def set? (options : Options) : OptionName → Document → Option Options
  | .failFast, .boolean value => some { options with failFast := value }
  | .libraryPrefix, .text value =>
      some { options with prefixes := { options.prefixes with library := value } }
  | .parameterPrefix, .text value =>
      some { options with prefixes := { options.prefixes with parameter := value } }
  | .declarationsOnly, .boolean value => some { options with declarationsOnly := value }
  | _, _ => none

def warnings (options : Options) : List String :=
  let library := options.prefixes.library
  let parameter := options.prefixes.parameter
  (if library = "" then ["std_prefix must not be empty"] else []) ++
    (if parameter = "" then ["parameter_prefix must not be empty"] else []) ++
    (if Text.startsWith "!" parameter || Text.startsWith "!" library then
      ["prefixes starting with '!' collide with sentinel payloads"] else [])

def remark (text : String) : String := "OracleConfig: " ++ text

/-- Sets options one after the other.  Remarks are collected beside the
options, also when a fault ends the work. -/
def setAll (options : Options) (remarks : List String) :
    List (String × Document) → List String × Except OptionsFault Options
  | [] => (remarks, .ok options)
  | (key, value) :: rest =>
      match OptionName.ofKey? key with
      | none =>
          let unknown := remark ("ignoring unknown option " ++ Text.Quoted.encode key)
          setAll options (remarks ++ [unknown]) rest
      | some name =>
          match options.set? name value with
          | none => (remarks, .error (.wrongKind key name.kindName value))
          | some changed => setAll changed remarks rest

def ofMembers (members : List (String × Document)) :
    List String × Except OptionsFault Options :=
  match setAll {} [] members with
  | (remarks, .ok options) => (remarks ++ options.warnings.map remark, .ok options)
  | (remarks, .error fault) => (remarks, .error fault)

end Options

end Gloss
