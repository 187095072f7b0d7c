import Gloss.Text.Basic

/-!
# Payloads of reference markers

The text of a reference marker says what the reference must resolve to.  Four
sentinels ask for an outcome instead of a target; the other payloads are told
apart by the two prefixes in use.
-/

namespace Gloss

/-- The payloads that ask for an outcome. -/
inductive Sentinel where
  | unresolved
  | ambiguous
  | null
  | error
  deriving DecidableEq, Repr

/-- What a payload asks for, as far as its form tells. -/
inductive PayloadKind where
  | sentinel (sentinel : Sentinel)
  | constructorParameter
  | external
  | name
  deriving DecidableEq, Repr

/-- The prefix of library names and the prefix of constructor parameters. -/
structure Prefixes where
  library : String := "std::"
  parameter : String := "$"
  deriving DecidableEq, Repr

namespace Sentinel

def all : List Sentinel := [.unresolved, .ambiguous, .null, .error]

def payload : Sentinel → String
  | .unresolved => "!"
  | .ambiguous => "!!"
  | .null => "!null"
  | .error => "!error"

def label : Sentinel → String
  | .unresolved => "UNRESOLVED"
  | .ambiguous => "AMBIGUOUS"
  | .null => "NULL"
  | .error => "ERROR"

def description : Sentinel → String
  | .unresolved => "unresolved"
  | .ambiguous => "resolved to multiple descriptors"
  | .null => "resolved to null"
  | .error => "resolved to error"

def ofPayload? (payload : String) : Option Sentinel :=
  all.find? fun sentinel => sentinel.payload = payload

end Sentinel

namespace PayloadKind

def label : PayloadKind → String
  | .sentinel .. => "sentinel"
  | .constructorParameter => "constructor-parameter"
  | .external => "external"
  | .name => "name"

/-- The kind of a payload by its form alone: a sentinel, else a library name,
else a constructor parameter, else a plain name. -/
def classify (prefixes : Prefixes) (payload : String) : PayloadKind :=
  match Sentinel.ofPayload? payload with
  | some asked => .sentinel asked
  | none =>
      if Text.startsWith prefixes.library payload then .external
      else if Text.startsWith prefixes.parameter payload then .constructorParameter
      else .name

end PayloadKind

end Gloss
