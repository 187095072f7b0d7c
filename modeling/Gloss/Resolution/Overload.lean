import Gloss.Typing.Library

/-!
# Choosing among overloads

A candidate is judged by its signature alone.  It is applicable when the
arguments fit its parameters once its own type variables are inferred; among
the applicable candidates the one with the most exact parameters is chosen.
-/

namespace Gloss

/-- A candidate with the types that a call has to fit. -/
structure Signature where
  candidate : Descriptor
  parameters : List NominalType
  result : NominalType
  unknowns : List TypeConstructor
  deriving DecidableEq, Repr

/-- A candidate that accepts the arguments. -/
structure Applicable where
  candidate : Descriptor
  substitution : Substitution
  result : NominalType
  /-- The number of parameters whose constructor is that of the argument. -/
  score : Nat
  deriving DecidableEq, Repr

/-- What the choice among candidates comes to. -/
inductive Choice where
  | none
  | mismatch (only : Signature)
  /-- None of several candidates accepts the arguments. -/
  | inapplicable
  /-- Several candidates fit equally well. -/
  | ambiguous (winners : List Applicable)
  | chosen (best : Applicable)
  deriving DecidableEq, Repr

namespace Signature

def inferred (signature : Signature) (arguments : List NominalType) : Substitution :=
  if signature.unknowns.isEmpty then .empty
  else
    NominalType.inferAll signature.unknowns signature.parameters arguments .empty

def accept? (signature : Signature) (arguments : List NominalType) : Option Applicable :=
  if signature.parameters.length ≠ arguments.length then .none
  else
    let substitution := signature.inferred arguments
    let parameters := signature.parameters.map (NominalType.substitute substitution)
    let pairs := arguments.zip parameters
    if pairs.all fun pair => pair.1.isSubtype pair.2 then
      .some
        { candidate := signature.candidate, substitution
          result := signature.result.substitute substitution
          score := pairs.countP fun pair => pair.1.constructor = pair.2.constructor }
    else .none

end Signature

namespace Choice

def best (applicable : List Applicable) : Nat :=
  applicable.foldl (fun score candidate => max score candidate.score) 0

def among (signatures : List Signature) (arguments : List NominalType) : Choice :=
  let applicable := signatures.filterMap fun signature => signature.accept? arguments
  let winners := applicable.filter fun candidate => candidate.score = best applicable
  match winners, signatures with
  | [winner], _ => .chosen winner
  | first :: second :: rest, _ => .ambiguous (first :: second :: rest)
  | [], [] => .none
  | [], [only] => .mismatch only
  | [], _ => .inapplicable

end Choice

end Gloss
