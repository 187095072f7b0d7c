import Gloss.Table
import Gloss.Tree.Node

/-!
# Nominal types

A type is a type constructor applied to arguments, with or without null.  A
constructor belongs to exactly one class or type parameter and is identified
by its origin, so classes that merely share a name have different types.
-/

namespace Gloss

inductive ConstructorKind where
  | «class»
  | typeParameter
  | error
  deriving DecidableEq, Repr

/-- The class or type parameter that a type constructor belongs to. -/
inductive Origin where
  /-- No class at all: the constructor of the error type. -/
  | error
  | library (name : String)
  | libraryParameter (owner name : String)
  /-- The class of functions with the given number of parameters. -/
  | function (arity : Nat)
  | functionParameter (arity index : Nat)
  | declared (declaration : NodeRef)
  deriving DecidableEq, Repr

/-- What a class or a type parameter contributes to types. -/
structure TypeConstructor where
  origin : Origin
  name : String
  kind : ConstructorKind
  isTop : Bool := false
  isBottom : Bool := false
  deriving DecidableEq, Repr

/-- A type constructor applied to arguments. -/
structure NominalType where
  constructor : TypeConstructor
  arguments : List NominalType := []
  nullable : Bool := false
  deriving Repr

abbrev Substitution := Table TypeConstructor NominalType

namespace ConstructorKind

def label : ConstructorKind → String
  | .class => "class"
  | .typeParameter => "type-parameter"
  | .error => "error"

end ConstructorKind

namespace TypeConstructor

def error : TypeConstructor := { origin := .error, name := "<error>", kind := .error }

def declaration? (constructor : TypeConstructor) : Option NodeRef :=
  match constructor.origin with
  | .declared declaration => some declaration
  | _ => none

end TypeConstructor

namespace NominalType

mutual

def decideEq : (first second : NominalType) → Decidable (first = second)
  | ⟨constructor, arguments, nullable⟩, ⟨constructor', arguments', nullable'⟩ =>
      match decEq constructor constructor', decideEqAll arguments arguments',
          decEq nullable nullable' with
      | isTrue sameConstructor, isTrue sameArguments, isTrue sameNullable =>
          isTrue (by rw [sameConstructor, sameArguments, sameNullable])
      | isFalse different, _, _ => isFalse (by simp [different])
      | _, isFalse different, _ => isFalse (by simp [different])
      | _, _, isFalse different => isFalse (by simp [different])

def decideEqAll : (first second : List NominalType) → Decidable (first = second)
  | [], [] => isTrue rfl
  | [], _ :: _ => isFalse (by simp)
  | _ :: _, [] => isFalse (by simp)
  | first :: rest, first' :: rest' =>
      match decideEq first first', decideEqAll rest rest' with
      | isTrue sameFirst, isTrue sameRest => isTrue (by rw [sameFirst, sameRest])
      | isFalse different, _ => isFalse (by simp [different])
      | _, isFalse different => isFalse (by simp [different])

end

instance : DecidableEq NominalType := decideEq

def error : NominalType := { constructor := .error }

instance : Inhabited NominalType := ⟨error⟩

def isError (type : NominalType) : Bool := type.constructor.kind = .error

def isTypeParameter (type : NominalType) : Bool :=
  type.constructor.kind = .typeParameter

def withNullable (type : NominalType) (nullable : Bool) : NominalType :=
  { type with nullable }

mutual

def render : NominalType → String
  | ⟨constructor, arguments, nullable⟩ =>
      let inner := if arguments.isEmpty then ""
        else "<" ++ ", ".intercalate (renderAll arguments) ++ ">"
      constructor.name ++ inner ++ (if nullable then "?" else "")

def renderAll : List NominalType → List String
  | [] => []
  | type :: rest => render type :: renderAll rest

end

mutual

/-- Replaces type parameters by what they stand for.  The replacement of a
nullable occurrence is nullable. -/
def substitute (substitution : Substitution) : NominalType → NominalType
  | ⟨constructor, arguments, nullable⟩ =>
      match substitution.get? constructor with
      | some replacement =>
          replacement.withNullable (replacement.nullable || nullable)
      | none => ⟨constructor, substituteAll substitution arguments, nullable⟩

def substituteAll (substitution : Substitution) : List NominalType → List NominalType
  | [] => []
  | type :: rest => substitute substitution type :: substituteAll substitution rest

end

/-- Whether two type arguments agree: they have one constructor, or one of them
is an error type. -/
def argumentsAgree (first second : NominalType) : Bool :=
  first.constructor = second.constructor || first.isError || second.isError

/-- Whether values of the first type can stand where the second is expected.
Error types go with every type, so one problem does not cause another. -/
def isSubtype (sub super : NominalType) : Bool :=
  if sub.isError || super.isError then true
  else if sub.nullable && !super.nullable then false
  else if sub.constructor.isBottom || super.constructor.isTop then true
  else if sub.constructor ≠ super.constructor then false
  else if sub.arguments.length ≠ super.arguments.length then false
  else (sub.arguments.zip super.arguments).all fun pair => argumentsAgree pair.1 pair.2

/-- A type that both types are subtypes of; `top` where they have no nearer one. -/
def join (first second top : NominalType) : NominalType :=
  let nullable := first.nullable || second.nullable
  if first.isError || second.isError then error
  else if first.constructor.isBottom then second.withNullable nullable
  else if second.constructor.isBottom then first.withNullable nullable
  else if first.constructor = second.constructor then first.withNullable nullable
  else top.withNullable nullable

mutual

/-- Adds what the variables in a parameter type must stand for, so that it
becomes the argument type.  The first binding of a variable stays. -/
def infer (unknowns : List TypeConstructor) :
    (parameter argument : NominalType) → Substitution → Substitution
  | ⟨constructor, arguments, nullable⟩, argument, known =>
      if argument.isError then known
      else if constructor ∈ unknowns then
        if known.contains constructor then known
        else
          known.insert constructor (argument.withNullable (argument.nullable && !nullable))
      else if constructor = argument.constructor then
        inferAll unknowns arguments argument.arguments known
      else known

/-- Goes through parameter and argument types side by side. -/
def inferAll (unknowns : List TypeConstructor) :
    (parameters arguments : List NominalType) → Substitution → Substitution
  | parameter :: parameters, argument :: arguments, known =>
      inferAll unknowns parameters arguments (infer unknowns parameter argument known)
  | _, _, known => known

end

end NominalType

end Gloss
