import Gloss.Typing.Descriptor

/-!
# The library

The classes and functions that every file can see.  Besides them there is a
class of functions for each number of parameters; such a class can be asked
for by name once a type has been made from it.
-/

namespace Gloss

/-- A class with its constructor parameters and its members. -/
structure ClassEntry where
  descriptor : ClassDescriptor
  parameters : List ParameterDescriptor := []
  members : List Descriptor := []
  deriving DecidableEq, Repr

namespace ClassEntry

def membersNamed (entry : ClassEntry) (name : String) : List Descriptor :=
  entry.members.filter fun member => member.name = name

end ClassEntry

namespace Library

def plainClass (name : String) : ClassDescriptor where
  name
  declaration := none
  constructor :=
    { origin := .library name, name, kind := .class
      isTop := name = "Any", isBottom := name = "Nothing" }
  typeParameters := []

def plainType (name : String) : NominalType := { constructor := (plainClass name).constructor }

def any : NominalType := plainType "Any"

def unit : NominalType := plainType "Unit"

def int : NominalType := plainType "Int"

def string : NominalType := plainType "String"

def boolean : NominalType := plainType "Boolean"

def nothing : NominalType := plainType "Nothing"

def typeParameter (owner : String) (container : Option String) (name : String) :
    TypeParameterDescriptor where
  name
  declaration := none
  container
  constructor := { origin := .libraryParameter owner name, name, kind := .typeParameter }

def listParameter : TypeParameterDescriptor := typeParameter "List" (some "List") "T"

def listClass : ClassDescriptor where
  name := "List"
  declaration := none
  constructor := { origin := .library "List", name := "List", kind := .class }
  typeParameters := [listParameter]

def list (element : NominalType) : NominalType :=
  { constructor := listClass.constructor, arguments := [element] }

def parametersOf (parameters : List (String × NominalType)) : List ParameterDescriptor :=
  parameters.mapIdx fun index parameter =>
    { name := parameter.1, declaration := none, type := parameter.2, index }

def memberFunction (owner name : String) (parameters : List (String × NominalType))
    (returnType : NominalType) : Descriptor :=
  .function
    { name, declaration := none, container := some owner, typeParameters := []
      parameters := parametersOf parameters, returnType := some returnType }

def memberProperty (owner name : String) (type : NominalType) : Descriptor :=
  .variable (.property
    { name, declaration := none, container := some owner, type := some type, binding := .val })

def anyClass : ClassEntry where
  descriptor := plainClass "Any"
  members :=
    [memberFunction "Any" "equals" [("other", any.withNullable true)] boolean,
      memberFunction "Any" "toString" [] string]

def classes : List ClassEntry :=
  [anyClass,
    { descriptor := plainClass "Unit" },
    { descriptor := plainClass "Int"
      members :=
        ["plus", "minus", "times", "div", "rem", "compareTo"].map
            (fun name => memberFunction "Int" name [("other", int)] int) ++
          [memberFunction "Int" "toString" [] string] },
    { descriptor := plainClass "String"
      members :=
        [memberProperty "String" "length" int,
          memberFunction "String" "plus" [("other", any.withNullable true)] string] },
    { descriptor := plainClass "Boolean" },
    { descriptor := plainClass "Nothing" },
    { descriptor := listClass
      members :=
        [memberProperty "List" "size" int,
          memberFunction "List" "get" [("index", int)]
            { constructor := listParameter.constructor }] }]

def genericFunction (name parameter : String) (returnType : NominalType → NominalType) :
    FunctionDescriptor :=
  let element := typeParameter name none "T"
  let type : NominalType := { constructor := element.constructor }
  { name, declaration := none, container := none, typeParameters := [element]
    parameters := parametersOf [(parameter, type)], returnType := some (returnType type) }

def functions : List FunctionDescriptor :=
  [{ name := "println", declaration := none, container := none, typeParameters := []
     parameters := parametersOf [("message", any)], returnType := some unit },
    genericFunction "listOf" "element" list,
    genericFunction "identity" "value" id]

def functionClass (arity : Nat) : ClassDescriptor :=
  let name := s!"Function{arity}"
  let parameter (index : Nat) : TypeParameterDescriptor :=
    let label := if index < arity then s!"P{index + 1}" else "R"
    { name := label, declaration := none, container := some name
      constructor :=
        { origin := .functionParameter arity index, name := label, kind := .typeParameter } }
  { name, declaration := none
    constructor := { origin := .function arity, name, kind := .class }
    typeParameters := (List.range (arity + 1)).map parameter }

/-- The type of functions with the given parameter types and result type. -/
def functionType (parameters : List NominalType) (result : NominalType)
    (nullable : Bool) : NominalType where
  constructor := (functionClass parameters.length).constructor
  arguments := parameters ++ [result]
  nullable

def functionArity? (type : NominalType) : Option Nat :=
  match type.constructor.origin with
  | .function arity => some arity
  | _ => none

def functionParts? (type : NominalType) : Option (List NominalType × NominalType) :=
  match functionArity? type, type.arguments.getLast? with
  | some _, some result => some (type.arguments.dropLast, result)
  | _, _ => none

/-- The class with a name: one of the library, else a class of functions that
has been used. -/
def classifier? (arities : List Nat) (name : String) : Option ClassEntry :=
  match classes.find? fun entry => entry.descriptor.name = name with
  | some entry => some entry
  | none =>
      let used := arities.map fun arity => ({ descriptor := functionClass arity } : ClassEntry)
      used.find? fun entry => entry.descriptor.name = name

/-- The part of a dotted name before its last dot, and the part after it. -/
def splitQualified (name : String) : String × String :=
  let characters := name.toList
  if characters.contains '.' then
    let last := (characters.reverse.takeWhile (· != '.')).reverse
    (String.ofList (characters.take (characters.length - last.length - 1)), String.ofList last)
  else ("", name)

def function? (name : String) : Option Descriptor :=
  let (owner, last) := splitQualified name
  if owner = "" then
    (functions.find? fun declared => declared.name = last).map .function
  else
    (classes.find? fun entry => entry.descriptor.name = owner).bind fun entry =>
      (entry.membersNamed last).head?

end Library

end Gloss
