import Gloss.Check

/-!
# Analyzers by name

An analyzer is named by a module and, after a colon, by the path of a callable
in it.  What can be found under such names is fixed.
-/

namespace Gloss

inductive Named where
  | module (name : String)
  /-- The function that reads and resolves a text. -/
  | analyze
  | parse
  | resolverClass
  | resolverMethod
  | publicNames
  deriving DecidableEq, Repr

inductive LoadFault where
  | malformed (name : String)
  | unknownModule (name : String)
  | unknownMember (owner : Named) (member : String)
  | notCallable (name : String)
  deriving DecidableEq, Repr

namespace Named

def modules : List String := ["fixturelang", "fixturelang.analyzer", "fixturelang.parser"]

def member? : Named → String → Option Named
  | .module "fixturelang", "analyze" | .module "fixturelang.analyzer", "analyze" =>
      some .analyze
  | .module _, "parse" => some .parse
  | .module "fixturelang", "SemanticAnalyzer"
  | .module "fixturelang.analyzer", "SemanticAnalyzer" => some .resolverClass
  | .module "fixturelang", "analyzer" => some (.module "fixturelang.analyzer")
  | .module "fixturelang", "parser" => some (.module "fixturelang.parser")
  | .module _, "__all__" => some .publicNames
  | .resolverClass, "analyze" => some .resolverMethod
  | _, _ => none

def describe : Named → String
  | .module name => "module '" ++ name ++ "'"
  | .analyze | .parse | .resolverMethod => "'function' object"
  | .resolverClass => "type object 'SemanticAnalyzer'"
  | .publicNames => "'list' object"

def isCallable : Named → Bool
  | .analyze | .parse | .resolverClass | .resolverMethod => true
  | .module _ | .publicNames => false

def label : Named → String
  | .analyze | .resolverMethod => "analyze"
  | .parse => "parse"
  | .resolverClass => "SemanticAnalyzer"
  | .module name => name
  | .publicNames => "__all__"

def follow (owner : Named) : List String → Except LoadFault Named
  | [] => .ok owner
  | member :: rest =>
      match owner.member? member with
      | none => .error (.unknownMember owner member)
      | some found => follow found rest

def load (name : String) : Except LoadFault Named :=
  let moduleName := (Text.splitOn ':' name).headD ""
  let path := Text.dropFirst (moduleName.length + 1) name
  if moduleName = "" || path = "" then .error (.malformed name)
  else
    let package := (Text.splitOn '.' moduleName).headD ""
    if moduleName ∉ modules then
      .error (.unknownModule (if package ∈ modules then moduleName else package))
    else
      match follow (.module moduleName) (Text.splitOn '.' path) with
      | .error fault => .error fault
      | .ok found => if found.isCallable then .ok found else .error (.notCallable name)

end Named

namespace LoadFault

def message : LoadFault → String
  | .malformed name =>
      "Analyzer must be given as 'module:callable', got " ++ Text.Quoted.encode name
  | .unknownModule name => "No module named " ++ Text.Quoted.encode name
  | .unknownMember owner member =>
      owner.describe ++ " has no attribute '" ++ member ++ "'"
  | .notCallable name => name ++ " is not callable"

end LoadFault

end Gloss
