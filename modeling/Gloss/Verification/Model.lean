import Gloss.Table
import Gloss.Tree.Context

/-!
# What expectations are held against

An expectation is judged by what some resolver knows about the clean text.
The resolver may be any; its nodes `ν`, descriptors `δ` and type constructors
`κ` are only compared with each other and shown in messages.
-/

namespace Gloss

/-- A type as far as it is looked at: its constructor, and the type in words. -/
structure ObservedType (κ : Type) where
  constructor : κ
  text : String
  deriving DecidableEq, Repr

/-- What a resolver knows about one text.  A position means the innermost node
of the wanted kind around it. -/
structure BindingModel (ν δ κ : Type) where
  declarationAt : Int → Option ν
  referenceAt : Int → Option ν
  expressionAt : Int → Option ν
  target : ν → Option δ
  /-- The node that declares what a reference resolves to. -/
  targetDeclaration : ν → Option ν
  isUnresolved : ν → Bool
  isAmbiguous : ν → Bool
  /-- Whether a target only stands for a failure elsewhere. -/
  isError : δ → Bool
  type : ν → Option (ObservedType κ)
  descriptor : ν → Option δ
  /-- The parameter that a constructor parameter declares beside its property. -/
  constructorParameter : ν → Option δ
  isParameter : ν → Bool
  /-- The variable that a call goes through; of anything else, itself. -/
  unwrapVariable : δ → δ
  /-- The generic form of something specialized; of anything else, itself. -/
  generic : δ → δ
  typeConstructor : ν → Option κ
  context : ν → NodeContext

/-- How a resolver's own things are put into words. -/
structure Wording (ν δ κ : Type) where
  node : ν → String
  descriptor : Option δ → String
  constructor : κ → String

/-- A resolved text together with what lies outside of it. -/
structure Analysis (ν δ κ : Type) where
  model : BindingModel ν δ κ
  wording : Wording ν δ κ
  /-- The type constructor of a library class by name. -/
  classifier : String → Option κ
  externalDescriptors : Table String δ := .empty
  /-- What some payloads mean outside of the markers. -/
  externalNodes : Table String ν := .empty

end Gloss
