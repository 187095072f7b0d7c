/-!
# Documents

The plain data that reports, outlines and settings are made of: texts,
numbers, lists and objects whose members keep their order.
-/

namespace Gloss

/-- A value of plain data. -/
inductive Document where
  | null
  | boolean (value : Bool)
  | integer (value : Int)
  | decimal (digits : Int) (places : Nat)
  | text (value : String)
  | list (items : List Document)
  | object (members : List (String × Document))
  deriving Repr, Inhabited

namespace Document

def texts (items : List String) : Document :=
  .list (items.map .text)

def natural (value : Nat) : Document := .integer value

def optional : Option Document → Document
  | none => .null
  | some document => document

end Document

end Gloss
