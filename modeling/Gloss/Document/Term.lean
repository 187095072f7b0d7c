import Gloss.Document
import Gloss.Text.Quoted

/-!
# Documents as terms

How a value of plain data is named and shown in messages.
-/

namespace Gloss.Document

def kindName : Document → String
  | .null => "NoneType"
  | .boolean _ => "bool"
  | .integer _ => "int"
  | .decimal _ _ => "float"
  | .text _ => "str"
  | .list _ => "list"
  | .object _ => "dict"

/-- The digits of a number without the zeros at its end, and their count. -/
def withoutTrailingZeros (digits : List Char) : List Char :=
  (digits.reverse.dropWhile (· == '0')).reverse

/-- A decimal number in positional notation, with at least one digit after the
point. -/
def positional (digits : Int) (places : Nat) : String :=
  let sign := if digits < 0 then "-" else ""
  let scale := Nat.pow 10 places
  let fraction := withoutTrailingZeros (Text.zeroPadded places (digits.natAbs % scale)).toList
  let shown := if fraction.isEmpty then "0" else String.ofList fraction
  sign ++ toString (digits.natAbs / scale) ++ "." ++ shown

def scientific (digits : Int) (places : Nat) : String :=
  let sign := if digits < 0 then "-" else ""
  let written := Nat.toDigits 10 digits.natAbs
  let exponent : Int := (written.length : Int) - 1 - places
  let first := written.take 1
  let fraction := withoutTrailingZeros (written.drop 1)
  let point := if fraction.isEmpty then "" else "." ++ String.ofList fraction
  let exponentSign := if exponent < 0 then "-" else "+"
  sign ++ String.ofList first ++ point ++ "e" ++ exponentSign ++
    Text.zeroPadded 2 exponent.natAbs

/-- A decimal number; positional notation is kept to magnitudes from one in ten
thousand up to ten to the sixteenth. -/
def decimalTerm (digits : Int) (places : Nat) : String :=
  let magnitude := digits.natAbs
  if magnitude = 0 then "0.0"
  else if Nat.pow 10 places ≤ magnitude * 10000 && magnitude < Nat.pow 10 (16 + places) then
    positional digits places
  else scientific digits places

mutual

def term : Document → String
  | .null => "None"
  | .boolean true => "True"
  | .boolean false => "False"
  | .integer value => toString value
  | .decimal digits places => decimalTerm digits places
  | .text value => Text.Quoted.encode value
  | .list items => "[" ++ Text.joined ", " (terms items) ++ "]"
  | .object members => "\x7b" ++ Text.joined ", " (memberTerms members) ++ "\x7d"

def terms : List Document → List String
  | [] => []
  | item :: rest => term item :: terms rest

def memberTerms : List (String × Document) → List String
  | [] => []
  | (key, value) :: rest =>
      (Text.Quoted.encode key ++ ": " ++ term value) :: memberTerms rest

end

end Gloss.Document
