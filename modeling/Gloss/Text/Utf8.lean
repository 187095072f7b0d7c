import Gloss.Text.Basic

/-!
# UTF-8

Decoding goes through the bytes once and remembers the character that it is in
the middle of.  Overlong forms, surrogates and numbers beyond the last code
point are ruled out by the range of the second byte.
-/

namespace Gloss.Text.Utf8

inductive Reason where
  | invalidStart
  | invalidContinuation
  | unexpectedEnd
  deriving DecidableEq, Repr

/-- Bytes that cannot be decoded. -/
structure Defect where
  reason : Reason
  first : UInt8
  offset : Nat
  length : Nat
  deriving DecidableEq, Repr

/-- A character that is not complete yet. -/
structure Partial where
  first : UInt8
  offset : Nat
  /-- The bits read so far, as a number. -/
  value : Nat
  missing : Nat
  low : Nat
  high : Nat
  deriving DecidableEq, Repr

def Reason.message : Reason → String
  | .invalidStart => "invalid start byte"
  | .invalidContinuation => "invalid continuation byte"
  | .unexpectedEnd => "unexpected end of data"

def Defect.message (defect : Defect) : String :=
  let bytes :=
    if defect.length = 1 then
      "byte 0x" ++ String.ofList (hexadecimal 2 defect.first.toNat) ++
        s!" in position {defect.offset}"
    else s!"bytes in position {defect.offset}-{defect.offset + defect.length - 1}"
  "'utf-8' codec can't decode " ++ bytes ++ ": " ++ defect.reason.message

/-- How a character of several bytes begins: the bits of the first byte, the
number of further bytes and the range of the second byte. -/
def lead? (byte : Nat) : Option (Nat × Nat × Nat × Nat) :=
  if 0xc2 ≤ byte && byte ≤ 0xdf then some (byte - 0xc0, 1, 0x80, 0xbf)
  else if byte = 0xe0 then some (0, 2, 0xa0, 0xbf)
  else if byte = 0xed then some (0xd, 2, 0x80, 0x9f)
  else if 0xe1 ≤ byte && byte ≤ 0xef then some (byte - 0xe0, 2, 0x80, 0xbf)
  else if byte = 0xf0 then some (0, 3, 0x90, 0xbf)
  else if 0xf1 ≤ byte && byte ≤ 0xf3 then some (byte - 0xf0, 3, 0x80, 0xbf)
  else if byte = 0xf4 then some (4, 3, 0x80, 0x8f)
  else none

/-- Decodes bytes from an offset on, after some characters in reverse order. -/
def decodeFrom : (offset : Nat) → Option Partial → (reversed : List Char) →
    List UInt8 → Except Defect (List Char)
  | _, none, reversed, [] => .ok reversed.reverse
  | offset, some started, _, [] =>
      .error
        { reason := .unexpectedEnd, first := started.first, offset := started.offset
          length := offset - started.offset }
  | offset, none, reversed, byte :: rest =>
      if byte.toNat < 0x80 then
        decodeFrom (offset + 1) none (Char.ofNat byte.toNat :: reversed) rest
      else
        match lead? byte.toNat with
        | none => .error { reason := .invalidStart, first := byte, offset, length := 1 }
        | some (value, missing, low, high) =>
            decodeFrom (offset + 1) (some { first := byte, offset, value, missing, low, high })
              reversed rest
  | offset, some started, reversed, byte :: rest =>
      if started.low ≤ byte.toNat && byte.toNat ≤ started.high then
        let value := started.value * 64 + (byte.toNat - 0x80)
        if started.missing ≤ 1 then
          decodeFrom (offset + 1) none (Char.ofNat value :: reversed) rest
        else
          decodeFrom (offset + 1)
            (some { started with
              value, missing := started.missing - 1, low := 0x80, high := 0xbf })
            reversed rest
      else
        .error
          { reason := .invalidContinuation, first := started.first, offset := started.offset
            length := offset - started.offset }

def decode (bytes : List UInt8) : Except Defect (List Char) := decodeFrom 0 none [] bytes

end Gloss.Text.Utf8
