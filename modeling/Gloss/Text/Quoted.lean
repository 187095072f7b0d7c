import Gloss.Text.Basic

/-!
# Quoted texts

A text between quotes, on one line and with printable characters only.
Apostrophes are the usual quote; a text that holds an apostrophe and no
double quote stands between double quotes instead.
-/

namespace Gloss.Text.Quoted

def quote (text : List Char) : Char :=
  if text.contains '\x27' && !text.contains '\x22' then '\x22' else '\x27'

def escape (quote character : Char) : List Char :=
  if character = quote || character = '\\' then ['\\', character]
  else if character = '\n' then ['\\', 'n']
  else if character = '\r' then ['\\', 'r']
  else if character = '\t' then ['\\', 't']
  else if Text.isHidden character then
    if character.toNat < 0x100 then '\\' :: 'x' :: hexadecimal 2 character.toNat
    else if character.toNat < 0x10000 then
      '\\' :: 'u' :: hexadecimal 4 character.toNat
    else '\\' :: 'U' :: hexadecimal 8 character.toNat
  else [character]

def encode (text : String) : String :=
  let quote := quote text.toList
  String.ofList (quote :: text.toList.flatMap (escape quote) ++ [quote])

end Gloss.Text.Quoted
