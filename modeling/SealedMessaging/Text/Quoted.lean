import SealedMessaging.Text.Printable

/-!
# Quoted text

Text in messages is shown between quotes. The quote itself, the backslash and five controls have a
letter behind a backslash; any other character that does not stand for itself is shown by number.

* `escapeChar`: one character.
* `quotedText`, `quotedChar`: a text between double quotes, a character between single ones.
-/

namespace SealedMessaging

/-- The letter behind the backslash for a character that has one. -/
def escapeLetter? (quote c : Char) : Option Char :=
  if c = '\x00' then some '0'
  else if c = '\t' then some 't'
  else if c = '\n' then some 'n'
  else if c = '\r' then some 'r'
  else if c = '\\' ∨ c = quote then some c
  else none

/-- **A character as it is shown** between quotes of a given kind. -/
def escapeChar (quote c : Char) : List Char :=
  match escapeLetter? quote c with
  | some letter => ['\\', letter]
  | none =>
    if standsForItself c then [c]
    else ['\\', 'u', '\x7b'] ++ Nat.toDigits 16 c.toNat ++ ['\x7d']

/-- A text between double quotes. -/
def quotedText (text : String) : String :=
  String.ofList ('"' :: (text.toList.flatMap (escapeChar '"') ++ ['"']))

/-- A character between single quotes. -/
def quotedChar (c : Char) : String :=
  String.ofList ('\'' :: (escapeChar '\'' c ++ ['\'']))

end SealedMessaging
