import SealedMessaging.Bytes.Utf8
import SealedMessaging.Text.Quoted

/-!
# Hex text

Two digits per byte, high half first. Writing uses lower case; reading takes either case.

* `Hex.encode`, `Hex.decode`: the two directions.
* `Hex.Fault`: what keeps a text from being hex, and the order in which it is found.
-/

namespace SealedMessaging.Hex

/-- Why a text is not the hex form of a byte string. -/
inductive Fault where
  /-- The number of bytes of the text is odd. -/
  | oddLength
  /-- The text does not have two digits for each byte of the wanted length. -/
  | wrongLength
  /-- The byte at a position of the text is not a hex digit. -/
  | badDigit (byte : UInt8) (position : Nat)
  deriving DecidableEq, Repr

/-- The digit for a number below sixteen, in lower case. -/
def digit (n : Nat) : Char :=
  if n < 10 then Char.ofNat (48 + n) else Char.ofNat (87 + n)

/-- The two digits of a byte. -/
def pair (b : UInt8) : List Char :=
  [digit (b.toNat / 16), digit (b.toNat % 16)]

/-- The hex digits of a byte string. -/
def digits (bs : Bytes) : List Char :=
  bs.flatMap pair

/-- **The hex text of a byte string**, in lower case. -/
def encode (bs : Bytes) : String :=
  String.ofList (digits bs)

/-- The value of a digit of either case, given by its ASCII code. -/
def value? (b : UInt8) : Option UInt8 :=
  if 48 ≤ b ∧ b ≤ 57 then some (b - 48)
  else if 65 ≤ b ∧ b ≤ 70 then some (b - 55)
  else if 97 ≤ b ∧ b ≤ 102 then some (b - 87)
  else none

/-- The value of the digit at a position of the text. -/
def valueAt (b : UInt8) (position : Nat) : Except Fault UInt8 :=
  match value? b with
  | some v => .ok v
  | none => .error (.badDigit b position)

/-- Reads pairs of digits that start at a position of the text. -/
def decodePairs : Bytes → (position : Nat) → Except Fault Bytes
  | high :: low :: rest, position => do
    let h ← valueAt high position
    let l ← valueAt low (position + 1)
    return (h * 16 + l) :: (← decodePairs rest (position + 2))
  | _, _ => .ok []

/-- **The byte string a hex text stands for.** An odd length is found before a bad digit. -/
def decode (text : String) : Except Fault Bytes :=
  let bs := utf8 text
  if bs.length % 2 = 1 then .error .oddLength else decodePairs bs 0

/-- The `n` bytes a hex text stands for. A wrong length is found after an odd one and before a
bad digit. -/
def decodeExact (n : Nat) (text : String) : Except Fault (Octets n) :=
  let bs := utf8 text
  if bs.length % 2 = 1 then .error .oddLength
  else if bs.length ≠ 2 * n then .error .wrongLength
  else (decodePairs bs 0).map (Octets.fit n)

/-- The text of a fault. A bad byte is shown as the Latin-1 character it is the code of. -/
def Fault.message : Fault → String
  | .oddLength => "Odd number of digits"
  | .wrongLength => "Invalid string length"
  | .badDigit byte position =>
    "Invalid character " ++ quotedChar (Char.ofNat byte.toNat) ++ " at position " ++ toString position

end SealedMessaging.Hex
