import SealedMessaging.Json.Shape

/-!
# Numerals

* `Numeral.scan`: the parts of a numeral at the front of a text.
* `Numeral.value`: the number of a numeral. Its digits are gathered in an integer of 64 bits for as
  long as they fit; a power of ten makes up for the rest.
-/

namespace SealedMessaging.Json

/-- What is left of a text. -/
abbrev Text := List Char

/-- The parts of a numeral, digits as numbers. -/
structure Numeral where
  negative : Bool
  /-- The digits before the point. -/
  whole : List Nat
  /-- The digits after the point; none if there is no point. -/
  fraction : List Nat
  /-- The exponent, if there is one: whether it is negative, and its digits. -/
  exponent : Option (Bool × List Nat)
  deriving DecidableEq

namespace Numeral

/-- The value of a digit. -/
def digitValue (c : Char) : Nat := c.toNat - 48

/-- The digits at the front of a text, and what follows them. -/
def scanDigits (t : Text) : List Nat × Text :=
  ((t.takeWhile Char.isDigit).map digitValue, t.dropWhile Char.isDigit)

/-- The digits at the front of a text, of which there must be one. `atEnd` is the reason to stop
where the text ends instead. -/
def scanSomeDigits (atEnd : Stop) (t : Text) : Except Stop (List Nat × Text) :=
  match scanDigits t with
  | ([], []) => .error atEnd
  | ([], _ :: _) => .error .malformed
  | scanned => .ok scanned

/-- The digits before the point, without a zero in front of others. -/
def scanWhole (atEnd : Stop) (t : Text) : Except Stop (List Nat × Text) := do
  let (digits, rest) ← scanSomeDigits atEnd t
  match digits with
  | 0 :: _ :: _ => .error .malformed
  | _ => return (digits, rest)

/-- The digits after the point, if there is one. -/
def scanFraction (atEnd : Stop) : Text → Except Stop (List Nat × Text)
  | '.' :: t => scanSomeDigits atEnd t
  | t => .ok ([], t)

/-- The sign in front of an exponent: whether it is negative, and what follows. -/
def scanSign : Text → Bool × Text
  | '+' :: t => (false, t)
  | '-' :: t => (true, t)
  | t => (false, t)

/-- The exponent, if there is one. -/
def scanExponent (atEnd : Stop) : Text → Except Stop (Option (Bool × List Nat) × Text)
  | [] => .ok (none, [])
  | c :: t =>
    if c = 'e' ∨ c = 'E' then do
      let (negative, t) := scanSign t
      let (digits, t) ← scanSomeDigits atEnd t
      return (some (negative, digits), t)
    else .ok (none, c :: t)

/-- **The numeral at the front of a text.** `atEnd` is the reason to stop where the text ends in the
middle of it. -/
def scan (atEnd : Stop) (t : Text) : Except Stop (Numeral × Text) := do
  let (negative, t) := match t with
    | '-' :: t => (true, t)
    | t => (false, t)
  let (whole, t) ← scanWhole atEnd t
  let (fraction, t) ← scanFraction atEnd t
  let (exponent, t) ← scanExponent atEnd t
  return (⟨negative, whole, fraction, exponent⟩, t)

/-- The greatest integer of 64 bits. -/
def maxInteger : Nat := Nat.pow 2 64 - 1

/-- The greatest exponent that is read. -/
def maxExponent : Nat := Nat.pow 2 31 - 1

/-- Appends digits to a number for as long as it stays within a bound; also gives the digits that
are left. -/
def gather (bound : Nat) : (n : Nat) → List Nat → Nat × List Nat
  | n, [] => (n, [])
  | n, d :: rest => if bound < n * 10 + d then (n, d :: rest) else gather bound (n * 10 + d) rest

/-- A floating-point number, unless it was too large. -/
def float (negative : Bool) (m : Option Magnitude) : Except Stop Number :=
  match m with
  | some m => .ok (.float negative m)
  | none => .error .malformed

/-- The number `significand * 10 ^ scale`, further scaled by an exponent. An exponent beyond the
bound makes zero of it or too large a number. -/
def scaledValue (negative : Bool) (significand : Nat) (scale : Int) :
    Option (Bool × List Nat) → Except Stop Number
  | none => float negative ((Magnitude.ofNat? significand).bind (Magnitude.timesPowerOfTen? 4 · scale))
  | some (down, digits) =>
    match gather maxExponent 0 digits with
    | (e, []) =>
      let scale := if down then scale - e else scale + e
      float negative ((Magnitude.ofNat? significand).bind (Magnitude.timesPowerOfTen? 4 · scale))
    | _ =>
      if significand ≠ 0 ∧ !down then .error .malformed
      else .ok (.float negative Magnitude.zero)

/-- **The number of a numeral.** Without a point and an exponent it is an integer if that fits; a
negative zero never does. -/
def value (n : Numeral) : Except Stop Number :=
  let (significand, dropped) := gather maxInteger 0 n.whole
  match n.fraction, n.exponent, dropped with
  | [], none, [] =>
    if !n.negative then .ok (.integer significand)
    else if 1 ≤ significand ∧ significand ≤ Nat.pow 2 63 then .ok (.integer (-(significand : Int)))
    else float true (Magnitude.ofNat? significand)
  | fraction, exponent, dropped =>
    let (significand, ignored) := gather maxInteger significand fraction
    let scale : Int := dropped.length - (fraction.length - ignored.length : Nat)
    scaledValue n.negative significand scale exponent

end Numeral

end SealedMessaging.Json
