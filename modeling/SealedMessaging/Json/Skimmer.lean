import SealedMessaging.Json.Reader

/-!
# Passing over values

A value that nobody asks for is passed over without being built. Its form is checked, but not what
it means: surrogates need no partner, numbers have no limit, and neither has the nesting.

* `skimString`, `skimNumber`: the parts.
* `skim`: any value. The brackets that are open are kept in a list.
-/

namespace SealedMessaging.Json

/-- Passes over what follows a backslash. -/
def skimEscape : Text → Except Stop Text
  | [] => .error .cutShort
  | 'u' :: t => (readFourHex t).map Prod.snd
  | c :: t => if (unescape? c).isSome then .ok t else .error .malformed

/-- Passes over a string behind its opening quote; `bound` is greater than the number of characters
left. -/
def skimStringRest : (bound : Nat) → Text → Except Stop Text
  | 0, _ => .error .cutShort
  | _ + 1, [] => .error .cutShort
  | bound + 1, c :: t =>
    if c = '"' then .ok t
    else if c = '\\' then do skimStringRest bound (← skimEscape t)
    else if c.toNat < 0x20 then .error .malformed
    else skimStringRest bound t

/-- Passes over a string behind its opening quote. -/
def skimString (t : Text) : Except Stop Text :=
  skimStringRest (t.length + 1) t

/-- Passes over a number. One that is cut short is malformed. -/
def skimNumber (t : Text) : Except Stop Text :=
  (Numeral.scan .malformed t).map Prod.snd

/-- Passes over a value that holds no others. -/
def skimScalar : Text → Except Stop Text
  | [] => .error .cutShort
  | c :: t =>
    if c = 'n' then readWord ['u', 'l', 'l'] t
    else if c = 't' then readWord ['r', 'u', 'e'] t
    else if c = 'f' then readWord ['a', 'l', 's', 'e'] t
    else if c = '"' then skimString t
    else if c = '-' ∨ c.isDigit then skimNumber (c :: t)
    else .error .malformed

/-- An open bracket. -/
inductive Bracket where
  | list
  | object
  deriving DecidableEq

/-- The character that closes a bracket. -/
def Bracket.closing : Bracket → Char
  | .list => ']'
  | .object => '\x7d'

/-- Passes over what stands in front of a value inside a bracket: nothing, or a name and a colon. -/
def Bracket.skimEntry (b : Bracket) (t : Text) : Except Stop Text :=
  match b with
  | .list => .ok t
  | .object => do
    let t ← readChar '"' (skipBlanks t)
    readColon (← skimString t)

/-- What comes next. -/
inductive Phase where
  /-- A value. -/
  | value
  /-- What follows an opening bracket. -/
  | opened
  /-- What follows a value inside a bracket. -/
  | passed
  deriving DecidableEq

/-- Passes over the rest of a value inside the given brackets, innermost first. -/
def skimRest : (bound : Nat) → List Bracket → Phase → Text → Except Stop Text
  | 0, _, _, _ => .error .cutShort
  | bound + 1, brackets, .value, t =>
    match skipBlanks t with
    | '[' :: rest => skimRest bound (.list :: brackets) .opened rest
    | '\x7b' :: rest => skimRest bound (.object :: brackets) .opened rest
    | t => do skimRest bound brackets .passed (← skimScalar t)
  | _ + 1, [], _, t => .ok t
  | bound + 1, b :: brackets, phase, t =>
    match skipBlanks t with
    | [] => .error .cutShort
    | c :: rest =>
      if c = b.closing then skimRest bound brackets .passed rest
      else if phase = .opened then do
        skimRest bound (b :: brackets) .value (← b.skimEntry (c :: rest))
      else if c = ',' then do
        skimRest bound (b :: brackets) .value (← b.skimEntry rest)
      else .error .malformed

/-- **Passes over a value.** -/
def skim (t : Text) : Except Stop Text :=
  skimRest (2 * t.length + 2) [] .value t

end SealedMessaging.Json
