import SealedMessaging.Bytes.Hex
import SealedMessaging.Json.Value
import SealedMessaging.Identity

/-!
# Values of the wrong shape

What a value is and what was expected instead, and the ways of stopping before a text has been read.

* `ShapeFault`, `ShapeFault.message`: well-formed JSON that is not what was expected.
* `Stop`: why reading a text stops.
* `Value.asByte`, `Value.asString`, `Value.asId`: values as simple things.
-/

namespace SealedMessaging.Json

/-- What was found in the place of something else. -/
inductive Found where
  | null
  | bool (b : Bool)
  | number (n : Number)
  | string (s : String)
  | sequence
  | map
  deriving DecidableEq

/-- How a finding is called. -/
def Found.label : Found → String
  | .null => "null"
  | .bool b => "boolean `" ++ toString b ++ "`"
  | .number (.integer n) => "integer `" ++ toString n ++ "`"
  | .number (.float negative m) => "floating point `" ++ m.text negative ++ "`"
  | .string s => "string " ++ quotedText s
  | .sequence => "sequence"
  | .map => "map"

/-- What is wrong with the shape of a value. -/
inductive ShapeFault where
  | wrongType (found : Found) (expected : String)
  /-- A value out of range. -/
  | wrongValue (found : Found) (expected : String)
  /-- A list with too few or too many items. -/
  | wrongLength (length : Nat) (expected : String)
  | missingField (name : String)
  | duplicateField (name : String)
  /-- A member that does not belong there, with those that do. -/
  | unknownField (name : String) (known : List String)
  | badId (fault : Hex.Fault)
  deriving DecidableEq

/-- A name between backquotes. -/
def backquoted (name : String) : String :=
  "`" ++ name ++ "`"

/-- The names that were expected. -/
def expectedNames : List String → String
  | [] => "there are no fields"
  | [a] => "expected " ++ backquoted a
  | [a, b] => "expected " ++ backquoted a ++ " or " ++ backquoted b
  | names => "expected one of " ++ ", ".intercalate (names.map backquoted)

/-- The text of a fault. -/
def ShapeFault.message : ShapeFault → String
  | .wrongType found expected => "invalid type: " ++ found.label ++ ", expected " ++ expected
  | .wrongValue found expected => "invalid value: " ++ found.label ++ ", expected " ++ expected
  | .wrongLength length expected =>
    "invalid length " ++ toString length ++ ", expected " ++ expected
  | .missingField name => "missing field " ++ backquoted name
  | .duplicateField name => "duplicate field " ++ backquoted name
  | .unknownField name known => "unknown field " ++ backquoted name ++ ", " ++ expectedNames known
  | .badId fault => Id.hexMessage fault

/-- Why reading a text stops before its end. -/
inductive Stop where
  /-- The text is not JSON, or a number or the nesting is too large. -/
  | malformed
  | cutShort
  /-- What has been read is not what was expected. -/
  | shape (fault : ShapeFault)
  deriving DecidableEq

namespace Value

/-- What a value is found to be. -/
def found : Value → Found
  | .null => .null
  | .bool b => .bool b
  | .number n => .number n
  | .string s => .string s
  | .array _ => .sequence
  | .object _ => .map

/-- **A value as a byte**: an integer from 0 to 255. -/
def asByte : Value → Except ShapeFault UInt8
  | .number (.integer n) =>
    if 0 ≤ n ∧ n ≤ 255 then .ok (UInt8.ofNat n.toNat)
    else .error (.wrongValue (.number (.integer n)) "u8")
  | v => .error (.wrongType v.found "u8")

/-- A value as a text. -/
def asString : Value → Except ShapeFault String
  | .string s => .ok s
  | v => .error (.wrongType v.found "a string")

/-- The identifier a text stands for. -/
def idOfText (text : String) : Except ShapeFault Id :=
  (Id.ofHex text).mapError .badId

/-- A value as an identifier, which is written as a text. -/
def asId (v : Value) : Except ShapeFault Id := do
  idOfText (← v.asString)

end Value

end SealedMessaging.Json
