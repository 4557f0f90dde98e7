import SealedMessaging.Binary64.Shortest
import SealedMessaging.SortedMap

/-!
# JSON values

Integers of 64 bits are kept exactly, every other number as a floating-point number. The members of
an object are in ascending order of their names, each name once.
-/

namespace SealedMessaging.Json

/-- A number. -/
inductive Number where
  /-- An integer that fits 64 bits, with a sign if it is negative. -/
  | integer (n : Int)
  /-- Any other number, and zero with a minus sign. -/
  | float (negative : Bool) (m : Magnitude)
  deriving DecidableEq

/-- A value. -/
inductive Value where
  | null
  | bool (b : Bool)
  | number (n : Number)
  | string (s : String)
  | array (items : List Value)
  /-- Named values, ascending by name. -/
  | object (members : List (String × Value))

end SealedMessaging.Json
