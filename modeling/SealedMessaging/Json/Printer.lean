import SealedMessaging.Json.Reader

/-!
# Writing JSON

Objects are written without blanks, their members in the order given. Texts are written as they are,
so they must not hold a quote, a backslash or a control.
-/

namespace SealedMessaging.Json

/-- A text between quotes. -/
def printString (s : Text) : Text :=
  '"' :: (s ++ ['"'])

/-- A member of an object: its name and its value as it is written. -/
def printMember (member : Text × Text) : Text :=
  printString member.1 ++ ':' :: member.2

/-- Pieces with commas between them. -/
def printPieces : List Text → Text
  | [] => []
  | [piece] => piece
  | piece :: rest => piece ++ ',' :: printPieces rest

/-- **An object** with members whose values are written already. -/
def printObject (members : List (Text × Text)) : Text :=
  '\x7b' :: (printPieces (members.map printMember) ++ ['\x7d'])

end SealedMessaging.Json
