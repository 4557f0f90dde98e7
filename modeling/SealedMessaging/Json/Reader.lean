import SealedMessaging.Json.Numeral

/-!
# Reading JSON

Readers take what is left of a text and give what they have read with what is left then.

* `readString`, `readScalar`: texts and other values that hold no others.
* `nextItem`, `nextMember`: the steps through a list and an object.
* `readValue`: any value, with a bound on its nesting.
* `Value.parse`: a text that is one value.
-/

namespace SealedMessaging.Json

/-- A reader of something. -/
abbrev Reader (α : Type) := Text → Except Stop (α × Text)

/-- Whether a character may stand between the parts of a text. -/
def isBlank (c : Char) : Bool :=
  c == ' ' || c == '\n' || c == '\t' || c == '\r'

/-- The text without the blanks in front. -/
def skipBlanks (t : Text) : Text :=
  t.dropWhile isBlank

/-- Reads the given characters. -/
def readWord : List Char → Text → Except Stop Text
  | [], t => .ok t
  | _ :: _, [] => .error .cutShort
  | c :: word, d :: t => if c = d then readWord word t else .error .malformed

/-! ## Strings -/

/-- The character a letter stands for behind a backslash. -/
def unescape? : Char → Option Char
  | '"' => some '"'
  | '\\' => some '\\'
  | '/' => some '/'
  | 'b' => some '\x08'
  | 'f' => some '\x0c'
  | 'n' => some '\n'
  | 'r' => some '\r'
  | 't' => some '\t'
  | _ => none

/-- The value of a hex digit. -/
def hexValue? (c : Char) : Option Nat :=
  if c.toNat < 128 then (Hex.value? (UInt8.ofNat c.toNat)).map UInt8.toNat else none

/-- The value of four hex digits. -/
def fourHexValue? (a b c d : Char) : Option Nat := do
  let a ← hexValue? a
  let b ← hexValue? b
  let c ← hexValue? c
  let d ← hexValue? d
  return ((a * 16 + b) * 16 + c) * 16 + d

/-- Reads four hex digits. A text with fewer than four bytes left is cut short, whatever they are. -/
def readFourHex (t : Text) : Except Stop (Nat × Text) :=
  if (utf8Chars (t.take 4)).length < 4 then .error .cutShort
  else match t with
    | a :: b :: c :: d :: rest =>
      match fourHexValue? a b c d with
      | some n => .ok (n, rest)
      | none => .error .malformed
    | _ => .error .malformed

/-- Whether a number is the first half of a surrogate pair. -/
def isHighSurrogate (n : Nat) : Bool :=
  0xD800 ≤ n && n ≤ 0xDBFF

/-- Whether a number is the second half of a surrogate pair. -/
def isLowSurrogate (n : Nat) : Bool :=
  0xDC00 ≤ n && n ≤ 0xDFFF

/-- Reads one given character. -/
def readChar (c : Char) : Text → Except Stop Text
  | [] => .error .cutShort
  | d :: t => if c = d then .ok t else .error .malformed

/-- Reads what follows `\u`: four hex digits, and four more behind another `\u` for the second half
of a surrogate pair. -/
def readCodePoint (t : Text) : Except Stop (Char × Text) := do
  let (n, t) ← readFourHex t
  if isLowSurrogate n then .error .malformed
  else if !isHighSurrogate n then return (Char.ofNat n, t)
  else
    let t ← readChar '\\' t
    let t ← readChar 'u' t
    let (low, t) ← readFourHex t
    if isLowSurrogate low then
      return (Char.ofNat (0x10000 + (n - 0xD800) * 0x400 + (low - 0xDC00)), t)
    else .error .malformed

/-- Reads what follows a backslash. -/
def readEscape : Text → Except Stop (Char × Text)
  | [] => .error .cutShort
  | 'u' :: t => readCodePoint t
  | c :: t =>
    match unescape? c with
    | some c => .ok (c, t)
    | none => .error .malformed

/-- Reads a string behind its opening quote. `acc` holds what has been read, last character first;
`bound` is greater than the number of characters left. -/
def readStringRest : (bound : Nat) → (acc : List Char) → Text → Except Stop (String × Text)
  | 0, _, _ => .error .cutShort
  | _ + 1, _, [] => .error .cutShort
  | bound + 1, acc, c :: t =>
    if c = '"' then .ok (String.ofList acc.reverse, t)
    else if c = '\\' then do
      let (c, t) ← readEscape t
      readStringRest bound (c :: acc) t
    else if c.toNat < 0x20 then .error .malformed
    else readStringRest bound (c :: acc) t

/-- **Reads a string** behind its opening quote. -/
def readString (t : Text) : Except Stop (String × Text) :=
  readStringRest (t.length + 1) [] t

/-! ## Values -/

/-- Reads a number. -/
def readNumber (t : Text) : Except Stop (Number × Text) := do
  let (numeral, t) ← Numeral.scan .cutShort t
  return (← numeral.value, t)

/-- **Reads a value that holds no others.** -/
def readScalar : Text → Except Stop (Value × Text)
  | [] => .error .cutShort
  | c :: t =>
    if c = 'n' then do return (.null, ← readWord ['u', 'l', 'l'] t)
    else if c = 't' then do return (.bool true, ← readWord ['r', 'u', 'e'] t)
    else if c = 'f' then do return (.bool false, ← readWord ['a', 'l', 's', 'e'] t)
    else if c = '"' then do
      let (s, t) ← readString t
      return (.string s, t)
    else if c = '-' ∨ c.isDigit then do
      let (n, t) ← readNumber (c :: t)
      return (.number n, t)
    else .error .malformed

/-- Where a step through a list or an object leads. -/
inductive Next (α : Type) where
  /-- Past the closing bracket. -/
  | done (rest : Text)
  /-- To another part. -/
  | part (a : α) (rest : Text)

/-- **The next item of a list**: the text from the item on. -/
def nextItem (first : Bool) (t : Text) : Except Stop (Next Unit) :=
  match skipBlanks t with
  | [] => .error .cutShort
  | c :: rest =>
    if c = ']' then .ok (.done rest)
    else if first then .ok (.part () (c :: rest))
    else if c = ',' then
      match skipBlanks rest with
      | [] => .error .cutShort
      | d :: rest => if d = ']' then .error .malformed else .ok (.part () (d :: rest))
    else .error .malformed

/-- Reads the name of a member at its opening quote. -/
def readName : Text → Except Stop (Next String)
  | [] => .error .cutShort
  | c :: t =>
    if c = '"' then do
      let (name, t) ← readString t
      return .part name t
    else .error .malformed

/-- **The next member of an object**: its name and the text behind it. -/
def nextMember (first : Bool) (t : Text) : Except Stop (Next String) :=
  match skipBlanks t with
  | [] => .error .cutShort
  | c :: rest =>
    if c = '\x7d' then .ok (.done rest)
    else if first then readName (c :: rest)
    else if c = ',' then readName (skipBlanks rest)
    else .error .malformed

/-- Reads the colon behind a name. -/
def readColon (t : Text) : Except Stop Text :=
  readChar ':' (skipBlanks t)

/-- Reads the items of a list behind its opening bracket with a reader for each. -/
def readItems (read : Reader Value) :
    (bound : Nat) → (first : Bool) → (acc : List Value) → Text → Except Stop (List Value × Text)
  | 0, _, _, _ => .error .cutShort
  | bound + 1, first, acc, t => do
    match ← nextItem first t with
    | .done rest => return (acc.reverse, rest)
    | .part () t =>
      let (v, t) ← read t
      readItems read bound false (v :: acc) t

/-- Reads the members of an object behind its opening bracket with a reader for each value. The
last of several members with one name counts. -/
def readMembers (read : Reader Value) :
    (bound : Nat) → (first : Bool) → (acc : List (String × Value)) → Text →
      Except Stop (List (String × Value) × Text)
  | 0, _, _, _ => .error .cutShort
  | bound + 1, first, acc, t => do
    match ← nextMember first t with
    | .done rest => return (acc, rest)
    | .part name t =>
      let t ← readColon t
      let (v, t) ← read t
      readMembers read bound false (insertEntry name v acc) t

/-- **Reads a value** with at most `depth` lists and objects inside each other. -/
def readValue : (depth : Nat) → Text → Except Stop (Value × Text)
  | depth, t =>
    match skipBlanks t with
    | '[' :: rest =>
      match depth with
      | 0 => .error .malformed
      | depth + 1 => do
        let (items, rest) ← readItems (readValue depth) (rest.length + 1) true [] rest
        return (.array items, rest)
    | '\x7b' :: rest =>
      match depth with
      | 0 => .error .malformed
      | depth + 1 => do
        let (members, rest) ← readMembers (readValue depth) (rest.length + 1) true [] rest
        return (.object members, rest)
    | t => readScalar t

/-- How many lists and objects may stand inside each other. -/
def maxDepth : Nat := 127

/-- What has been read, if only blanks are left. -/
def readEnd {α : Type} (a : α) (rest : Text) : Except Stop α :=
  match skipBlanks rest with
  | [] => .ok a
  | _ :: _ => .error .malformed

/-- **The value a text is.** -/
def Value.parse (text : String) : Except Stop Value := do
  let (v, rest) ← readValue maxDepth text.toList
  readEnd v rest

end SealedMessaging.Json
