import SealedMessaging.Json.Record
import SealedMessaging.Json.Skimmer

/-!
# The envelope of a snapshot

An envelope holds a number that tells the kind of material and a value with its data. It is an object
with the members `keyType` and `keyData`, others being passed over, or a list of the two.

* `Envelope.record`, `Envelope.ofValue`: the envelope of a value.
* `Envelope.read`: the envelope at the front of a text, read from left to right up to the first
  fault. The data are built as a value; what is passed over is not.
-/

namespace SealedMessaging.Snapshot

open Json

/-- What a snapshot consists of. -/
structure Envelope where
  /-- The number of the kind of material. -/
  keyType : UInt8
  keyData : Value

namespace Envelope

/-- What has been read of an envelope. -/
structure Partial where
  keyType : Option UInt8
  keyData : Option Value

namespace Partial

/-- Nothing. -/
def empty : Partial := ⟨none, none⟩

/-- The envelope, if nothing is missing. -/
def finish (p : Partial) : Except ShapeFault Envelope := do
  let keyType ← required "keyType" p.keyType
  let keyData ← required "keyData" p.keyData
  return ⟨keyType, keyData⟩

end Partial

/-- **The record of an envelope.** -/
def record : Record Partial Envelope where
  label := "struct RawEnvelope"
  fields :=
    [⟨"keyType", fun p v => do return { p with keyType := some (← v.asByte) }⟩,
     ⟨"keyData", fun p v => .ok { p with keyData := some v }⟩]
  strict := false
  start := .empty
  finish := Partial.finish

/-- The envelope of a value. -/
def ofValue (v : Value) : Except ShapeFault Envelope :=
  record.read v

/-! ## Reading from a text -/

/-- A shape that is at fault, as a reason to stop. -/
def shaped {α : Type} (result : Except ShapeFault α) : Except Stop α :=
  result.mapError .shape

/-- How deep the data may be nested inside an envelope. -/
def dataDepth : Nat := maxDepth - 1

/-- Reads the number of an envelope. A list or an object is refused unread. -/
def readByte (t : Text) : Except Stop (UInt8 × Text) :=
  match skipBlanks t with
  | '[' :: _ => .error (.shape (.wrongType .sequence "u8"))
  | '\x7b' :: _ => .error (.shape (.wrongType .map "u8"))
  | t => do
    let (v, t) ← readScalar t
    return (← shaped v.asByte, t)

/-- Reads an envelope written as a list, behind its opening bracket. -/
def readList (t : Text) : Except Stop (Envelope × Text) := do
  match ← nextItem true t with
  | .done _ => .error (.shape (.wrongLength 0 record.listLabel))
  | .part () t =>
    let (keyType, t) ← readByte t
    match ← nextItem false t with
    | .done _ => .error (.shape (.wrongLength 1 record.listLabel))
    | .part () t =>
      let (keyData, t) ← readValue dataDepth t
      return (⟨keyType, keyData⟩, ← readChar ']' (skipBlanks t))

/-- Reads an envelope written as an object, behind its opening bracket. A name that is there twice is
refused before its value is looked at. -/
def readObject : (bound : Nat) → (first : Bool) → Partial → Text → Except Stop (Envelope × Text)
  | 0, _, _, _ => .error .cutShort
  | bound + 1, first, p, t => do
    match ← nextMember first t with
    | .done rest => return (← shaped p.finish, rest)
    | .part name t =>
      if name = "keyType" then
        if p.keyType.isSome then .error (.shape (.duplicateField name))
        else
          let (keyType, t) ← readByte (← readColon t)
          readObject bound false { p with keyType := some keyType } t
      else if name = "keyData" then
        if p.keyData.isSome then .error (.shape (.duplicateField name))
        else
          let (keyData, t) ← readValue dataDepth (← readColon t)
          readObject bound false { p with keyData := some keyData } t
      else readObject bound false p (← skim (← readColon t))

/-- **The envelope at the front of a text.** -/
def read (t : Text) : Except Stop (Envelope × Text) :=
  match skipBlanks t with
  | '[' :: rest => readList rest
  | '\x7b' :: rest => readObject (rest.length + 1) true .empty rest
  | t => do
    let (v, _) ← readScalar t
    .error (.shape (.wrongType v.found record.label))

end Envelope

end SealedMessaging.Snapshot
