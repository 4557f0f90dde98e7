import SealedMessaging.Json.Shape

/-!
# Records in values

A record is written as an object with a member for each of its fields, or as a list of the fields in
order.

* `Field`: a field and how its value is taken into what has been read so far.
* `Record.read`: the record of a value. An object is read in ascending order of its names, and what
  is missing is found at the end; a list is read in order, and what is too much is found at the end.
-/

namespace SealedMessaging.Json

/-- A field of a record that is being put together in a state `σ`. -/
structure Field (σ : Type) where
  name : String
  take : σ → Value → Except ShapeFault σ

/-- A kind of record. -/
structure Record (σ α : Type) where
  label : String
  fields : List (Field σ)
  /-- Whether other members are refused. -/
  strict : Bool
  /-- The state before anything has been read. -/
  start : σ
  /-- The record, if nothing is missing. -/
  finish : σ → Except ShapeFault α

namespace Record

variable {σ α : Type}

/-- What is expected of a list: its number of items. -/
def listLabel (r : Record σ α) : String :=
  r.label ++ " with " ++ toString r.fields.length ++
    (if r.fields.length = 1 then " element" else " elements")

/-- Takes in the members of an object. -/
def takeMembers (r : Record σ α) : σ → List (String × Value) → Except ShapeFault σ
  | s, [] => .ok s
  | s, (name, v) :: rest =>
    match r.fields.find? (·.name = name) with
    | some field => do takeMembers r (← field.take s v) rest
    | none =>
      if r.strict then .error (.unknownField name (r.fields.map (·.name)))
      else takeMembers r s rest

/-- Takes in the items of a list, one for each field that is left. `total` is the length of the
whole list. -/
def takeItems (r : Record σ α) (total : Nat) : List (Field σ) → σ → List Value → Except ShapeFault σ
  | [], s, [] => .ok s
  | [], _, _ :: _ => .error (.wrongLength total "fewer elements in array")
  | _ :: _, _, [] => .error (.wrongLength total r.listLabel)
  | field :: fields, s, v :: rest => do
    takeItems r total fields (← field.take s v) rest

/-- **The record of a value.** -/
def read (r : Record σ α) : Value → Except ShapeFault α
  | .object members => do r.finish (← r.takeMembers r.start members)
  | .array items => do r.finish (← r.takeItems items.length r.fields r.start items)
  | v => .error (.wrongType v.found r.label)

end Record

/-- What has been read of a field, which must not be missing. -/
def required {α : Type} (name : String) : Option α → Except ShapeFault α
  | some a => .ok a
  | none => .error (.missingField name)

end SealedMessaging.Json
