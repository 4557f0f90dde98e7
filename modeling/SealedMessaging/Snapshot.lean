import SealedMessaging.Json.Printer
import SealedMessaging.Material
import SealedMessaging.Snapshot.Envelope

/-!
# Snapshots of key material

Material is written as a JSON text and read again without knowing its kind beforehand. All keys are
written in hex and pass the same checks as anywhere else when they are read.

* `Snapshot.write`: the text of a material.
* `Snapshot.decode`: the material of an envelope.
* `Snapshot.ofText`, `Snapshot.ofValue`, `Snapshot.ofDocument`: the material of a text, of a value,
  and of a text whose data are taken as they come, before its end has been seen.
-/

namespace SealedMessaging.Snapshot

open Json

/-! ## Writing -/

/-- The hex text of a byte string, between quotes. -/
def printHex (bs : Bytes) : Text :=
  printString (Hex.digits bs)

/-- The data of shared material as they are written. -/
def printShared (m : SharedMaterial) : Text :=
  printObject [("key".toList, printHex m.key.toBytes)]

/-- The public keys of a directory as they are written. -/
def printDirectory (d : Directory) : Text :=
  printObject (d.entries.map fun (id, key) => (Hex.digits id.octets.toList, printHex key.toBytes))

/-- The data of a signer's material as they are written. -/
def printSigner (m : SignerMaterial) : Text :=
  printObject
    [("signerId".toList, printHex m.id.octets.toList),
     ("privateKey".toList, printHex m.key.toBytes),
     ("c2PublicKey".toList, printHex m.controller.toList),
     ("pubKeys".toList, printDirectory m.directory)]

/-- A material as it is written. -/
def print : Material → Text
  | .shared m => printObject [("keyType".toList, ['0']), ("keyData".toList, printShared m)]
  | .signer m => printObject [("keyType".toList, ['1']), ("keyData".toList, printSigner m)]

/-- **The text of a material.** -/
def write (m : Material) : String :=
  String.ofList (print m)

/-! ## Reading -/

/-- What goes wrong when a snapshot is read. -/
inductive Fault where
  /-- It is not JSON or has the wrong shape. -/
  | json (stop : Stop)
  | unknownKeyType (tag : UInt8)
  | badHex (field : String) (fault : Hex.Fault)
  | material (fault : MaterialFault)
  deriving DecidableEq

/-- The text of a fault; JSON that is malformed or cut short has none. -/
def Fault.message? : Fault → Option String
  | .json (.shape fault) => some ("json error: " ++ fault.message)
  | .json _ => none
  | .unknownKeyType tag => some ("unknown key type: " ++ toString tag.toNat)
  | .badHex field fault => some ("invalid hex in " ++ field ++ ": " ++ fault.message)
  | .material fault => some ("invalid key material: " ++ fault.message)

/-- The kind of material with a number. -/
def keyTypeOf (tag : UInt8) : Except Fault KeyType :=
  match KeyType.ofTag? tag with
  | some keyType => .ok keyType
  | none => .error (.unknownKeyType tag)

/-- The byte string of a field in hex. -/
def hexField (field text : String) : Except Fault Bytes :=
  (Hex.decode text).mapError (.badHex field)

/-- A shape that is at fault, as a fault of a snapshot. -/
def shaped {α : Type} (result : Except ShapeFault α) : Except Fault α :=
  result.mapError fun fault => .json (.shape fault)

/-- The record of the data of shared material: its key in hex. -/
def sharedRecord : Record (Option String) String where
  label := "struct SymKeyData"
  fields := [⟨"key", fun _ v => v.asString.map some⟩]
  strict := true
  start := none
  finish := required "key"

/-- The data of a signer's material, keys in hex. -/
structure SignerData where
  id : Id
  privateKey : String
  controller : String
  publicKeys : SortedMap Id String

/-- What has been read of the data of a signer's material. -/
structure PartialSigner where
  id : Option Id
  privateKey : Option String
  controller : Option String
  publicKeys : Option (SortedMap Id String)

/-- The data of a signer's material, if nothing is missing. -/
def PartialSigner.finish (p : PartialSigner) : Except ShapeFault SignerData := do
  let id ← required "signerId" p.id
  let privateKey ← required "privateKey" p.privateKey
  let controller ← required "c2PublicKey" p.controller
  let publicKeys ← required "pubKeys" p.publicKeys
  return ⟨id, privateKey, controller, publicKeys⟩

/-- Takes public keys in. In each member the identifier comes before the key; of several members for
one identifier the last counts. -/
def takePublicKeys : SortedMap Id String → List (String × Value) →
    Except ShapeFault (SortedMap Id String)
  | keys, [] => .ok keys
  | keys, (name, v) :: rest => do
    let id ← Value.idOfText name
    let key ← v.asString
    takePublicKeys (keys.insert id key) rest

/-- The public keys of a value, which must be an object. -/
def publicKeysOf : Value → Except ShapeFault (SortedMap Id String)
  | .object members => takePublicKeys .empty members
  | v => .error (.wrongType v.found "a map")

/-- The record of the data of a signer's material. -/
def signerRecord : Record PartialSigner SignerData where
  label := "struct PubKeyData"
  fields :=
    [⟨"signerId", fun p v => do return { p with id := some (← v.asId) }⟩,
     ⟨"privateKey", fun p v => do return { p with privateKey := some (← v.asString) }⟩,
     ⟨"c2PublicKey", fun p v => do return { p with controller := some (← v.asString) }⟩,
     ⟨"pubKeys", fun p v => do return { p with publicKeys := some (← publicKeysOf v) }⟩]
  strict := true
  start := ⟨none, none, none, none⟩
  finish := PartialSigner.finish

/-- The shared material of a value. -/
def decodeShared (v : Value) : Except Fault SharedMaterial := do
  let text ← shaped (sharedRecord.read v)
  let key ← hexField "key" text
  (SharedMaterial.ofBytes key).mapError .material

/-- Registers public keys in hex one after the other. -/
def addPublicKeys : SignerMaterial → List (Id × String) → Report Fault SignerMaterial
  | m, [] => pure m
  | m, (id, text) :: rest => do
    let key ← Report.ofExcept (hexField "pubKeys" text)
    let m ← (m.addPublicKey id.octets.toList key).mapError .material
    addPublicKeys m rest

/-- The signer's material of a value. Every public key that is registered on the way is reported. -/
def decodeSigner (v : Value) : Report Fault SignerMaterial := do
  let data ← Report.ofExcept (shaped (signerRecord.read v))
  let privateKey ← Report.ofExcept (hexField "privateKey" data.privateKey)
  let controller ← Report.ofExcept (hexField "c2PublicKey" data.controller)
  let m ← Report.ofExcept
    ((SignerMaterial.ofBytes data.id.octets.toList privateKey controller).mapError .material)
  addPublicKeys m data.publicKeys.entries

/-- **The material of an envelope.** The kind comes before the data. -/
def decode (envelope : Envelope) : Report Fault Material := do
  match ← Report.ofExcept (keyTypeOf envelope.keyType) with
  | .shared => return .shared (← Report.ofExcept (decodeShared envelope.keyData))
  | .signer => return .signer (← decodeSigner envelope.keyData)

/-- The envelope that a whole text is. -/
def envelopeOfText (text : String) : Except Stop Envelope := do
  let (envelope, rest) ← Envelope.read text.toList
  readEnd envelope rest

/-- **The material of a text.** The text is read to its end before its data are looked at. -/
def ofText (text : String) : Report Fault Material := do
  let envelope ← Report.ofExcept ((envelopeOfText text).mapError .json)
  decode envelope

/-- **The material of a value.** -/
def ofValue (v : Value) : Report Fault Material := do
  let envelope ← Report.ofExcept (shaped (Envelope.ofValue v))
  decode envelope

/-- The material of the value that a text is. -/
def ofValueText (text : String) : Report Fault Material := do
  let v ← Report.ofExcept ((Value.parse text).mapError .json)
  ofValue v

/-- What goes wrong when a snapshot is read as a document. -/
inductive DocumentFault where
  /-- Reading stops. -/
  | reading (stop : Stop)
  /-- What has been read is refused. -/
  | contents (fault : Fault)
  deriving DecidableEq

/-- The text of a fault, if it has one. -/
def DocumentFault.message? : DocumentFault → Option String
  | .reading (.shape fault) => some fault.message
  | .reading _ => none
  | .contents fault => fault.message?

/-- **The material of a document**: its data are looked at as soon as the envelope has been read, and
what follows it afterwards. -/
def ofDocument (text : String) : Report DocumentFault Material := do
  let (envelope, rest) ← Report.ofExcept ((Envelope.read text.toList).mapError .reading)
  let m ← (decode envelope).mapError .contents
  Report.ofExcept ((readEnd m rest).mapError .reading)

/-- The ways to read a snapshot. -/
inductive Route where
  | text
  /-- As a text that is parsed to a value first. -/
  | value
  | document
  deriving DecidableEq, Repr

/-- What goes wrong on one of the ways to read a snapshot. -/
inductive LoadFault where
  /-- As a text or a value. -/
  | snapshot (fault : Fault)
  | document (fault : DocumentFault)
  deriving DecidableEq

/-- The text of a fault, if it has one. -/
def LoadFault.message? : LoadFault → Option String
  | .snapshot fault => fault.message?
  | .document fault => fault.message?

/-- **Reads a snapshot** one way or another. -/
def load (route : Route) (text : String) : Report LoadFault Material :=
  match route with
  | .text => (ofText text).mapError .snapshot
  | .value => (ofValueText text).mapError .snapshot
  | .document => (ofDocument text).mapError .document

end SealedMessaging.Snapshot
