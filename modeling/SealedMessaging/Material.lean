import SealedMessaging.Frame
import SealedMessaging.Message
import SealedMessaging.Password

/-!
# Key material of a client

A client either shares one command key with its controller or signs with a key of its own. Both
kinds protect messages under topic keys, which the material does not keep.

* `SharedMaterial`, `SignerMaterial`: the two kinds and their constructors.
* `Material.protect`, `Material.unprotect`, `Material.unprotectCommand`: the uses, which change
  nothing.
* `Material.setKey` and the changes of a signer's directory: the material after the change.
-/

namespace SealedMessaging

/-- Material of a client that shares a command key with its controller. -/
structure SharedMaterial where
  key : SymmetricKey
  deriving DecidableEq

/-- Material of a client that signs its messages. -/
structure SignerMaterial where
  id : Id
  /-- The key it signs with. -/
  key : SecretKey
  /-- The controller's key to agree with. -/
  controller : Octets 32
  /-- The keys of the signers it trusts. -/
  directory : Directory
  deriving DecidableEq

/-- Key material of either kind. -/
inductive Material where
  /-- With a shared command key. -/
  | shared (m : SharedMaterial)
  /-- With a signing key. -/
  | signer (m : SignerMaterial)
  deriving DecidableEq

/-- The kinds of material. -/
inductive KeyType where
  | shared
  | signer
  deriving DecidableEq, Repr

/-- The number a kind is written as. -/
def KeyType.tag : KeyType → UInt8
  | .shared => 0
  | .signer => 1

/-- The kind a number stands for. -/
def KeyType.ofTag? (tag : UInt8) : Option KeyType :=
  if tag = 0 then some .shared
  else if tag = 1 then some .signer
  else none

namespace SharedMaterial

/-- Material with the key of the given bytes. -/
def ofBytes (key : Bytes) : Except MaterialFault SharedMaterial :=
  ((SymmetricKey.ofBytes key).map mk).mapError .crypto

/-- Material with the key of a password. -/
def ofPassword (password : String) : Except MaterialFault SharedMaterial :=
  ((Password.symmetricKey password).map mk).mapError .crypto

/-- Opens a command sealed under the command key. -/
def unprotectCommand (m : SharedMaterial) (now : Instant) (frame : Bytes) :
    Report MaterialFault Bytes :=
  (Frame.unprotect now frame m.key.toBytes).mapError .crypto

/-- Replaces the command key. -/
def setKey (_ : SharedMaterial) (key : Bytes) : Report MaterialFault SharedMaterial := do
  let m ← Report.ofExcept (ofBytes key)
  Report.log .commandKeyRotated
  return m

end SharedMaterial

namespace SignerMaterial

/-- Material with a given secret key and an empty directory. The identifier is checked before the
controller's key. -/
def ofKey (id : Bytes) (key : SecretKey) (controller : Bytes) :
    Except MaterialFault SignerMaterial := do
  let id ← (Id.ofBytes id).mapError .input
  let controller ← (nonzeroOctetsOf .agreementKey 32 controller).mapError .input
  return ⟨id, key, controller, SortedMap.empty⟩

/-- Material with the secret key of the given bytes, which is checked first. -/
def ofBytes (id key controller : Bytes) : Except MaterialFault SignerMaterial := do
  let key ← (SecretKey.ofBytes key).mapError .crypto
  ofKey id key controller

/-- Material with the secret key of a password, which is checked first. -/
def ofPassword (id : Bytes) (password : String) (controller : Bytes) :
    Except MaterialFault SignerMaterial := do
  let key ← (Password.secretKey password).mapError .crypto
  ofKey id key controller

/-- Signs a message and seals it under a topic key. -/
def protect (m : SignerMaterial) (now : Instant) (payload topicKey : Bytes) :
    Except MaterialFault Bytes :=
  (Frame.protect now (SignedMessage.make m.id m.key payload).toBytes topicKey).mapError .crypto

/-- **Opens a message** and verifies its signer, whose key must be in the directory. -/
def unprotect (m : SignerMaterial) (now : Instant) (frame topicKey : Bytes) :
    Report MaterialFault Bytes := do
  let opened ← (Frame.unprotect now frame topicKey).mapError .crypto
  let message ← Report.ofExcept (SignedMessage.ofBytes opened)
  match SortedMap.get? m.directory message.signer with
  | none =>
    Report.log (.signerUnknown message.signer)
    Report.fail (.signerUnknown message.signer)
  | some key =>
    Report.ofExcept (message.verify key)
    return message.payload

/-- Opens a command sealed under the key agreed with the controller. -/
def unprotectCommand (m : SignerMaterial) (now : Instant) (frame : Bytes) :
    Report MaterialFault Bytes := do
  let agreed := m.key.agree m.controller
  let key ← Report.ofExcept ((SymmetricKey.ofShared agreed.toList).mapError .crypto)
  (Frame.unprotect now frame key.toBytes).mapError .crypto

/-- Replaces the secret key. -/
def setKey (m : SignerMaterial) (key : Bytes) : Report MaterialFault SignerMaterial := do
  let key ← Report.ofExcept ((SecretKey.ofBytes key).mapError .crypto)
  Report.log (.privateKeyRotated m.id)
  return { m with key }

/-- Registers the public key of a signer. -/
def addPublicKey (m : SignerMaterial) (id key : Bytes) : Report MaterialFault SignerMaterial := do
  let directory ← (Directory.add m.directory id key).mapError .directory
  return { m with directory }

/-- The public key of a signer. -/
def publicKeyOf (m : SignerMaterial) (id : Bytes) : Except MaterialFault PublicKey := do
  let id ← (Id.ofBytes id).mapError .input
  (Directory.get m.directory id).mapError .directory

/-- Removes the public key of a signer, who must have one. -/
def removePublicKey (m : SignerMaterial) (id : Bytes) : Report MaterialFault SignerMaterial := do
  let id ← Report.ofExcept ((Id.ofBytes id).mapError .input)
  let directory ← (Directory.remove m.directory id).mapError .directory
  return { m with directory }

/-- Removes all public keys. -/
def clearPublicKeys (m : SignerMaterial) : Report MaterialFault SignerMaterial := do
  let directory ← Directory.clear m.directory
  return { m with directory }

end SignerMaterial

namespace Material

/-- The kind of material. -/
def keyType : Material → KeyType
  | .shared _ => .shared
  | .signer _ => .signer

/-- **Protects a message** under a topic key; a signer signs it first. -/
def protect (m : Material) (now : Instant) (payload topicKey : Bytes) :
    Except MaterialFault Bytes :=
  match m with
  | .shared _ => (Frame.protect now payload topicKey).mapError .crypto
  | .signer m => m.protect now payload topicKey

/-- **Opens a message** received under a topic key; a signer verifies it. -/
def unprotect (m : Material) (now : Instant) (frame topicKey : Bytes) :
    Report MaterialFault Bytes :=
  match m with
  | .shared _ => (Frame.unprotect now frame topicKey).mapError .crypto
  | .signer m => m.unprotect now frame topicKey

/-- **Opens a command** of the controller. -/
def unprotectCommand (m : Material) (now : Instant) (frame : Bytes) : Report MaterialFault Bytes :=
  match m with
  | .shared m => m.unprotectCommand now frame
  | .signer m => m.unprotectCommand now frame

/-- Replaces the command key or the secret key. -/
def setKey (m : Material) (key : Bytes) : Report MaterialFault Material :=
  match m with
  | .shared m => do return .shared (← m.setKey key)
  | .signer m => do return .signer (← m.setKey key)

end Material

end SealedMessaging
