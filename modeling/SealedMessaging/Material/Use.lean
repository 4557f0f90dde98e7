import SealedMessaging.Material

/-!
# Uses of key material

A use is a question to material or a change of it. Material answers to a use and is afterwards as it
was, unless the use is a change and succeeds.

* `Use`, `Answer`, `UseFault`: what is asked, what comes back, and what goes wrong.
* `Material.step`: the material after a use, and the report on it.
-/

namespace SealedMessaging

/-- What can be done with material. -/
inductive Use where
  /-- Protect a message under a topic key. -/
  | protect (payload topicKey : Bytes)
  /-- Open a message received under a topic key. -/
  | unprotect (frame topicKey : Bytes)
  /-- Open a command of the controller. -/
  | unprotectCommand (frame : Bytes)
  /-- Replace the command key or the secret key. -/
  | setKey (key : Bytes)
  | keyType
  | commandKey
  | signerId
  /-- Ask for the signer's own public key. -/
  | publicKey
  | controllerKey
  /-- Register the public key of another signer. -/
  | addPublicKey (id key : Bytes)
  /-- Ask for the public key of another signer. -/
  | publicKeyOf (id : Bytes)
  | publicKeys
  /-- Remove the public key of another signer. -/
  | removePublicKey (id : Bytes)
  | clearPublicKeys
  deriving DecidableEq

/-- What material answers. -/
inductive Answer where
  | done
  | bytes (bs : Bytes)
  | kind (keyType : KeyType)
  | keys (directory : Directory)
  deriving DecidableEq

/-- What goes wrong with a use. -/
inductive UseFault where
  | material (fault : MaterialFault)
  /-- Only shared material has what is asked for. -/
  | notShared
  /-- Only a signer has what is asked for. -/
  | notSigner
  deriving DecidableEq

/-- The text of a fault, if it has one. -/
def UseFault.message? : UseFault → Option String
  | .material fault => some fault.message
  | .notShared | .notSigner => none

namespace Material

/-- Answers a question, which changes nothing. -/
def tell (m : Material) (r : Report MaterialFault Answer) : Material × Report UseFault Answer :=
  (m, r.mapError .material)

/-- Makes a change. The material stays as it was if the change fails. -/
def change (m : Material) (r : Report MaterialFault Material) : Material × Report UseFault Answer :=
  match r.outcome with
  | .ok m' => (m', ⟨.ok .done, r.events⟩)
  | .error fault => (m, ⟨.error (.material fault), r.events⟩)

/-- Does what only a signer can do. -/
def asSigner (m : Material) (use : SignerMaterial → Material × Report UseFault Answer) :
    Material × Report UseFault Answer :=
  match m with
  | .shared _ => (m, .fail .notSigner)
  | .signer s => use s

/-- The report with a byte string as its answer. -/
def inBytes {ε : Type} (r : Report ε Bytes) : Report ε Answer := do
  return .bytes (← r)

/-- Makes a change of a signer. -/
def changeSigner (m : Material) (change' : SignerMaterial → Report MaterialFault SignerMaterial) :
    Material × Report UseFault Answer :=
  m.asSigner fun s => m.change do return .signer (← change' s)

/-- **One use of material** at an instant: the material after it, and the report on it. -/
def step (m : Material) (now : Instant) : Use → Material × Report UseFault Answer
  | .protect payload topicKey => m.tell (inBytes (.ofExcept (m.protect now payload topicKey)))
  | .unprotect frame topicKey => m.tell (inBytes (m.unprotect now frame topicKey))
  | .unprotectCommand frame => m.tell (inBytes (m.unprotectCommand now frame))
  | .setKey key => m.change (m.setKey key)
  | .keyType => m.tell (pure (.kind m.keyType))
  | .commandKey =>
    match m with
    | .shared s => m.tell (pure (.bytes s.key.toBytes))
    | .signer _ => (m, .fail .notShared)
  | .signerId => m.asSigner fun s => m.tell (pure (.bytes s.id.octets.toList))
  | .publicKey => m.asSigner fun s => m.tell (pure (.bytes s.key.publicKey.toBytes))
  | .controllerKey => m.asSigner fun s => m.tell (pure (.bytes s.controller.toList))
  | .addPublicKey id key => m.changeSigner (·.addPublicKey id key)
  | .publicKeyOf id =>
    m.asSigner fun s => m.tell (inBytes (.ofExcept ((s.publicKeyOf id).map PublicKey.toBytes)))
  | .publicKeys => m.asSigner fun s => m.tell (pure (.keys s.directory))
  | .removePublicKey id => m.changeSigner (·.removePublicKey id)
  | .clearPublicKeys => m.changeSigner (·.clearPublicKeys)

end Material

end SealedMessaging
