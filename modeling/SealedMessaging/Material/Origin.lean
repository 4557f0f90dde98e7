import SealedMessaging.Entropy
import SealedMessaging.Snapshot

/-!
# Origins of key material

Material of either kind is made of key bytes, a password or random bytes, or it is loaded.

* `Origin`: the ways to come by material.
* `Origin.make`: the material of an origin, and what is left of the source of random bytes.
-/

namespace SealedMessaging

/-- Where material comes from. -/
inductive Origin where
  /-- A command key. -/
  | sharedBytes (key : Bytes)
  /-- A password for the command key. -/
  | sharedPassword (password : String)
  /-- A random command key. -/
  | sharedRandom
  /-- A signer's secret key. -/
  | signerBytes (id key controller : Bytes)
  /-- A password for a signer's secret key. -/
  | signerPassword (id : Bytes) (password : String) (controller : Bytes)
  /-- A random secret key of a signer. -/
  | signerRandom (id controller : Bytes)
  | snapshot (route : Snapshot.Route) (text : String)
  deriving DecidableEq

/-- Why an origin gives no material. -/
inductive OriginFault where
  /-- The source of random bytes has too few. -/
  | exhausted
  | material (fault : MaterialFault)
  | load (fault : Snapshot.LoadFault)
  deriving DecidableEq

/-- The text of a fault, if it has one. -/
def OriginFault.message? : OriginFault → Option String
  | .exhausted => none
  | .material fault => some fault.message
  | .load fault => fault.message?

namespace Origin

/-- Material that needs no report. -/
def plainly (m : Except MaterialFault Material) : Report OriginFault Material :=
  .ofExcept (m.mapError .material)

/-- Material made of a random key. -/
def ofDrawn {κ : Type} (drawn : Option κ × Bytes) (make : κ → Except MaterialFault Material) :
    Report OriginFault Material × Bytes :=
  match drawn with
  | (none, rest) => (.fail .exhausted, rest)
  | (some key, rest) => (plainly (make key), rest)

/-- **The material of an origin**, and the source of random bytes afterwards. A random key is drawn
before anything is checked. -/
def make (source : Bytes) : Origin → Report OriginFault Material × Bytes
  | .sharedBytes key => (plainly ((SharedMaterial.ofBytes key).map .shared), source)
  | .sharedPassword password => (plainly ((SharedMaterial.ofPassword password).map .shared), source)
  | .sharedRandom => ofDrawn (SymmetricKey.draw source) fun key => .ok (.shared ⟨key⟩)
  | .signerBytes id key controller =>
    (plainly ((SignerMaterial.ofBytes id key controller).map .signer), source)
  | .signerPassword id password controller =>
    (plainly ((SignerMaterial.ofPassword id password controller).map .signer), source)
  | .signerRandom id controller =>
    ofDrawn (SecretKey.draw source) fun key => (SignerMaterial.ofKey id key controller).map .signer
  | .snapshot route text => ((Snapshot.load route text).mapError .load, source)

end Origin

end SealedMessaging
