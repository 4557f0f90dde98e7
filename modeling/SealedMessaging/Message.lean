import SealedMessaging.Directory
import SealedMessaging.Key.Secret

/-!
# Signed messages

Before it is sealed, a message of a signer is written as a version byte, the identifier of the
signer, a signature and the payload. The signature covers all but itself.

* `SignedMessage.signedBytes`: what is signed.
* `SignedMessage.toBytes`, `SignedMessage.ofBytes`: the written form.
* `MaterialFault`: what goes wrong with key material, messages included.
-/

namespace SealedMessaging

/-- What goes wrong with key material. -/
inductive MaterialFault where
  | input (fault : InputFault)
  /-- A key or a frame is at fault. -/
  | crypto (fault : CryptoFault)
  | directory (fault : DirectoryFault)
  /-- A message is shorter than its header. -/
  | messageTooShort (got : Nat)
  | unsupportedVersion (version : UInt8)
  /-- No public key of the signer is known. -/
  | signerUnknown (id : Id)
  | badSignature
  deriving DecidableEq

/-- A message with its signer and signature. -/
structure SignedMessage where
  signer : Id
  signature : Octets 64
  payload : Bytes
  deriving DecidableEq

namespace SignedMessage

/-- The version that is written and understood. -/
def version : UInt8 := 1

/-- The length of what stands before the payload. -/
def headerLength : Nat := 1 + 16 + 64

/-- **What is signed**: the version, the signer and the payload. -/
def signedBytes (signer : Id) (payload : Bytes) : Bytes :=
  version :: (signer.octets.toList ++ payload)

/-- The message of a signer. -/
def make (signer : Id) (key : SecretKey) (payload : Bytes) : SignedMessage :=
  ⟨signer, key.sign (signedBytes signer payload), payload⟩

/-- **The written form.** -/
def toBytes (m : SignedMessage) : Bytes :=
  version :: (m.signer.octets.toList ++ m.signature.toList ++ m.payload)

/-- **The message of a written form.** The length comes first, then the version. -/
def ofBytes (bs : Bytes) : Except MaterialFault SignedMessage :=
  if bs.length < headerLength then .error (.messageTooShort bs.length)
  else match bs with
    | [] => .error (.messageTooShort 0)
    | first :: rest =>
      if first ≠ version then .error (.unsupportedVersion first)
      else .ok
        { signer := ⟨Octets.fit 16 (rest.take 16)⟩
          signature := Octets.fit 64 ((rest.drop 16).take 64)
          payload := rest.drop 80 }

/-- Whether the signature is that of the signer's key. -/
def verify (m : SignedMessage) (key : PublicKey) : Except MaterialFault Unit :=
  (key.verify (signedBytes m.signer m.payload) m.signature).mapError fun _ => .badSignature

end SignedMessage

/-- The text of a fault. -/
def MaterialFault.message : MaterialFault → String
  | .input fault => "invalid input: " ++ fault.message
  | .crypto fault => "crypto error: " ++ fault.message
  | .directory fault => "public key store error: " ++ fault.message
  | .messageTooShort got =>
    "signed message too short: got " ++ toString got ++ " bytes, need at least " ++
      toString SignedMessage.headerLength
  | .unsupportedVersion version =>
    "unsupported signed message version: " ++ toString version.toNat
  | .signerUnknown id => "signer public key not found: " ++ id.toHex
  | .badSignature => "invalid signature"

end SealedMessaging
