import SealedMessaging.Curve.Signature
import SealedMessaging.Fault

/-!
# Public signing keys

A public key is 32 octets that are not all zero. Whether they are a point of the curve shows when
the key is used.

* `PublicKey.ofBytes`, `PublicKey.ofHex`: reading a key.
* `PublicKey.toAgreement`: the key to agree with that belongs to the same secret.
* `PublicKey.verify`: verification of signatures.
-/

namespace SealedMessaging

/-- The public key of a signer. -/
structure PublicKey where
  octets : Octets 32
  deriving DecidableEq

namespace PublicKey

/-- **The key with the given bytes**, which must be 32 and not all zero. -/
def ofBytes (bs : Bytes) : Except CryptoFault PublicKey :=
  checked ((nonzeroOctetsOf .publicKey 32 bs).map mk)

/-- The bytes of a key. -/
def toBytes (key : PublicKey) : Bytes :=
  key.octets.toList

/-- The hex text of a key. -/
def toHex (key : PublicKey) : String :=
  Hex.encode key.toBytes

/-- A text without the mark `0x` in front, if it has one. -/
def unmarked : List Char → List Char
  | '0' :: 'x' :: digits => digits
  | text => text

/-- **The key of a hex text**, which may carry the mark `0x` in front. -/
def ofHex (text : String) : Except CryptoFault PublicKey :=
  match Hex.decode (String.ofList (unmarked text.toList)) with
  | .error fault => .error (.keyText fault)
  | .ok bs => ofBytes bs

/-- The key to agree with that belongs to the same secret. -/
def toAgreement (key : PublicKey) : Except CryptoFault (Octets 32) :=
  match Point.decode? key.octets with
  | none => .error .notPoint
  | some point => .ok point.toMontgomery.toOctets

/-- Strict verification of a signature. -/
def verify (key : PublicKey) (message : Bytes) (signature : Octets 64) :
    Except Signature.Fault Unit :=
  Signature.verify key.octets message signature

end PublicKey

end SealedMessaging
