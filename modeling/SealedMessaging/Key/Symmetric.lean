import SealedMessaging.Digest.Sha3
import SealedMessaging.Fault

/-!
# Symmetric keys

* `SymmetricKey.ofBytes`: a key from outside, which must have 32 bytes and not be zero.
* `SymmetricKey.ofShared`: the key derived from an agreed secret.
-/

namespace SealedMessaging

/-- A key of 32 octets. -/
structure SymmetricKey where
  octets : Octets 32
  deriving DecidableEq

namespace SymmetricKey

/-- **The key with the given bytes**, which must be 32 and not all zero. -/
def ofBytes (bs : Bytes) : Except CryptoFault SymmetricKey :=
  checked ((nonzeroOctetsOf .symmetricKey 32 bs).map mk)

/-- The bytes of a key. -/
def toBytes (key : SymmetricKey) : Bytes :=
  key.octets.toList

/-- The hex text of a key. -/
def toHex (key : SymmetricKey) : String :=
  Hex.encode key.toBytes

/-- The key derived from an agreed secret, which is its digest. -/
def ofShared (secret : Bytes) : Except CryptoFault SymmetricKey :=
  ofBytes (sha3 secret).toList

end SymmetricKey

end SealedMessaging
