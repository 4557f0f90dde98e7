import SealedMessaging.Key.Public
import SealedMessaging.Key.Symmetric

/-!
# Secret signing keys

A secret key is its seed; the public key and the secret to agree with follow from it. Outside it is
written as the seed followed by the public key.

* `SecretKey.ofBytes`, `SecretKey.toBytes`: the 64-byte form.
* `SecretKey.sign`, `SecretKey.agree`: the uses of a key.
-/

namespace SealedMessaging

/-- The secret key of a signer. -/
structure SecretKey where
  /-- The seed it is expanded from. -/
  seed : Octets 32
  deriving DecidableEq

namespace SecretKey

/-- **The public key of a secret key.** -/
def publicKey (key : SecretKey) : PublicKey :=
  ⟨Signature.publicOf key.seed⟩

/-- **The 64-byte form**: the seed, then the public key. -/
def toBytes (key : SecretKey) : Bytes :=
  key.seed.toList ++ key.publicKey.toBytes

/-- **The key of a 64-byte form.** It must not be all zero, its second half must be a point of the
curve, and that half must be, byte for byte, the public key of the seed. -/
def ofBytes (bs : Bytes) : Except CryptoFault SecretKey := do
  let pair ← checked (nonzeroOctetsOf .privateKey 64 bs)
  let key : SecretKey := ⟨Octets.fit 32 (pair.toList.take 32)⟩
  let given : Octets 32 := Octets.fit 32 (pair.toList.drop 32)
  if (Point.decode? given).isNone then .error (.keyPair .notPoint)
  else if given = key.publicKey.octets then .ok key
  else .error (.keyPair .mismatch)

/-- The secret to agree with. -/
def agreementSecret (key : SecretKey) : Octets 32 :=
  Signature.scalarBytes key.seed

/-- The secret agreed with a peer, before it is hashed. -/
def agree (key : SecretKey) (peer : Octets 32) : Octets 32 :=
  x25519 key.agreementSecret peer

/-- The signature of a message. -/
def sign (key : SecretKey) (message : Bytes) : Octets 64 :=
  Signature.sign key.seed message

end SecretKey

end SealedMessaging
