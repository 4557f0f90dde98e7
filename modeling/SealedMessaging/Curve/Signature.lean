import SealedMessaging.Curve.Edwards
import SealedMessaging.Curve.Montgomery
import SealedMessaging.Digest.Sha512

/-!
# Ed25519 signatures

A signature is the encoding of a point `R` and a scalar `S`.

* `Signature.publicOf`: the public key of a seed.
* `Signature.sign`: the signature of a message.
* `Signature.verify`: strict verification, and what it refuses in which order.
-/

namespace SealedMessaging.Signature

/-- Why a signature was not accepted. -/
inductive Fault where
  | keyNotPoint
  /-- The scalar is not below the order of the group. -/
  | scalarTooLarge
  /-- `R` is no point, `R` or the key has small order, or the equation fails. -/
  | rejected
  deriving DecidableEq, Repr

/-- The text of a fault. -/
def Fault.message : Fault → String
  | .keyNotPoint => "signature error: Cannot decompress Edwards point"
  | .scalarTooLarge => "signature error: Cannot use scalar with high-bit set"
  | .rejected => "signature error: Verification equation was not satisfied"

/-- The 64 bytes a seed is expanded to. -/
def expand (seed : Octets 32) : Octets 64 :=
  sha512 seed.toList

/-- The first half of the expanded seed, which serves as an X25519 secret. -/
def scalarBytes (seed : Octets 32) : Octets 32 :=
  Octets.fit 32 ((expand seed).toList.take 32)

/-- The second half of the expanded seed, from which nonces are derived. -/
def nonceBytes (seed : Octets 32) : Bytes :=
  (expand seed).toList.drop 32

/-- The secret scalar of a seed. -/
def scalar (seed : Octets 32) : Nat :=
  Montgomery.clamp (scalarBytes seed)

/-- **The public key of a seed.** -/
def publicOf (seed : Octets 32) : Octets 32 :=
  (Point.times (scalar seed) Point.base).encode

/-- The digest of a byte string as a scalar below the order of the group. -/
def hashToScalar (bs : Bytes) : Nat :=
  (sha512 bs).toNat % Point.order

/-- **The signature** of a message under a seed. -/
def sign (seed : Octets 32) (message : Bytes) : Octets 64 :=
  let a := scalar seed
  let r := hashToScalar (nonceBytes seed ++ message)
  let R := (Point.times r Point.base).encode
  let k := hashToScalar (R.toList ++ (publicOf seed).toList ++ message)
  let S := Octets.ofNat 32 ((r + k * a) % Point.order)
  Octets.fit 64 (R.toList ++ S.toList)

/-- **Strict verification**: the key must be a point, the scalar reduced, `R` a point, neither of
small order, and `S B - k A` must have the very encoding `R`. -/
def verify (key : Octets 32) (message : Bytes) (signature : Octets 64) : Except Fault Unit :=
  match Point.decode? key with
  | none => .error .keyNotPoint
  | some A =>
    let encodedR : Octets 32 := Octets.fit 32 (signature.toList.take 32)
    let S := Bytes.toNat (signature.toList.drop 32)
    if Point.order ≤ S then .error .scalarTooLarge
    else match Point.decode? encodedR with
      | none => .error .rejected
      | some R =>
        if R.isSmall || A.isSmall then .error .rejected
        else
          let k := hashToScalar (encodedR.toList ++ key.toList ++ message)
          let expected := (Point.times S Point.base).add (Point.times k A.neg)
          if expected.encode = encodedR then .ok () else .error .rejected

end SealedMessaging.Signature
