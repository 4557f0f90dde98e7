import SealedMessaging.Curve.Field

/-!
# Key agreement on the Montgomery curve

X25519 multiplies the `u`-coordinate of a point by a clamped scalar, with the two points of the
ladder in projective form.

* `Montgomery.clamp`: the scalar a secret of 32 bytes stands for.
* `x25519`: the agreement. A degenerate peer gives zero, which is not refused.
* `x25519Public`: the public key of a secret, the multiple of the point with `u = 9`.
-/

namespace SealedMessaging

namespace Montgomery

/-- Two neighbouring multiples of a point, each as a fraction. -/
structure Ladder where
  /-- Numerator of the lower multiple. -/
  x2 : Fe
  /-- Denominator of the lower multiple. -/
  z2 : Fe
  /-- Numerator of the upper multiple. -/
  x3 : Fe
  /-- Denominator of the upper multiple. -/
  z3 : Fe
  deriving DecidableEq

namespace Ladder

/-- The multiples by zero and one. -/
def initial (u : Fe) : Ladder := ⟨1, 0, u, 1⟩

/-- The two multiples in the other order. -/
def swap (s : Ladder) : Ladder := ⟨s.x3, s.z3, s.x2, s.z2⟩

/-- Doubles the first multiple and replaces the second by the sum of both, whose difference is the
point at `u`. -/
def double (u : Fe) (s : Ladder) : Ladder :=
  let a := s.x2 + s.z2
  let b := s.x2 - s.z2
  let aa := a * a
  let bb := b * b
  let e := aa - bb
  let da := (s.x3 - s.z3) * a
  let cb := (s.x3 + s.z3) * b
  let sum := da + cb
  let difference := da - cb
  ⟨aa * bb, e * (aa + 121665 * e), sum * sum, u * (difference * difference)⟩

/-- Appends a bit to the factor of the lower multiple. -/
def step (u : Fe) (s : Ladder) (bit : Bool) : Ladder :=
  if bit then (double u s.swap).swap else double u s

end Ladder

/-- The lowest `count` bits of a number, highest first. -/
def bitsOf : (count n : Nat) → List Bool
  | 0, _ => []
  | count + 1, n => n.testBit count :: bitsOf count n

/-- The coordinate of the multiple of a point by a factor below `2 ^ 255`. -/
def times (factor : Nat) (u : Fe) : Fe :=
  let final := (bitsOf 255 factor).foldl (Ladder.step u) (Ladder.initial u)
  final.x2 * final.z2.inverse

/-- **The scalar of a secret**: the lowest three bits cleared, bit 254 set and bit 255 dropped. -/
def clamp (secret : Octets 32) : Nat :=
  Nat.pow 2 254 + secret.toNat % Nat.pow 2 254 / 8 * 8

end Montgomery

/-- **X25519**: the agreement of a secret with a peer's public key. -/
def x25519 (secret peer : Octets 32) : Octets 32 :=
  (Montgomery.times (Montgomery.clamp secret) (Fe.ofOctets peer)).toOctets

/-- The public key of a secret. -/
def x25519Public (secret : Octets 32) : Octets 32 :=
  x25519 secret (Octets.ofNat 32 9)

end SealedMessaging
