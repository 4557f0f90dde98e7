import SealedMessaging.Curve.Field

/-!
# The twisted Edwards curve `-x^2 + y^2 = 1 + d x^2 y^2`

Points are kept in projective coordinates: `(x : y : z)` stands for `(x / z, y / z)`. One addition
formula serves for all pairs of points.

* `Point.add`, `Point.times`: the group.
* `Point.encode`: `y` in 255 bits and the oddness of `x` in the last one.
* `Point.decode?`: the point of 32 bytes, if there is one. `y` may be given unreduced, and `x = 0`
  may be marked odd.
* `Point.toMontgomery`: the `u`-coordinate on the Montgomery form of the curve.
-/

namespace SealedMessaging

/-- A point in projective coordinates. -/
structure Point where
  /-- Numerator of the first coordinate. -/
  x : Fe
  /-- Numerator of the second coordinate. -/
  y : Fe
  /-- The common denominator. -/
  z : Fe
  deriving DecidableEq

namespace Point

/-- The constant `d = -121665 / 121666` of the curve. -/
def d : Fe :=
  Fe.ofNat 37095705934669439343138083508754565189542113879843219016388785533085940283555

/-- The neutral point `(0, 1)`. -/
def identity : Point := ⟨0, 1, 1⟩

/-- The generator of the group of prime order. -/
def base : Point :=
  ⟨Fe.ofNat 15112221349535400772501151409588531511454012693041857206046113283949847762202,
   Fe.ofNat 46316835694926478169428394003475163141307993866256225615783033603165251855960, 1⟩

/-- The number of multiples of the generator. -/
def order : Nat := Nat.pow 2 252 + 27742317777372353535851937790883648493

/-- The sum of two points. -/
def add (p q : Point) : Point :=
  let a := p.z * q.z
  let b := a * a
  let c := p.x * q.x
  let e := p.y * q.y
  let f := d * c * e
  let g := b - f
  let h := b + f
  ⟨a * g * ((p.x + p.y) * (q.x + q.y) - c - e), a * h * (e + c), g * h⟩

/-- The point with the opposite first coordinate. -/
def neg (p : Point) : Point :=
  ⟨-p.x, p.y, p.z⟩

/-- The multiple by a factor below `2 ^ bits`. -/
def timesBits (p : Point) : (bits factor : Nat) → Point
  | 0, _ => identity
  | bits + 1, factor =>
    let half := timesBits p bits (factor / 2)
    let twice := add half half
    if factor % 2 = 1 then add twice p else twice

/-- **The multiple** of a point by a factor below `2 ^ 256`. -/
def times (factor : Nat) (p : Point) : Point :=
  timesBits p 256 factor

/-- Whether this is the neutral point. -/
def isIdentity (p : Point) : Bool :=
  p.x == 0 && p.y == p.z

/-- Whether eight times the point is the neutral point. -/
def isSmall (p : Point) : Bool :=
  (timesBits p 4 8).isIdentity

/-- **The 32 bytes of a point.** -/
def encode (p : Point) : Octets 32 :=
  let denominator := p.z.inverse
  let x := p.x * denominator
  let y := p.y * denominator
  Octets.ofNat 32 (y.val + if x.isOdd then Nat.pow 2 255 else 0)

/-- **The point of 32 bytes**, if its second coordinate belongs to one. -/
def decode? (bytes : Octets 32) : Option Point :=
  let y := Fe.ofOctets bytes
  let y2 := y * y
  (Fe.sqrtRatio? (y2 - 1) (d * y2 + 1)).map fun x =>
    ⟨if bytes.toNat < Nat.pow 2 255 then x else -x, y, 1⟩

/-- The coordinate `(1 + y) / (1 - y)` on the Montgomery form of the curve, zero where the
denominator is. -/
def toMontgomery (p : Point) : Fe :=
  (p.z + p.y) * (p.z - p.y).inverse

end Point

end SealedMessaging
