import SealedMessaging.Bytes

/-!
# The field of integers modulo `2^255 - 19`

* `Fe`: the elements, with the ring operations of `Fin`.
* `Fe.inverse`: the inverse, zero for zero.
* `Fe.sqrtRatio?`: an even square root of a fraction, if there is one.
* `Fe.ofOctets`, `Fe.toOctets`: the 32-byte form; reading drops the top bit and reduces.
-/

namespace SealedMessaging

/-- The size of the field. -/
def fieldSize : Nat := Nat.pow 2 255 - 19

instance : @NeZero Nat Zero.ofOfNat0 fieldSize := ⟨Nat.succ_ne_zero _⟩

/-- A field element. -/
abbrev Fe := Fin fieldSize

namespace Fe

/-- The element a number stands for. -/
def ofNat (n : Nat) : Fe :=
  Fin.ofNat fieldSize n

/-- The power to an exponent below `2 ^ bits`. -/
def powBits (a : Fe) : (bits exponent : Nat) → Fe
  | 0, _ => 1
  | bits + 1, exponent =>
    let half := powBits a bits (exponent / 2)
    if exponent % 2 = 1 then half * half * a else half * half

/-- The power to an exponent below `2 ^ 255`. -/
def pow (a : Fe) (exponent : Nat) : Fe :=
  powBits a 255 exponent

/-- **The inverse**, which is zero for zero. -/
def inverse (a : Fe) : Fe :=
  pow a (fieldSize - 2)

/-- A square root of `-1`. -/
def sqrtMinusOne : Fe :=
  ofNat 19681161376707505956807079304988542015446066515923890162744021073123829784752

/-- Whether the least number of the element is odd. The odd elements are the negative ones. -/
def isOdd (a : Fe) : Bool :=
  a.val % 2 == 1

/-- **The even square root of `u / v`**, for a `v` that is not zero; `none` if `u / v` is no
square. -/
def sqrtRatio? (u v : Fe) : Option Fe :=
  let v3 := v * v * v
  let candidate := u * v3 * pow (u * v3 * v3 * v) ((fieldSize - 5) / 8)
  let check := v * candidate * candidate
  let even := fun (a : Fe) => if a.isOdd then -a else a
  if check = u then some (even candidate)
  else if check = -u then some (even (candidate * sqrtMinusOne))
  else none

/-- The element whose 32 bytes are given, least significant first. The top bit is dropped and the
rest is reduced. -/
def ofOctets (a : Octets 32) : Fe :=
  ofNat (a.toNat % Nat.pow 2 255)

/-- The 32 bytes of the least number of an element, least significant first. -/
def toOctets (a : Fe) : Octets 32 :=
  Octets.ofNat 32 a.val

end Fe

end SealedMessaging
