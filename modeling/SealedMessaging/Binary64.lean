/-!
# Floating-point numbers, exactly

A finite number of 64 bits without its sign is a mantissa times a power of two. Operations are
computed on exact fractions and rounded once, to the nearest number and to an even mantissa between
two of them.

* `Magnitude.round?`: the number nearest to a fraction, unless that is too large.
* `Magnitude.mul?`, `Magnitude.div?`: product and quotient.
* `Magnitude.timesPowerOfTen?`: a number scaled by a power of ten, in the few steps a reader takes.
-/

namespace SealedMessaging

/-- A finite number without its sign: `mantissa * 2 ^ exponent`. The mantissa has 53 bits, or fewer
where the exponent is the least one. -/
structure Magnitude where
  mantissa : Nat
  exponent : Int
  deriving DecidableEq, Repr

namespace Magnitude

/-- The least exponent. -/
def minExponent : Int := -1074

/-- The greatest exponent. -/
def maxExponent : Int := 971

/-- Zero. -/
def zero : Magnitude := ⟨0, minExponent⟩

/-- Numerator and denominator of `num / den / 2 ^ e`. -/
def scaled (num den : Nat) (e : Int) : Nat × Nat :=
  (num * Nat.pow 2 (-e).toNat, den * Nat.pow 2 e.toNat)

/-- The natural number nearest to a fraction, the even one of two. -/
def roundRatio (num den : Nat) : Nat :=
  let q := num / den
  let r := num % den
  if 2 * r < den then q
  else if den < 2 * r then q + 1
  else if q % 2 = 0 then q
  else q + 1

/-- The greatest `k` with `2 ^ k` at most a positive fraction. -/
def logRatio (num den : Nat) : Int :=
  let k : Int := num.log2 - den.log2
  let (a, b) := scaled num den k
  if a < b then k - 1 else k

/-- **The number nearest to a fraction**; `none` if it is too large. -/
def round? (num den : Nat) : Option Magnitude :=
  if num = 0 then some zero
  else
    let e := max (logRatio num den - 52) minExponent
    let (a, b) := scaled num den e
    let q := roundRatio a b
    let m : Magnitude := if q = Nat.pow 2 53 then ⟨Nat.pow 2 52, e + 1⟩ else ⟨q, e⟩
    if maxExponent < m.exponent then none else some m

/-- Numerator and denominator of a number. -/
def ratio (m : Magnitude) : Nat × Nat :=
  (m.mantissa * Nat.pow 2 m.exponent.toNat, Nat.pow 2 (-m.exponent).toNat)

/-- The number nearest to a natural number. -/
def ofNat? (n : Nat) : Option Magnitude :=
  round? n 1

/-- The number nearest to a product. -/
def mul? (a b : Magnitude) : Option Magnitude :=
  round? (a.ratio.1 * b.ratio.1) (a.ratio.2 * b.ratio.2)

/-- The number nearest to a quotient, for a divisor that is not zero. -/
def div? (a b : Magnitude) : Option Magnitude :=
  round? (a.ratio.1 * b.ratio.2) (a.ratio.2 * b.ratio.1)

/-- The number nearest to a power of ten. -/
def powerOfTen? (k : Nat) : Option Magnitude :=
  ofNat? (Nat.pow 10 k)

/-- The greatest exponent of ten whose power is a number. -/
def maxPowerOfTen : Nat := 308

/-- **A number scaled by a power of ten**, rounded after each step; `none` if it is too large. Large
negative exponents are taken in steps of 308, of which `steps` leave nothing of any number. -/
def timesPowerOfTen? : (steps : Nat) → Magnitude → (exponent : Int) → Option Magnitude
  | 0, _, _ => some zero
  | steps + 1, m, e =>
    if e.natAbs ≤ maxPowerOfTen then
      (powerOfTen? e.natAbs).bind fun power => if 0 ≤ e then m.mul? power else m.div? power
    else if m.mantissa = 0 then some m
    else if 0 ≤ e then none
    else (powerOfTen? maxPowerOfTen).bind fun power =>
      (m.div? power).bind fun m => timesPowerOfTen? steps m (e + maxPowerOfTen)

end Magnitude

end SealedMessaging
