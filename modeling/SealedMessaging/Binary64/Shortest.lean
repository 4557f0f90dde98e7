import SealedMessaging.Binary64

/-!
# The fewest digits that identify a number

* `Magnitude.readsBack`: whether a decimal is rounded to a number.
* `Magnitude.shortest`: the decimal with the fewest digits that is, the nearest of those.
* `Magnitude.text`: the text of a number, with a point or an exponent.
-/

namespace SealedMessaging

/-- The decimal `digits * 10 ^ exponent`. -/
structure Decimal where
  /-- The digits, as one number. -/
  digits : Nat
  /-- The exponent of ten. -/
  exponent : Int
  deriving DecidableEq, Repr

namespace Magnitude

/-- Compares `a * 10 ^ i` with `n * 2 ^ j`. -/
def compareScaled (a : Nat) (i : Int) (n : Nat) (j : Int) : Ordering :=
  compare (a * Nat.pow 10 i.toNat * Nat.pow 2 (-j).toNat)
    (n * Nat.pow 2 j.toNat * Nat.pow 10 (-i).toNat)

/-- Whether the number below a number is only half as far away as the number above. -/
def isNarrowBelow (m : Magnitude) : Bool :=
  m.mantissa == Nat.pow 2 52 && minExponent < m.exponent

/-- **Whether a decimal is rounded to a number**: it lies between the two midpoints to the
neighbours, which belong to the number if its mantissa is even. -/
def readsBack (m : Magnitude) (d : Decimal) : Bool :=
  let low := if m.isNarrowBelow then 4 * m.mantissa - 1 else 4 * m.mantissa - 2
  let high := 4 * m.mantissa + 2
  let closed := m.mantissa % 2 == 0
  let below := compareScaled d.digits d.exponent low (m.exponent - 2)
  let above := compareScaled d.digits d.exponent high (m.exponent - 2)
  (below == .gt || (closed && below == .eq)) && (above == .lt || (closed && above == .eq))

/-- The least `k` such that a number that is not zero is below `10 ^ k`. -/
def decimalScale (m : Magnitude) : Int :=
  let (num, den) := m.ratio
  (Nat.toDigits 10 (num * Nat.pow 10 400 / den)).length - 400

/-- The decimal in steps of `10 ^ grid` that identifies a number: of the two around it that read
back the nearer, and the even one of two as near. -/
def onGrid? (m : Magnitude) (grid : Int) : Option Decimal :=
  let (num, den) := m.ratio
  let a := num * Nat.pow 10 (-grid).toNat
  let b := den * Nat.pow 10 grid.toNat
  let below : Decimal := ⟨a / b, grid⟩
  let above : Decimal := ⟨a / b + 1, grid⟩
  match m.readsBack below, m.readsBack above with
  | true, true => some ⟨roundRatio a b, grid⟩
  | true, false => some below
  | false, true => some above
  | false, false => none

/-- The decimal without zeros at its end, of which there are at most `bound`. -/
def withoutZeros : (bound : Nat) → Decimal → Decimal
  | 0, d => d
  | bound + 1, d =>
    if d.digits % 10 = 0 ∧ d.digits ≠ 0 then withoutZeros bound ⟨d.digits / 10, d.exponent + 1⟩
    else d

/-- **The decimal with the fewest digits** that identifies a number that is not zero. Seventeen
digits always do. -/
def shortest (m : Magnitude) : Decimal :=
  let scale := m.decimalScale
  let found := (List.range 17).findSome? fun n => m.onGrid? (scale - (n + 1 : Nat))
  withoutZeros 18 (found.getD ⟨m.mantissa, 0⟩)

/-- The leading digits with exponents from `-5` to `15` are written without an exponent. -/
def positionalExponents : Int × Int := (-5, 15)

/-- The text of a decimal: positional with a point and at least one digit on each side of it, or
the digits with a point after the first and a signed exponent. -/
def layout (d : Decimal) : String :=
  let digits := Nat.toDigits 10 d.digits
  let lead : Int := d.exponent + digits.length - 1
  if positionalExponents.1 ≤ lead ∧ lead ≤ positionalExponents.2 then
    if 0 ≤ d.exponent then
      String.ofList (digits ++ List.replicate d.exponent.toNat '0' ++ ['.', '0'])
    else if 0 ≤ lead then
      String.ofList (digits.take (lead.toNat + 1) ++ ['.'] ++ digits.drop (lead.toNat + 1))
    else
      String.ofList (['0', '.'] ++ List.replicate (-lead - 1).toNat '0' ++ digits)
  else
    let fraction := if digits.length = 1 then [] else '.' :: digits.drop 1
    let sign := if lead < 0 then '-' else '+'
    String.ofList (digits.take 1 ++ fraction ++ ['e', sign] ++ Nat.toDigits 10 lead.natAbs)

/-- **The text of a number** with its sign. -/
def text (negative : Bool) (m : Magnitude) : String :=
  (if negative then "-" else "") ++ (if m.mantissa = 0 then "0.0" else layout m.shortest)

end Magnitude

end SealedMessaging
