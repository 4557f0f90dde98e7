import Mathlib
import SealedMessaging.Curve.Field
import SealedMessaging.Proofs.Primality

/-!
# The integers modulo `2^255 - 19` are a field

The size passes the test of primality. Field elements are then read as residues (`Fe.toZMod`), where
the ring operations and powers are those of the library.

* `prime_fieldSize`: the size is prime.
* `Fe.toZMod_mul`, `Fe.toZMod_pow`: the operations on residues.
* `Fe.isSome_sqrtRatio?`: the square root of a fraction is found whenever there is one.
-/

namespace SealedMessaging

/-! ## The size is prime -/

/-- The size, with the primes that its test leads to. -/
def fieldCertificates : List Certificate :=
  [⟨31757755568855353, [430751, 4153]⟩,
   ⟨2773320623, [569003]⟩,
   ⟨72106336199, [2773320623]⟩,
   ⟨1919519569386763, [8574133, 127]⟩,
   ⟨75445702479781427272750846543864801, [1919519569386763, 72106336199]⟩,
   ⟨74058212732561358302231226437062788676166966415465897661863160754340907,
     [75445702479781427272750846543864801, 31757755568855353]⟩,
   ⟨fieldSize, [74058212732561358302231226437062788676166966415465897661863160754340907]⟩]

theorem fieldSize_eq :
    fieldSize = 57896044618658097711785492504343953926634992332820282019728792003956564819949 := rfl

/-- **The size of the field is prime.** -/
theorem prime_fieldSize : fieldSize.Prime := by
  have hknown : ∀ q ∈ [127, 4153, 430751, 569003, 8574133], q.Prime := by norm_num
  have hpass : Certificate.passAll [127, 4153, 430751, 569003, 8574133] fieldCertificates = true := by
    decide +kernel
  exact Certificate.prime_of_passAll hknown hpass fieldSize (by simp [fieldCertificates])

instance : Fact fieldSize.Prime := ⟨prime_fieldSize⟩

/-! ## Residues -/

namespace Fe

/-- The residue a field element stands for. -/
def toZMod (a : Fe) : ZMod fieldSize := (a.val : ZMod fieldSize)

theorem toZMod_inj {a b : Fe} : a.toZMod = b.toZMod ↔ a = b := by
  refine ⟨fun h => ?_, fun h => h ▸ rfl⟩
  unfold toZMod at h
  rw [ZMod.natCast_eq_natCast_iff', Nat.mod_eq_of_lt a.isLt, Nat.mod_eq_of_lt b.isLt] at h
  exact Fin.ext h

theorem toZMod_ofNat (n : ℕ) : (ofNat n).toZMod = n := by
  show ((n % fieldSize : ℕ) : ZMod fieldSize) = n
  exact ZMod.natCast_mod n fieldSize

theorem toZMod_zero : (0 : Fe).toZMod = 0 := by
  show ((0 : ℕ) : ZMod fieldSize) = 0
  exact Nat.cast_zero

theorem toZMod_one : (1 : Fe).toZMod = 1 := by
  show ((1 : ℕ) : ZMod fieldSize) = 1
  exact Nat.cast_one

theorem toZMod_literal (n : ℕ) [n.AtLeastTwo] : (OfNat.ofNat n : Fe).toZMod = OfNat.ofNat n := by
  have h : (OfNat.ofNat n : Fe) = ofNat n := rfl
  rw [h, toZMod_ofNat]
  exact Nat.cast_ofNat

theorem toZMod_add (a b : Fe) : (a + b).toZMod = a.toZMod + b.toZMod := by
  unfold toZMod
  rw [Fin.val_add, ZMod.natCast_mod, Nat.cast_add]

theorem toZMod_mul (a b : Fe) : (a * b).toZMod = a.toZMod * b.toZMod := by
  unfold toZMod
  rw [Fin.val_mul, ZMod.natCast_mod, Nat.cast_mul]

theorem toZMod_sub (a b : Fe) : (a - b).toZMod = a.toZMod - b.toZMod := by
  unfold toZMod
  rw [Fin.sub_def, ZMod.natCast_mod, Nat.cast_add, Nat.cast_sub b.isLt.le, ZMod.natCast_self]
  ring

theorem toZMod_neg (a : Fe) : (-a).toZMod = -a.toZMod := by
  unfold toZMod
  rw [Fin.neg_def, ZMod.natCast_mod, Nat.cast_sub a.isLt.le, ZMod.natCast_self]
  ring

theorem toZMod_powBits (a : Fe) : ∀ bits exponent : ℕ, exponent < 2 ^ bits →
    (a.powBits bits exponent).toZMod = a.toZMod ^ exponent := by
  intro bits
  induction bits with
  | zero =>
    intro exponent h
    obtain rfl : exponent = 0 := by simpa using h
    rw [powBits, toZMod_one, pow_zero]
  | succ bits ih =>
    intro exponent h
    have hhalf := ih (exponent / 2) (by rw [pow_succ] at h; omega)
    simp only [powBits]
    split
    · rename_i hodd
      have hexp : exponent = exponent / 2 + exponent / 2 + 1 := by omega
      rw [toZMod_mul, toZMod_mul, hhalf]
      conv_rhs => rw [hexp, pow_succ, pow_add]
    · have hexp : exponent = exponent / 2 + exponent / 2 := by omega
      rw [toZMod_mul, hhalf]
      conv_rhs => rw [hexp, pow_add]

theorem toZMod_pow (a : Fe) {exponent : ℕ} (h : exponent < 2 ^ 255) :
    (a.pow exponent).toZMod = a.toZMod ^ exponent :=
  toZMod_powBits a 255 exponent h

/-- **The inverse of an element is that of its residue**, zero for zero. -/
theorem toZMod_inverse (a : Fe) : a.inverse.toZMod = a.toZMod⁻¹ := by
  have hsize : fieldSize - 2 < 2 ^ 255 := by rw [fieldSize_eq]; norm_num
  unfold inverse
  rw [toZMod_pow a hsize]
  by_cases h : a.toZMod = 0
  · have hpos : fieldSize - 2 ≠ 0 := by rw [fieldSize_eq]; norm_num
    rw [h, zero_pow hpos, inv_zero]
  · have hexp : fieldSize - 2 + 1 = fieldSize - 1 := by rw [fieldSize_eq]
    refine eq_inv_of_mul_eq_one_left ?_
    rw [← pow_succ, hexp, ZMod.pow_card_sub_one_eq_one h]

/-! ## Square roots -/

/-- **The square root of a fraction is found** when there is one: if `u = x ^ 2 * v` for some residue
`x`. The candidate that is tried differs from a root by a square root of `1` or `-1`. -/
theorem isSome_sqrtRatio? {u v : Fe} {x : ZMod fieldSize} (h : u.toZMod = x ^ 2 * v.toZMod) :
    (sqrtRatio? u v).isSome := by
  set k := (fieldSize - 5) / 8 with hk
  have hbound : k < 2 ^ 255 := by rw [hk, fieldSize_eq]; norm_num
  have hhalf : 4 * k + 2 = fieldSize / 2 := by rw [hk, fieldSize_eq]
  set c := u * (v * v * v) * pow (u * (v * v * v) * (v * v * v) * v) k with hc
  set w := x * v.toZMod ^ 4 with hw
  -- what the candidate gives back, up to a power that is a sign
  have hcheck : (v * c * c).toZMod = u.toZMod * w ^ (fieldSize / 2) := by
    rw [hc]
    simp only [toZMod_mul, toZMod_pow _ hbound, h]
    rw [← hhalf, pow_add, pow_mul', hw]
    ring
  have hsign : v * c * c = u ∨ v * c * c = -u := by
    simp only [← toZMod_inj, toZMod_neg, hcheck]
    by_cases hzero : w = 0
    · have hu : u.toZMod = 0 := by
        rw [h]
        rcases mul_eq_zero.1 hzero with hx | hv
        · rw [hx]; ring
        · rw [pow_eq_zero_iff (by norm_num)] at hv
          rw [hv]; ring
      left
      rw [hu, zero_mul]
    · rcases ZMod.pow_div_two_eq_neg_one_or_one fieldSize hzero with hone | hneg
      · left; rw [hone, mul_one]
      · right; rw [hneg, mul_neg_one]
  unfold sqrtRatio?
  simp only [← hk, ← hc]
  rcases hsign with hpos | hneg
  · rw [if_pos hpos]; rfl
  · rw [if_pos hneg]
    split <;> rfl

end Fe

end SealedMessaging
