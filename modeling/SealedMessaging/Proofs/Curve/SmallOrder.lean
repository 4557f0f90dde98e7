import Mathlib
import SealedMessaging.Proofs.Bytes
import SealedMessaging.Proofs.Curve.Orders

/-!
# Agreements that give zero

The scalar of a secret is divisible by eight but by neither of the large orders, so it takes to zero
only the coordinates of points whose order divides eight. There are five of them, one of which is
zero, and as numbers of 255 bits they have seven forms.

* `smallCoordinates`, `smallNumbers`: the coordinates and their forms.
* `Montgomery.times_clamp_eq_zero_iff`: what a clamped scalar takes to zero.
* `x25519_eq_zero_iff`: the agreement is zero for keys of small order, whatever the secret.
-/

namespace SealedMessaging

/-- The two coordinates of the points of order eight. -/
def orderEight : Fe × Fe :=
  (325606250916557431795983626356110631294008115727848805560023387167927233504,
    39382357235489614581723060781553021112529911719440698176882885853963445705823)

/-- **The coordinates of the points whose order divides eight**, on the curve or its twist. -/
def smallCoordinates : List Fe :=
  [0, 1, -1, orderEight.1, orderEight.2]

namespace Montgomery

open WeierstrassCurve.Affine

/-! ## Scalars -/

theorem exists_clamp (secret : Octets 32) :
    ∃ m, clamp secret = 8 * m ∧ 0 < m ∧ m < 2 ^ 252 := by
  refine ⟨2 ^ 251 + secret.toNat % 2 ^ 254 / 8, ?_, by omega, by omega⟩
  show 2 ^ 254 + secret.toNat % 2 ^ 254 / 8 * 8 = _
  omega

/-- Of a multiple of eight only the eight matters, if the order has a large prime factor that does not
divide it, besides at most eight. -/
theorem nsmul_eq_zero_iff {G : Type} [AddMonoid G] {P : G} {cofactor order m : ℕ}
    (hprime : order.Prime) (hcard : (cofactor * order) • P = 0) (hcofactor : cofactor ∣ 8)
    (hsmall : ¬ order ∣ 16) (hm : ¬ order ∣ m) : (8 * m + 8 * m) • P = 0 ↔ 8 • P = 0 := by
  have hdouble : 8 * m + 8 * m = 16 * m := by omega
  simp only [← addOrderOf_dvd_iff_nsmul_eq_zero] at hcard ⊢
  rw [hdouble]
  constructor
  · intro h
    have hcoprime : (addOrderOf P).Coprime order := by
      rw [Nat.coprime_comm, hprime.coprime_iff_not_dvd]
      intro hdvd
      exact ((hprime.dvd_mul.1 (hdvd.trans h)).elim hsmall hm)
    exact (hcoprime.dvd_of_dvd_mul_right hcard).trans hcofactor
  · intro h
    exact h.trans (Dvd.dvd.mul_right (by norm_num) m)

/-! ## Points of order eight -/

section Polynomials

variable {K : Type} [Field K] {A a b u w : K}

/-- A double with coordinate one: the points of order eight, and others if a number is a square. -/
theorem double_eq_one_iff (hab : a * b = 1) (hsum : a + b + w = 4)
    (hproduct : (a + b) * w = -(4 * A + 4)) (hw : ¬ IsSquare (w ^ 2 - 4)) :
    (u ^ 2 - 1) ^ 2 = 4 * u * (u ^ 2 + A * u + 1) ↔ u = a ∨ u = b := by
  have hfactors : (u ^ 2 - 1) ^ 2 - 4 * u * (u ^ 2 + A * u + 1) =
      (u - a) * (u - b) * (u ^ 2 - w * u + 1) := by
    linear_combination (-u ^ 2 + w * u - 1) * hab + (u ^ 3 + u) * hsum - u ^ 2 * hproduct
  have hne : u ^ 2 - w * u + 1 ≠ 0 := by
    intro h
    exact hw ⟨2 * u - w, by linear_combination -4 * h⟩
  rw [← sub_eq_zero, hfactors, mul_eq_zero, mul_eq_zero, or_iff_left hne, sub_eq_zero, sub_eq_zero]

/-- No double has coordinate minus one. -/
theorem double_ne_neg_one (h2 : (2 : K) ≠ 0) (hu : u ≠ 0) (hA : ¬ IsSquare (2 - A)) :
    (u ^ 2 - 1) ^ 2 ≠ -(4 * u * (u ^ 2 + A * u + 1)) := by
  intro h
  refine hA ⟨(u + 1) ^ 2 / (2 * u), ?_⟩
  field_simp
  linear_combination -h

end Polynomials

/-- **The points whose order divides eight** are those with the coordinates listed. -/
theorem eight_nsmul_eq_zero_iff {B y : ZMod fieldSize} {u : Fe} (hB : Suitable coefficient B)
    (hu : u ≠ 0) (h : (curve coefficient B).Nonsingular (B * u.toZMod) y) :
    8 • Point.some (B * u.toZMod) y h = 0 ↔ u ∈ smallCoordinates := by
  -- the sums of each of the two pairs of roots, of which the second are in no coordinates
  set s : Fe := orderEight.1 + orderEight.2 with hs
  have hab : orderEight.1.toZMod * orderEight.2.toZMod = 1 := by
    rw [← Fe.toZMod_mul, ← Fe.toZMod_one, Fe.toZMod_inj]
    decide
  have hproduct : (orderEight.1.toZMod + orderEight.2.toZMod) * (4 - s).toZMod =
      -(4 * coefficient + 4) := by
    have hcoefficient : (4 * 486662 + 4 : Fe).toZMod = 4 * coefficient + 4 := by
      rw [Fe.toZMod_add, Fe.toZMod_mul, Fe.toZMod_literal 4, Fe.toZMod_literal 486662]
      rfl
    rw [← Fe.toZMod_add, ← Fe.toZMod_mul, ← hcoefficient, ← Fe.toZMod_neg, Fe.toZMod_inj]
    decide
  have hsum : orderEight.1.toZMod + orderEight.2.toZMod + (4 - s).toZMod = 4 := by
    rw [Fe.toZMod_sub, hs, Fe.toZMod_add, Fe.toZMod_literal]
    ring
  have hw : ¬ IsSquare ((4 - s).toZMod ^ 2 - 4) := by
    have h : (4 - s) * (4 - s) - 4 = Fe.ofNat
        14856279910349605081280299881395334804609297657786658129414739047344204649203 := by
      decide
    rw [← Fe.toZMod_literal 4, pow_two, ← Fe.toZMod_mul, ← Fe.toZMod_sub, h, Fe.toZMod_ofNat]
    exact not_isSquare_of_mem (by simp [nonsquares])
  have hA : ¬ IsSquare (2 - coefficient) := by
    have h : 2 - coefficient = ((fieldSize - 486660 : ℕ) : ZMod fieldSize) := by
      rw [Nat.cast_sub (by rw [fieldSize_eq]; norm_num), ZMod.natCast_self, coefficient]
      norm_num
    rw [h]
    exact not_isSquare_of_mem (by simp [nonsquares])
  have hne := toZMod_ne_zero hu
  rw [Represents.eight_nsmul_eq_zero_iff hB h hne, double_eq_one_iff hab hsum hproduct hw,
    or_iff_left (double_ne_neg_one two_ne_zero_zmod hne hA), sq_eq_one_iff,
    ← Fe.toZMod_one, ← Fe.toZMod_neg]
  simp only [Fe.toZMod_inj, smallCoordinates, List.mem_cons, List.not_mem_nil, hu, false_or,
    or_false, or_assoc]

/-! ## Agreements -/

/-- **A clamped scalar takes to zero** the coordinates of the points whose order divides eight. -/
theorem times_clamp_eq_zero_iff (secret : Octets 32) (u : Fe) :
    times (clamp secret) u = 0 ↔ u ∈ smallCoordinates := by
  by_cases hu : u = 0
  · subst hu
    exact ⟨fun _ => List.mem_cons_self, fun _ => times_zero _⟩
  obtain ⟨m, hclamp, hpos, hbound⟩ := exists_clamp secret
  obtain ⟨B, y, hB, h⟩ := exists_nonsingular (toZMod_ne_zero hu)
  have hsuitable : Suitable coefficient B := by
    rcases hB with rfl | rfl
    · exact suitable one_ne_zero
    · exact suitable two_ne_zero_zmod
  have height : (8 * m + 8 * m) • Point.some (B * u.toZMod) y h = 0 ↔
      8 • Point.some (B * u.toZMod) y h = 0 := by
    obtain ⟨hcurve, htwist⟩ := card_curve_and_twist
    rcases hB with rfl | rfl
    · have hlarge : 2 ^ 252 ≤ curveOrder := by norm_num [curveOrder]
      exact nsmul_eq_zero_iff prime_curveOrder (hcurve ▸ card_nsmul_eq_zero') (by norm_num)
        (Nat.not_dvd_of_pos_of_lt (by norm_num) (by omega))
        (Nat.not_dvd_of_pos_of_lt hpos (by omega))
    · have hlarge : 2 ^ 252 ≤ twistOrder := by norm_num [twistOrder]
      exact nsmul_eq_zero_iff prime_twistOrder (htwist ▸ card_nsmul_eq_zero') (by norm_num)
        (Nat.not_dvd_of_pos_of_lt (by norm_num) (by omega))
        (Nat.not_dvd_of_pos_of_lt hpos (by omega))
  rw [hclamp, times_eq_zero_iff hsuitable (toZMod_ne_zero hu) h (by omega), height]
  exact eight_nsmul_eq_zero_iff hsuitable hu h

end Montgomery

theorem Fe.toOctets_eq_zero_iff {a : Fe} : a.toOctets = .zero 32 ↔ a = 0 := by
  constructor
  · intro h
    have hval : a.val % Nat.pow 256 32 = 0 := by
      rw [← Bytes.toNat_ofNat]
      show a.toOctets.toNat = 0
      rw [h]
      rfl
    have hlt : a.val < Nat.pow 256 32 := a.isLt.trans (by rw [fieldSize_eq]; norm_num)
    rw [Nat.mod_eq_of_lt hlt] at hval
    exact Fin.ext hval
  · rintro rfl
    rfl

/-- **The agreement is zero for keys of small order**, whatever the secret, and for no other keys. -/
theorem x25519_eq_zero_iff (secret peer : Octets 32) :
    x25519 secret peer = .zero 32 ↔ Fe.ofOctets peer ∈ smallCoordinates := by
  rw [x25519, Fe.toOctets_eq_zero_iff]
  exact Montgomery.times_clamp_eq_zero_iff secret (Fe.ofOctets peer)

/-- The numbers of 255 bits that are read as these coordinates. -/
def smallNumbers : List ℕ :=
  [0, 1, orderEight.1.val, orderEight.2.val, fieldSize - 1, fieldSize, fieldSize + 1]

theorem ofOctets_mem_smallCoordinates_iff (a : Octets 32) :
    Fe.ofOctets a ∈ smallCoordinates ↔ a.toNat % 2 ^ 255 ∈ smallNumbers := by
  have hlt : a.toNat % 2 ^ 255 < 2 ^ 255 := Nat.mod_lt _ (by norm_num)
  have hval : (Fe.ofOctets a).val = a.toNat % 2 ^ 255 % fieldSize := rfl
  generalize a.toNat % 2 ^ 255 = n at hlt hval ⊢
  have hone : (1 : Fe).val = 1 := rfl
  have hneg : (-1 : Fe).val = fieldSize - 1 := by decide
  have hlow : orderEight.1.val < fieldSize ∧ 19 ≤ orderEight.1.val := by decide
  have hhigh : orderEight.2.val < fieldSize ∧ 19 ≤ orderEight.2.val := by decide
  simp only [smallCoordinates, smallNumbers, List.mem_cons, List.not_mem_nil, or_false, Fin.ext_iff,
    hval, hone, hneg, Fin.val_zero]
  generalize orderEight.1.val = low at hlow ⊢
  generalize orderEight.2.val = high at hhigh ⊢
  rw [fieldSize_eq] at *
  omega

end SealedMessaging
