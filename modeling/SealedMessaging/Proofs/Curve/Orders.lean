import Mathlib
import SealedMessaging.Proofs.Curve.Ladder

/-!
# The number of points of the curve and of its twist

A coordinate belongs to two points of the curve or to two of its twist, so both together have twice as
many points as there are coordinates. Each has a point of large prime order, and only one pair of
numbers is divisible by these primes and has the right sum.

* `prime_curveOrder`, `prime_twistOrder`: the primes.
* `Montgomery.card_add_card`: the points of a curve and of its twist together.
* `Montgomery.card_curve`, `Montgomery.card_twist`: the number of points of each.
-/

namespace SealedMessaging

/-! ## The primes -/

/-- The order of the subgroup of the curve that is used. -/
def curveOrder : ℕ := 2 ^ 252 + 27742317777372353535851937790883648493

/-- The order of the large subgroup of the twist. -/
def twistOrder : ℕ := 2 ^ 253 - 55484635554744707071703875581767296995

theorem curveOrder_eq : curveOrder =
    7237005577332262213973186563042994240857116359379907606001950938285454250989 := by
  norm_num [curveOrder]

theorem twistOrder_eq : twistOrder =
    14474011154664524427946373126085988481603263447650325797860494125407373907997 := by
  norm_num [twistOrder]

/-- Both orders, with the primes that their tests lead to. -/
def orderCertificates : List Certificate :=
  [⟨1257559732178653, [1224481, 531581]⟩,
   ⟨4434155615661930479, [1257559732178653]⟩,
   ⟨172054593956031949258510691, [4434155615661930479]⟩,
   ⟨19757330305831588566944191468367130476339, [172054593956031949258510691]⟩,
   ⟨276602624281642239937218680557139826668747, [19757330305831588566944191468367130476339]⟩,
   ⟨curveOrder, [276602624281642239937218680557139826668747]⟩,
   ⟨1013266244677, [8053, 3911]⟩,
   ⟨5171003929967, [28859, 2281]⟩,
   ⟨22561162540501040539, [5171003929967]⟩,
   ⟨203852586375664218368381551393371968928013, [22561162540501040539, 1013266244677]⟩,
   ⟨104719073621178708975837602950775180438320278101,
     [203852586375664218368381551393371968928013]⟩,
   ⟨27413359092552162435694767700453926735143482401279781,
     [104719073621178708975837602950775180438320278101]⟩,
   ⟨twistOrder, [27413359092552162435694767700453926735143482401279781]⟩]

theorem prime_orders : ∀ n ∈ orderCertificates.map Certificate.number, n.Prime := by
  have hknown : ∀ q ∈ [2281, 3911, 8053, 28859, 531581, 1224481], q.Prime := by norm_num
  exact Certificate.prime_of_passAll hknown (by decide +kernel)

theorem prime_curveOrder : curveOrder.Prime :=
  prime_orders curveOrder (by simp [orderCertificates])

theorem prime_twistOrder : twistOrder.Prime :=
  prime_orders twistOrder (by simp [orderCertificates])

namespace Montgomery

open WeierstrassCurve.Affine

/-! ## Points by their coordinates -/

section Counting

variable {K : Type} [Field K] {A B d : K}

/-- The points besides the one at infinity, by coordinate. -/
def pointEquiv (hAB : Suitable A B) : (curve A B).Point ≃
    Option {p : K × K // p.2 ^ 2 = B ^ 3 * (p.1 ^ 3 + A * p.1 ^ 2 + p.1)} where
  toFun
    | .zero => none
    | .some x y h => some ⟨(x / B, y), by
        have hB := hAB.ne_zero
        field_simp
        linear_combination equation_iff.1 h.1⟩
  invFun
    | none => .zero
    | some ⟨(u, y), h⟩ => .some (B * u) y (hAB.nonsingular (by linear_combination h))
  left_inv := by
    rintro (_ | ⟨x, y, h⟩)
    · rfl
    · simp only [Point.some.injEq, and_true]
      exact mul_div_cancel₀ x hAB.ne_zero
  right_inv := by
    rintro (_ | ⟨⟨u, y⟩, h⟩)
    · rfl
    · simp only [Option.some.injEq, Subtype.mk.injEq, Prod.mk.injEq, and_true]
      exact mul_div_cancel_left₀ u hAB.ne_zero

variable [Fintype K] [DecidableEq K]

theorem natCard_sqrts (h2 : (2 : K) ≠ 0) (a : K) :
    (Nat.card {y : K // y ^ 2 = a} : ℤ) = quadraticChar K a + 1 := by
  have hchar : ringChar K ≠ 2 := by
    intro h
    have hzero := ringChar.Nat.cast_ringChar (R := K)
    rw [h, Nat.cast_ofNat] at hzero
    exact h2 hzero
  rw [← quadraticChar_card_sqrts hchar, Set.toFinset_card, Nat.card_eq_fintype_card]
  rfl

theorem natCard_point (hAB : Suitable A B) :
    (Nat.card (curve A B).Point : ℤ) =
      ∑ u : K, (quadraticChar K (B ^ 3 * (u ^ 3 + A * u ^ 2 + u)) + 1) + 1 := by
  rw [Nat.card_congr (pointEquiv hAB), Finite.card_option,
    Nat.card_congr (Equiv.subtypeProdEquivSigmaSubtype fun u y : K =>
      y ^ 2 = B ^ 3 * (u ^ 3 + A * u ^ 2 + u)), Nat.card_sigma, Nat.cast_add, Nat.cast_sum,
    Nat.cast_one]
  simp only [natCard_sqrts hAB.two_ne_zero]

/-- **A coordinate belongs to two points**, on the curve and its twist together. -/
theorem card_add_card (hA : Suitable A 1) (hd : Suitable A d) (hsquare : ¬ IsSquare d) :
    Nat.card (curve A 1).Point + Nat.card (curve A d).Point = 2 * Fintype.card K + 2 := by
  have hchar : quadraticChar K d = -1 := quadraticChar_neg_one_iff_not_isSquare.2 hsquare
  have hsum : (Nat.card (curve A 1).Point + Nat.card (curve A d).Point : ℤ) =
      2 * Fintype.card K + 2 := by
    have htwo : ∀ u : K, quadraticChar K (1 ^ 3 * (u ^ 3 + A * u ^ 2 + u)) + 1 +
        (quadraticChar K (d ^ 3 * (u ^ 3 + A * u ^ 2 + u)) + 1) = 2 := by
      intro u
      rw [one_pow, one_mul, map_mul, map_pow, hchar]
      ring
    rw [natCard_point hA, natCard_point hd, add_add_add_comm, ← Finset.sum_add_distrib]
    simp only [htwo, Finset.sum_const, Finset.card_univ, nsmul_eq_mul]
    ring
  exact_mod_cast hsum

end Counting

/-! ## The curve and its twist -/

theorem two_ne_zero_zmod : (2 : ZMod fieldSize) ≠ 0 := by
  intro h
  rw [← Nat.cast_ofNat, ZMod.natCast_eq_zero_iff, fieldSize_eq] at h
  exact absurd (Nat.le_of_dvd two_pos h) (by norm_num)

/-- Numbers that are no squares: the ratio of the curve and its twist, the number by which both are
curves, and two by which they have no further points of order eight. -/
def nonsquares : List ℕ :=
  [2, 486662 ^ 2 - 4, fieldSize - 486660,
    14856279910349605081280299881395334804609297657786658129414739047344204649203]

/-- The power of each of them to half the size is `-1`. -/
theorem not_isSquare_of_mem {n : ℕ} (hn : n ∈ nonsquares) : ¬ IsSquare (n : ZMod fieldSize) := by
  have hpowers : ∀ n ∈ nonsquares,
      powMod fieldSize n 255 (fieldSize / 2) = fieldSize - 1 := by decide +kernel
  have hpow : (n : ZMod fieldSize) ^ (fieldSize / 2) = -1 := by
    rw [← cast_powMod fieldSize n 255 (fieldSize / 2) (by rw [fieldSize_eq]; norm_num),
      hpowers n hn, Nat.cast_sub (by rw [fieldSize_eq]; norm_num), ZMod.natCast_self, Nat.cast_one,
      zero_sub]
  intro hsquare
  by_cases hn : (n : ZMod fieldSize) = 0
  · rw [hn, zero_pow (by rw [fieldSize_eq]; norm_num)] at hpow
    exact neg_ne_zero.2 one_ne_zero hpow.symm
  · rw [(ZMod.euler_criterion fieldSize hn).1 hsquare] at hpow
    exact two_ne_zero_zmod (by linear_combination hpow)

theorem not_isSquare_two : ¬ IsSquare (2 : ZMod fieldSize) := by
  have h := not_isSquare_of_mem (n := 2) (by simp [nonsquares])
  rwa [Nat.cast_ofNat] at h

theorem suitable {B : ZMod fieldSize} (hB : B ≠ 0) : Suitable coefficient B := by
  refine ⟨two_ne_zero_zmod, ?_, hB⟩
  have h := not_isSquare_of_mem (n := 486662 ^ 2 - 4) (by simp [nonsquares])
  rwa [Nat.cast_sub (by norm_num), Nat.cast_pow, Nat.cast_ofNat, Nat.cast_ofNat] at h

theorem card_curve_add_card_twist : Nat.card (curve coefficient 1).Point +
    Nat.card (curve coefficient 2).Point = 2 * fieldSize + 2 := by
  rw [card_add_card (suitable one_ne_zero) (suitable two_ne_zero_zmod) not_isSquare_two, ZMod.card]

/-- **Each coordinate** but zero belongs to a point of the curve or of its twist. -/
theorem exists_nonsingular {u : ZMod fieldSize} (hu : u ≠ 0) :
    ∃ B y, (B = 1 ∨ B = 2) ∧ (curve coefficient B).Nonsingular (B * u) y := by
  have hone := suitable one_ne_zero
  have hf : u ^ 3 + coefficient * u ^ 2 + u ≠ 0 := by
    have h : u ^ 3 + coefficient * u ^ 2 + u = u * (u ^ 2 + coefficient * u * 1 + 1 ^ 2) := by ring
    rw [h]
    exact mul_ne_zero hu (hone.quadratic_ne_zero (Or.inr one_ne_zero))
  by_cases hsquare : IsSquare (u ^ 3 + coefficient * u ^ 2 + u)
  · obtain ⟨y, hy⟩ := hsquare
    exact ⟨1, y, Or.inl rfl, hone.nonsingular (by linear_combination -hy)⟩
  · -- the product of two numbers that are no squares is one
    have hproduct : IsSquare (2 * (u ^ 3 + coefficient * u ^ 2 + u)) := by
      rw [← quadraticChar_one_iff_isSquare (mul_ne_zero two_ne_zero_zmod hf), map_mul,
        quadraticChar_neg_one_iff_not_isSquare.2 not_isSquare_two,
        quadraticChar_neg_one_iff_not_isSquare.2 hsquare]
      norm_num
    obtain ⟨y, hy⟩ := hproduct
    exact ⟨2, 2 * y, Or.inr rfl, (suitable two_ne_zero_zmod).nonsingular
      (by linear_combination -4 * hy)⟩

/-- A prime divides the number of points if the ladder takes some point to infinity with it. -/
theorem dvd_card {B y : ZMod fieldSize} {u : Fe} (hB : Suitable coefficient B)
    (hu : u.toZMod ≠ 0) (h : (curve coefficient B).Nonsingular (B * u.toZMod) y) {order : ℕ}
    (hprime : order.Prime) (hbound : order < 2 ^ 255)
    (hinfinity : ((bitsOf 255 order).foldl (Ladder.step u) (Ladder.initial u)).z2 = 0) :
    order ∣ Nat.card (curve coefficient B).Point := by
  have hrun := (Ladder.Tracks.initial (h := h)).run hB hu 255 order
  rw [zero_mul, zero_add, Nat.mod_eq_of_lt hbound] at hrun
  have hzero := hrun.lower.eq_zero_iff.1 (by rw [hinfinity, Fe.toZMod_zero])
  have hfact : Fact order.Prime := ⟨hprime⟩
  rw [← addOrderOf_eq_prime hzero (Point.some_ne_zero h)]
  exact addOrderOf_dvd_natCard _

/-- The equation of a curve, checked with field elements. -/
theorem nonsingular_toZMod {B : ZMod fieldSize} (hB : B ≠ 0) {c u y : Fe} (hc : c.toZMod = B ^ 3)
    (h : y * y = c * (u * u * u + 486662 * (u * u) + u)) :
    (curve coefficient B).Nonsingular (B * u.toZMod) y.toZMod := by
  refine (suitable hB).nonsingular ?_
  have hresidue := congrArg Fe.toZMod h
  simp only [Fe.toZMod_mul, Fe.toZMod_add, Fe.toZMod_literal 486662, hc] at hresidue
  rw [coefficient]
  linear_combination hresidue

theorem toZMod_ne_zero {u : Fe} (h : u ≠ 0) : u.toZMod ≠ 0 := by
  rw [← Fe.toZMod_zero]
  exact Fe.toZMod_inj.not.2 h

/-- The point with coordinate 9 has the order of the subgroup that is used. -/
theorem curveOrder_dvd_card : curveOrder ∣ Nat.card (curve coefficient 1).Point := by
  set y : Fe := 14781619447589544791020593568409986887264606134616475288964881837755586237401 with hy
  have hpoint : y * y = 1 * (9 * 9 * 9 + 486662 * (9 * 9) + 9) := by decide
  exact dvd_card (suitable one_ne_zero) (toZMod_ne_zero (by decide))
    (nonsingular_toZMod one_ne_zero (by rw [Fe.toZMod_one, one_pow]) hpoint) prime_curveOrder
    (by norm_num [curveOrder]) (by decide +kernel)

/-- That with coordinate 2 has the order of the large subgroup of the twist. -/
theorem twistOrder_dvd_card : twistOrder ∣ Nat.card (curve coefficient 2).Point := by
  set y : Fe := 16893788160309026681706007081237279345906129995238945011019371476578334742656 with hy
  have hpoint : y * y = 8 * (2 * 2 * 2 + 486662 * (2 * 2) + 2) := by decide
  have h8 : (8 : Fe).toZMod = 2 ^ 3 := by
    rw [Fe.toZMod_literal]
    norm_num
  exact dvd_card (suitable two_ne_zero_zmod) (toZMod_ne_zero (by decide))
    (nonsingular_toZMod two_ne_zero_zmod h8 hpoint) prime_twistOrder
    (by norm_num [twistOrder]) (by decide +kernel)

/-- **The numbers of points** of the curve and of its twist. -/
theorem card_curve_and_twist : Nat.card (curve coefficient 1).Point = 8 * curveOrder ∧
    Nat.card (curve coefficient 2).Point = 4 * twistOrder := by
  obtain ⟨a, ha⟩ := curveOrder_dvd_card
  obtain ⟨b, hb⟩ := twistOrder_dvd_card
  have hsum := card_curve_add_card_twist
  rw [ha, hb, curveOrder_eq, twistOrder_eq, fieldSize_eq] at hsum
  have hbound : b < 9 := by
    refine Nat.lt_of_mul_lt_mul_left (a :=
      14474011154664524427946373126085988481603263447650325797860494125407373907997) ?_
    refine (Nat.le_add_left _ _).trans_lt (hsum.trans_lt ?_)
    norm_num
  obtain ⟨rfl, rfl⟩ : a = 8 ∧ b = 4 := by interval_cases b <;> omega
  rw [ha, hb, mul_comm, mul_comm twistOrder]
  exact ⟨rfl, rfl⟩

end Montgomery

end SealedMessaging
