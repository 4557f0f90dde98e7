import Mathlib

/-!
# Multiples of a point by their coordinates

On a curve `y ^ 2 = x ^ 3 + A * B * x ^ 2 + B ^ 2 * x` the number `x / B` is the Montgomery coordinate
of a point. Up to isomorphism there are two of these curves for an `A`, by whether `B` is a square.
The coordinates of a double, and of a sum whose summands have a known difference, are rational in
those that are given, by formulas in which no `B` is left.

* `Montgomery.curve`: the curves.
* `Montgomery.Represents`: a fraction stands for the coordinate of a point.
* `Montgomery.Represents.double`, `Montgomery.Represents.add`: the formulas.
* `Montgomery.Represents.add_self_eq_zero_iff`: the points of order two.
-/

namespace SealedMessaging

namespace Montgomery

open WeierstrassCurve.Affine

variable {K : Type} [Field K]

/-- **The curve** `y ^ 2 = x ^ 3 + A * B * x ^ 2 + B ^ 2 * x`. -/
def curve (A B : K) : WeierstrassCurve.Affine K :=
  { a₁ := 0, a₂ := A * B, a₃ := 0, a₄ := B ^ 2, a₆ := 0 }

variable {A B : K}

theorem equation_iff {x y : K} :
    (curve A B).Equation x y ↔ y ^ 2 = x ^ 3 + A * B * x ^ 2 + B ^ 2 * x := by
  rw [WeierstrassCurve.Affine.equation_iff]
  simp only [curve, zero_mul, add_zero]

theorem negY_curve (x y : K) : (curve A B).negY x y = -y := by
  simp only [negY, curve, zero_mul, sub_zero]

theorem eq_negY_iff (h2 : (2 : K) ≠ 0) {x y : K} : y = (curve A B).negY x y ↔ y = 0 := by
  rw [negY_curve]
  refine ⟨fun h => ?_, fun h => by rw [h, neg_zero]⟩
  exact (mul_eq_zero.1 (by linear_combination h : 2 * y = 0)).resolve_left h2

theorem addX_curve (x₁ x₂ ℓ : K) : (curve A B).addX x₁ x₂ ℓ = ℓ ^ 2 - A * B - x₁ - x₂ := by
  simp only [addX, curve, zero_mul, add_zero]

theorem Δ_curve : (curve A B).Δ = 16 * B ^ 6 * (A ^ 2 - 4) := by
  simp only [WeierstrassCurve.Δ, WeierstrassCurve.b₂, WeierstrassCurve.b₄, WeierstrassCurve.b₆,
    WeierstrassCurve.b₈, curve]
  ring

/-- What is assumed of the numbers: `A ^ 2 - 4` is no square, and `B` is not zero. -/
structure Suitable (A B : K) : Prop where
  two_ne_zero : (2 : K) ≠ 0
  not_isSquare : ¬ IsSquare (A ^ 2 - 4)
  ne_zero : B ≠ 0

namespace Suitable

variable (hAB : Suitable A B)

include hAB

theorem four_ne_zero : (4 : K) ≠ 0 := by
  have h : (4 : K) = 2 ^ 2 := by norm_num
  rw [h]
  exact pow_ne_zero 2 hAB.two_ne_zero

theorem nonsingular {x y : K} (h : y ^ 2 = x ^ 3 + A * B * x ^ 2 + B ^ 2 * x) :
    (curve A B).Nonsingular x y := by
  have hA : A ^ 2 - 4 ≠ 0 := fun h => hAB.not_isSquare (h ▸ IsSquare.zero)
  have h16 : (16 : K) ≠ 0 := by
    have h : (16 : K) = 4 ^ 2 := by norm_num
    rw [h]
    exact pow_ne_zero 2 hAB.four_ne_zero
  refine (equation_iff_nonsingular_of_Δ_ne_zero ?_).1 (equation_iff.2 h)
  rw [Δ_curve]
  exact mul_ne_zero (mul_ne_zero h16 (pow_ne_zero 6 hAB.ne_zero)) hA

/-- The factor of the curve's equation besides `x` has no zeros. -/
theorem quadratic_ne_zero {X Z : K} (h : X ≠ 0 ∨ Z ≠ 0) : X ^ 2 + A * X * Z + Z ^ 2 ≠ 0 := by
  intro hzero
  by_cases hZ : Z = 0
  · subst hZ
    refine (h.resolve_right (not_not.2 rfl)) (pow_eq_zero_iff (n := 2) (by norm_num) |>.1 ?_)
    linear_combination hzero
  · refine hAB.not_isSquare ⟨(2 * X + A * Z) / Z, ?_⟩
    field_simp
    linear_combination -4 * hzero

end Suitable

/-- **The fraction `X / Z` stands for the coordinate of a point**, with denominator zero for the point
at infinity. -/
def Represents (X Z : K) : (curve A B).Point → Prop
  | .zero => X ≠ 0 ∧ Z = 0
  | .some x _ _ => Z ≠ 0 ∧ B * X = x * Z

namespace Represents

variable {X Z X₁ Z₁ X₂ Z₂ u x y x₁ y₁ x₂ y₂ : K}

theorem zero_iff : Represents X Z (0 : (curve A B).Point) ↔ X ≠ 0 ∧ Z = 0 := Iff.rfl

theorem some_iff {h : (curve A B).Nonsingular x y} :
    Represents X Z (.some x y h) ↔ Z ≠ 0 ∧ B * X = x * Z := Iff.rfl

theorem ne_zero_or {P : (curve A B).Point} (h : Represents X Z P) : X ≠ 0 ∨ Z ≠ 0 := by
  cases P with
  | zero => exact Or.inl h.1
  | some x y hxy => exact Or.inr h.1

theorem eq_zero_iff {P : (curve A B).Point} (h : Represents X Z P) : Z = 0 ↔ P = 0 := by
  cases P with
  | zero => exact ⟨fun _ => rfl, fun _ => h.2⟩
  | some x y hxy => exact ⟨fun hZ => absurd hZ h.1, fun hP => absurd hP (Point.some_ne_zero hxy)⟩

theorem of_coordinate {v : K} (h : (curve A B).Nonsingular (B * v) y) :
    Represents v 1 (.some (B * v) y h) :=
  ⟨one_ne_zero, (mul_one _).symm⟩

/-- The coordinate itself. -/
theorem exists_coordinate {h : (curve A B).Nonsingular x y}
    (hrep : Represents X Z (.some x y h)) : Z ≠ 0 ∧ ∃ v, X = v * Z ∧ x = B * v := by
  refine ⟨hrep.1, X / Z, (div_mul_cancel₀ X hrep.1).symm, ?_⟩
  rw [mul_div_assoc', eq_div_iff hrep.1]
  exact hrep.2.symm

theorem scale {c : K} (hc : c ≠ 0) {P : (curve A B).Point} (h : Represents X Z P) :
    Represents (c * X) (c * Z) P := by
  cases P with
  | zero => exact ⟨mul_ne_zero hc h.1, by rw [h.2, mul_zero]⟩
  | some x y hxy => exact ⟨mul_ne_zero hc h.1, by linear_combination c * h.2⟩

theorem neg {P : (curve A B).Point} (h : Represents X Z P) : Represents X Z (-P) := by
  cases P with
  | zero => exact h
  | some x y hxy => exact h

end Represents

section Sums

variable [DecidableEq K] {x y x₁ y₁ x₂ y₂ : K}

/-- The first coordinate of a double. -/
theorem addX_self (h2 : (2 : K) ≠ 0) (hy : y ≠ 0) (h : (curve A B).Equation x y) :
    4 * y ^ 2 * (curve A B).addX x x ((curve A B).slope x x y y) = (x ^ 2 - B ^ 2) ^ 2 := by
  have hne : y ≠ (curve A B).negY x y := mt (eq_negY_iff h2).1 hy
  have hslope : (curve A B).slope x x y y * (2 * y) = 3 * x ^ 2 + 2 * (A * B) * x + B ^ 2 := by
    rw [slope_of_Y_ne rfl hne, negY_curve, sub_neg_eq_add, ← two_mul,
      div_mul_cancel₀ _ (mul_ne_zero h2 hy)]
    simp only [curve, zero_mul, sub_zero]
  rw [addX_curve]
  linear_combination ((curve A B).slope x x y y * (2 * y) + (3 * x ^ 2 + 2 * (A * B) * x + B ^ 2)) *
    hslope - 4 * (A * B + 2 * x) * equation_iff.1 h

/-- The first coordinates of a sum and of the difference. -/
theorem addX_mul_addX (hx : x₁ ≠ x₂) (h₁ : (curve A B).Equation x₁ y₁)
    (h₂ : (curve A B).Equation x₂ y₂) :
    (curve A B).addX x₁ x₂ ((curve A B).slope x₁ x₂ y₁ y₂) *
        (curve A B).addX x₁ x₂ ((curve A B).slope x₁ x₂ y₁ (-y₂)) * (x₁ - x₂) ^ 2 =
      (x₁ * x₂ - B ^ 2) ^ 2 := by
  have hsub : x₁ - x₂ ≠ 0 := sub_ne_zero.2 hx
  have hslope : ∀ y, (curve A B).addX x₁ x₂ ((curve A B).slope x₁ x₂ y₁ y) * (x₁ - x₂) ^ 2 =
      (y₁ - y) ^ 2 - (A * B + x₁ + x₂) * (x₁ - x₂) ^ 2 := by
    intro y
    have hmul : (curve A B).slope x₁ x₂ y₁ y * (x₁ - x₂) = y₁ - y := by
      rw [slope_of_X_ne hx, div_mul_cancel₀ _ hsub]
    rw [addX_curve, ← hmul]
    ring
  refine mul_right_cancel₀ (pow_ne_zero 2 hsub) ?_
  have hproduct : (curve A B).addX x₁ x₂ ((curve A B).slope x₁ x₂ y₁ y₂) *
        (curve A B).addX x₁ x₂ ((curve A B).slope x₁ x₂ y₁ (-y₂)) * (x₁ - x₂) ^ 2 *
          (x₁ - x₂) ^ 2 =
      ((y₁ - y₂) ^ 2 - (A * B + x₁ + x₂) * (x₁ - x₂) ^ 2) *
        ((y₁ - -y₂) ^ 2 - (A * B + x₁ + x₂) * (x₁ - x₂) ^ 2) := by
    rw [← hslope, ← hslope]
    ring
  have hsquares : ((y₁ - y₂) ^ 2 - (A * B + x₁ + x₂) * (x₁ - x₂) ^ 2) *
        ((y₁ - -y₂) ^ 2 - (A * B + x₁ + x₂) * (x₁ - x₂) ^ 2) =
      (y₁ ^ 2 - y₂ ^ 2) ^ 2 - 2 * (y₁ ^ 2 + y₂ ^ 2) * ((A * B + x₁ + x₂) * (x₁ - x₂) ^ 2) +
        ((A * B + x₁ + x₂) * (x₁ - x₂) ^ 2) ^ 2 := by
    ring
  rw [hproduct, hsquares, equation_iff.1 h₁, equation_iff.1 h₂]
  ring

end Sums

namespace Represents

variable {X Z X₁ Z₁ X₂ Z₂ u v v₁ v₂ y y₁ y₂ : K}

/-- Fractions for a coordinate that is known. -/
theorem sq (hAB : Suitable A B) (hu : u ≠ 0) {h : (curve A B).Nonsingular (B * u) y} {c : K}
    (hc : c ≠ 0) (hrep : Represents X Z (.some (B * u) y h)) :
    Represents (4 * (c * X) ^ 2) (u * (4 * (c * Z) ^ 2)) (.some (B * u) y h) := by
  obtain ⟨hZ, hX⟩ := hrep
  obtain rfl : X = u * Z := mul_left_cancel₀ hAB.ne_zero (by linear_combination hX)
  have hcZ := pow_ne_zero 2 (mul_ne_zero hc hZ)
  exact ⟨mul_ne_zero hu (mul_ne_zero hAB.four_ne_zero hcZ), by ring⟩

variable [DecidableEq K]

/-- **Doubling.** -/
theorem double (hAB : Suitable A B) {P : (curve A B).Point} (h : Represents X Z P) :
    Represents ((X ^ 2 - Z ^ 2) ^ 2) (4 * X * Z * (X ^ 2 + A * X * Z + Z ^ 2)) (P + P) := by
  cases P with
  | zero =>
    obtain ⟨hX, rfl⟩ := h
    refine zero_iff.2 ⟨pow_ne_zero 2 ?_, by ring⟩
    rw [zero_pow two_ne_zero, sub_zero]
    exact pow_ne_zero 2 hX
  | some x y hxy =>
    obtain ⟨hZ, v, rfl, rfl⟩ := h.exists_coordinate
    have hequation : y ^ 2 = B ^ 3 * (v * (v ^ 2 + A * v * 1 + 1 ^ 2)) := by
      linear_combination equation_iff.1 hxy.1
    have hquadratic : v ^ 2 + A * v * 1 + 1 ^ 2 ≠ 0 :=
      hAB.quadratic_ne_zero (Or.inr one_ne_zero)
    by_cases hy : y = 0
    · -- the point is its own inverse, and its coordinate is zero
      have hv : v = 0 := by
        rw [hy, zero_pow two_ne_zero, eq_comm] at hequation
        have hB := pow_ne_zero 3 hAB.ne_zero
        exact ((mul_eq_zero.1 hequation).resolve_left hB |> mul_eq_zero.1).resolve_right hquadratic
      rw [Point.add_self_of_Y_eq ((eq_negY_iff hAB.two_ne_zero).2 hy), hv]
      refine zero_iff.2 ⟨pow_ne_zero 2 ?_, by ring⟩
      rw [zero_mul, zero_pow two_ne_zero, zero_sub]
      exact neg_ne_zero.2 (pow_ne_zero 2 hZ)
    · have hx := addX_self hAB.two_ne_zero hy hxy.1
      have hB := pow_ne_zero 3 hAB.ne_zero
      have hdenominator : B ^ 3 * (4 * (v * Z) * Z * ((v * Z) ^ 2 + A * (v * Z) * Z + Z ^ 2)) =
          4 * y ^ 2 * Z ^ 4 := by
        linear_combination -4 * Z ^ 4 * hequation
      rw [Point.add_self_of_Y_ne (mt (eq_negY_iff hAB.two_ne_zero).1 hy)]
      refine some_iff.2 ⟨fun hzero => ?_, mul_left_cancel₀ hB ?_⟩
      · rw [hzero, mul_zero, eq_comm] at hdenominator
        exact mul_ne_zero (mul_ne_zero hAB.four_ne_zero (pow_ne_zero 2 hy)) (pow_ne_zero 4 hZ)
          hdenominator
      · linear_combination -Z ^ 4 * hx -
          (curve A B).addX (B * v) (B * v) ((curve A B).slope (B * v) (B * v) y y) * hdenominator

/-- The sum of two points with one coordinate, of which the second is not the first. -/
theorem add_of_eq (hAB : Suitable A B) {h₁ : (curve A B).Nonsingular (B * v) y₁}
    {h₂ : (curve A B).Nonsingular (B * v) y₂} {h : (curve A B).Nonsingular (B * u) y} (hu : u ≠ 0)
    (hdifference : Point.some (B * v) y₂ h₂ = .some (B * v) y₁ h₁ + .some (B * u) y h) :
    Point.some (B * v) y₁ h₁ + .some (B * v) y₂ h₂ = 0 ∧ v ^ 2 - 1 ^ 2 ≠ 0 := by
  rcases Point.X_eq_iff.1 (rfl : B * v = B * v) with heq | hneg
  · -- equal points have no difference
    rw [heq, left_eq_add] at hdifference
    exact absurd hdifference (Point.some_ne_zero h)
  · refine ⟨by rw [hneg, add_neg_cancel], fun hzero => ?_⟩
    -- the difference is the double of the second point
    rw [← neg_eq_iff_eq_neg.2 hneg] at hdifference
    have hdouble := (of_coordinate h₂).double hAB
    rw [eq_neg_add_iff_add_eq.1 hdifference, hzero, zero_pow two_ne_zero] at hdouble
    obtain ⟨hZ, hX⟩ := hdouble
    rw [mul_zero, eq_comm] at hX
    exact mul_ne_zero (mul_ne_zero hAB.ne_zero hu) hZ hX

/-- The sum of two points with different coordinates. -/
theorem add_of_ne (hAB : Suitable A B) {h₁ : (curve A B).Nonsingular (B * v₁) y₁}
    {h₂ : (curve A B).Nonsingular (B * v₂) y₂} {h : (curve A B).Nonsingular (B * u) y} (hu : u ≠ 0)
    (hv : v₁ ≠ v₂)
    (hdifference : Point.some (B * v₂) y₂ h₂ = .some (B * v₁) y₁ h₁ + .some (B * u) y h) :
    Represents ((v₁ * v₂ - 1) ^ 2) (u * (v₁ - v₂) ^ 2)
      (Point.some (B * v₁) y₁ h₁ + .some (B * v₂) y₂ h₂) := by
  have hx : B * v₂ ≠ B * v₁ := fun hx => hv (mul_left_cancel₀ hAB.ne_zero hx).symm
  have hu' : B * u = (curve A B).addX (B * v₂) (B * v₁)
      ((curve A B).slope (B * v₂) (B * v₁) y₂ (-y₁)) := by
    have hD : Point.some (B * u) y h = .some (B * v₂) y₂ h₂ + -.some (B * v₁) y₁ h₁ := by
      rw [hdifference, add_neg_cancel_comm]
    rw [Point.neg_some, Point.add_of_X_ne hx, Point.some.injEq, negY_curve] at hD
    exact hD.1
  have hproduct := addX_mul_addX hx h₂.1 h₁.1
  rw [← hu'] at hproduct
  rw [add_comm, Point.add_of_X_ne hx]
  refine ⟨mul_ne_zero hu (pow_ne_zero 2 (sub_ne_zero.2 hv)), ?_⟩
  refine mul_left_cancel₀ (pow_ne_zero 3 hAB.ne_zero) ?_
  linear_combination -hproduct

/-- **Adding a point whose difference is known**, here one with coordinate `u`. -/
theorem add (hAB : Suitable A B) {P Q : (curve A B).Point} {h : (curve A B).Nonsingular (B * u) y}
    (hu : u ≠ 0) (hP : Represents X₁ Z₁ P) (hQ : Represents X₂ Z₂ Q)
    (hdifference : Q = P + .some (B * u) y h) :
    Represents (4 * (X₁ * X₂ - Z₁ * Z₂) ^ 2) (u * (4 * (X₁ * Z₂ - Z₁ * X₂) ^ 2)) (P + Q) := by
  -- where one point is neutral the sum is the other one, which is the known difference or its inverse
  by_cases hP₀ : P = 0
  · subst hP₀
    obtain ⟨hX₁, rfl⟩ := zero_iff.1 hP
    rw [zero_add] at hdifference ⊢
    subst hdifference
    rw [zero_mul, zero_mul, sub_zero, sub_zero]
    exact hQ.sq hAB hu hX₁
  by_cases hQ₀ : Q = 0
  · subst hQ₀
    obtain ⟨hX₂, rfl⟩ := zero_iff.1 hQ
    obtain rfl := eq_neg_of_add_eq_zero_left hdifference.symm
    rw [add_zero, mul_zero, mul_zero, sub_zero, zero_sub, neg_sq, mul_comm X₁, mul_comm Z₁]
    exact ((neg_neg (Point.some _ _ h) ▸ hP.neg).sq hAB hu hX₂).neg
  cases P with
  | zero => exact absurd rfl hP₀
  | some x₁ y₁ h₁ =>
    cases Q with
    | zero => exact absurd rfl hQ₀
    | some x₂ y₂ h₂ =>
      obtain ⟨hZ₁, v₁, rfl, rfl⟩ := hP.exists_coordinate
      obtain ⟨hZ₂, v₂, rfl, rfl⟩ := hQ.exists_coordinate
      -- it is enough to add the coordinates, since both results have the factor `4 * (Z₁ * Z₂) ^ 2`
      have hsum : Represents ((v₁ * v₂ - 1) ^ 2) (u * (v₁ - v₂) ^ 2)
          (Point.some (B * v₁) y₁ h₁ + .some (B * v₂) y₂ h₂) := by
        by_cases hv : v₁ = v₂
        · subst hv
          obtain ⟨hzero, hne⟩ := add_of_eq hAB hu hdifference
          rw [hzero, ← pow_two, ← one_pow 2]
          exact zero_iff.2 ⟨pow_ne_zero 2 hne, by ring⟩
        · exact add_of_ne hAB hu hv hdifference
      have hX : 4 * (v₁ * Z₁ * (v₂ * Z₂) - Z₁ * Z₂) ^ 2 =
          4 * (Z₁ * Z₂) ^ 2 * (v₁ * v₂ - 1) ^ 2 := by ring
      have hZ : u * (4 * (v₁ * Z₁ * Z₂ - Z₁ * (v₂ * Z₂)) ^ 2) =
          4 * (Z₁ * Z₂) ^ 2 * (u * (v₁ - v₂) ^ 2) := by ring
      rw [hX, hZ]
      exact hsum.scale (mul_ne_zero hAB.four_ne_zero (pow_ne_zero 2 (mul_ne_zero hZ₁ hZ₂)))

/-- **The points of order two.** -/
theorem add_self_eq_zero_iff (hAB : Suitable A B) {P : (curve A B).Point} (h : Represents X Z P) :
    P + P = 0 ↔ X = 0 ∨ Z = 0 := by
  rw [← (h.double hAB).eq_zero_iff, mul_eq_zero, mul_eq_zero, mul_eq_zero]
  simp only [hAB.four_ne_zero, hAB.quadratic_ne_zero h.ne_zero_or, false_or, or_false]

/-- **The points whose order divides eight**, by their coordinate. -/
theorem eight_nsmul_eq_zero_iff (hAB : Suitable A B) (h : (curve A B).Nonsingular (B * u) y)
    (hu : u ≠ 0) :
    8 • Point.some (B * u) y h = 0 ↔ u ^ 2 = 1 ∨
      (u ^ 2 - 1) ^ 2 = 4 * u * (u ^ 2 + A * u + 1) ∨
      (u ^ 2 - 1) ^ 2 = -(4 * u * (u ^ 2 + A * u + 1)) := by
  have hdouble := (of_coordinate h).double hAB
  have h8 : 8 • Point.some (B * u) y h =
      Point.some (B * u) y h + .some (B * u) y h + (.some (B * u) y h + .some (B * u) y h) +
        (Point.some (B * u) y h + .some (B * u) y h + (.some (B * u) y h + .some (B * u) y h)) := by
    rw [← two_nsmul, ← two_nsmul, ← two_nsmul, ← mul_nsmul, ← mul_nsmul]
  -- neither the denominator of the double nor a factor of its double's is zero
  have hquadratic : u ^ 2 + A * u * 1 + 1 ^ 2 ≠ 0 := hAB.quadratic_ne_zero (Or.inr one_ne_zero)
  have hquadratic' := hAB.quadratic_ne_zero hdouble.ne_zero_or
  rw [h8, (hdouble.double hAB).add_self_eq_zero_iff hAB, pow_eq_zero_iff two_ne_zero, sub_eq_zero,
    sq_eq_sq_iff_eq_or_eq_neg, mul_eq_zero, or_iff_left hquadratic', mul_eq_zero, mul_eq_zero,
    or_iff_right hAB.four_ne_zero, pow_eq_zero_iff two_ne_zero, sub_eq_zero, or_iff_left
    (mul_ne_zero (mul_ne_zero (mul_ne_zero hAB.four_ne_zero hu) one_ne_zero) hquadratic), or_comm]
  simp only [mul_one, one_pow]

end Represents

end Montgomery

end SealedMessaging
