import Mathlib
import SealedMessaging.Curve.Montgomery
import SealedMessaging.Proofs.Curve.Field
import SealedMessaging.Proofs.Curve.Multiples

/-!
# What the ladder computes

Read as residues, the two fractions of a ladder stand for the coordinates of neighbouring multiples of
a point, and each step doubles the factor and adds a bit to it. This holds on the curve and on its
twist, so for every coordinate but zero, for which each fraction stays zero or has denominator zero.

* `Montgomery.Ladder.Tracks`: the fractions stand for the multiples by `k` and `k + 1`.
* `Montgomery.Ladder.Tracks.step`, `Montgomery.Ladder.Tracks.run`: one bit, and all bits.
* `Montgomery.times_eq_zero_iff`: when the coordinate of a multiple is zero.
-/

namespace SealedMessaging

namespace Montgomery

open WeierstrassCurve.Affine

/-- The coefficient of the curve. -/
def coefficient : ZMod fieldSize := 486662

namespace Ladder

variable {u : Fe} {s : Ladder}

/-- The fractions after a double, as residues. -/
theorem toZMod_double (u : Fe) (s : Ladder) :
    (double u s).x2.toZMod = (s.x2.toZMod ^ 2 - s.z2.toZMod ^ 2) ^ 2 ∧
      (double u s).z2.toZMod = 4 * s.x2.toZMod * s.z2.toZMod *
        (s.x2.toZMod ^ 2 + coefficient * s.x2.toZMod * s.z2.toZMod + s.z2.toZMod ^ 2) ∧
      (double u s).x3.toZMod =
        4 * (s.x2.toZMod * s.x3.toZMod - s.z2.toZMod * s.z3.toZMod) ^ 2 ∧
      (double u s).z3.toZMod =
        u.toZMod * (4 * (s.x2.toZMod * s.z3.toZMod - s.z2.toZMod * s.x3.toZMod) ^ 2) := by
  simp only [double, Fe.toZMod_add, Fe.toZMod_sub, Fe.toZMod_mul, Fe.toZMod_literal 121665,
    coefficient]
  refine ⟨?_, ?_, ?_, ?_⟩ <;> ring

variable {B : ZMod fieldSize} {P : (curve coefficient B).Point} {k : ℕ}

/-- **The fractions of a ladder stand for the multiples of a point** by `k` and `k + 1`. -/
structure Tracks (P : (curve coefficient B).Point) (k : ℕ) (s : Ladder) : Prop where
  lower : Represents s.x2.toZMod s.z2.toZMod (k • P)
  upper : Represents s.x3.toZMod s.z3.toZMod ((k + 1) • P)

namespace Tracks

variable {y : ZMod fieldSize} {h : (curve coefficient B).Nonsingular (B * u.toZMod) y}

theorem initial : Tracks (.some (B * u.toZMod) y h) 0 (initial u) := by
  refine ⟨?_, ?_⟩
  · rw [zero_nsmul]
    show Represents (1 : Fe).toZMod (0 : Fe).toZMod _
    rw [Fe.toZMod_one, Fe.toZMod_zero]
    exact Represents.zero_iff.2 ⟨one_ne_zero, rfl⟩
  · rw [zero_add, one_nsmul]
    show Represents u.toZMod (1 : Fe).toZMod _
    rw [Fe.toZMod_one]
    exact Represents.of_coordinate h

theorem swap (hs : Tracks P k s) :
    Represents s.swap.x2.toZMod s.swap.z2.toZMod ((k + 1) • P) ∧
      Represents s.swap.x3.toZMod s.swap.z3.toZMod (k • P) :=
  ⟨hs.upper, hs.lower⟩

variable (hB : Suitable coefficient B) (hu : u.toZMod ≠ 0)

include hB hu

/-- A double of two fractions, of which either may be the lower multiple. -/
theorem double {P Q : (curve coefficient B).Point} {s : Ladder}
    (hP : Represents s.x2.toZMod s.z2.toZMod P) (hQ : Represents s.x3.toZMod s.z3.toZMod Q)
    (hdifference : Q = P + .some (B * u.toZMod) y h) :
    Represents (Ladder.double u s).x2.toZMod (Ladder.double u s).z2.toZMod (P + P) ∧
      Represents (Ladder.double u s).x3.toZMod (Ladder.double u s).z3.toZMod (P + Q) := by
  obtain ⟨hx2, hz2, hx3, hz3⟩ := toZMod_double u s
  rw [hx2, hz2, hx3, hz3]
  exact ⟨hP.double hB, hP.add hB hu hQ hdifference⟩

/-- **One bit**: the factor is doubled, and the bit is added to it. -/
theorem step (hs : Tracks (.some (B * u.toZMod) y h) k s) (bit : Bool) :
    Tracks (.some (B * u.toZMod) y h) (2 * k + bit.toNat) (s.step u bit) := by
  cases bit with
  | false =>
    obtain ⟨hlower, hupper⟩ := double hB hu hs.lower hs.upper (succ_nsmul _ k)
    refine ⟨?_, ?_⟩
    · rw [Bool.toNat_false, add_zero, two_mul, add_nsmul]
      exact hlower
    · rw [Bool.toNat_false, add_zero, two_mul, add_assoc, add_nsmul]
      exact hupper
  | true =>
    -- with the fractions swapped, the difference is the inverse of the point
    have hdifference : k • Point.some (B * u.toZMod) y h =
        (k + 1) • Point.some (B * u.toZMod) y h + -Point.some (B * u.toZMod) y h := by
      rw [succ_nsmul, add_neg_cancel_right]
    obtain ⟨hupper, hlower⟩ := double hB hu hs.swap.1 hs.swap.2 hdifference
    refine ⟨?_, ?_⟩
    · have hk : 2 * k + true.toNat = k + 1 + k := by rw [Bool.toNat_true]; omega
      rw [hk, add_nsmul]
      exact hlower
    · have hk : 2 * k + true.toNat + 1 = (k + 1) + (k + 1) := by rw [Bool.toNat_true]; omega
      rw [hk, add_nsmul]
      exact hupper

/-- **All bits** of a number are appended to the factor. -/
theorem run (hs : Tracks (.some (B * u.toZMod) y h) k s) (count n : ℕ) :
    Tracks (.some (B * u.toZMod) y h) (k * 2 ^ count + n % 2 ^ count)
      ((bitsOf count n).foldl (Ladder.step u) s) := by
  induction count generalizing k s with
  | zero => simpa [bitsOf, Nat.mod_one] using hs
  | succ count ih =>
    have hk : k * 2 ^ (count + 1) + n % 2 ^ (count + 1) =
        (2 * k + (n.testBit count).toNat) * 2 ^ count + n % 2 ^ count := by
      rw [Nat.mod_pow_succ, Nat.toNat_testBit, pow_succ]
      ring
    rw [hk]
    exact ih (hs.step hB hu (n.testBit count))

end Tracks

/-- Both fractions are zero or have denominator zero. -/
def Degenerate (s : Ladder) : Prop :=
  s.x2.toZMod * s.z2.toZMod = 0 ∧ s.x3.toZMod * s.z3.toZMod = 0

theorem Degenerate.double (hs : s.Degenerate) : (Ladder.double 0 s).Degenerate := by
  obtain ⟨hx2, hz2, hx3, hz3⟩ := toZMod_double 0 s
  unfold Degenerate
  rw [hx2, hz2, hx3, hz3, Fe.toZMod_zero]
  refine ⟨?_, by ring⟩
  linear_combination 4 * (s.x2.toZMod ^ 2 - s.z2.toZMod ^ 2) ^ 2 *
    (s.x2.toZMod ^ 2 + coefficient * s.x2.toZMod * s.z2.toZMod + s.z2.toZMod ^ 2) * hs.1

theorem Degenerate.step (hs : s.Degenerate) (bit : Bool) : (s.step 0 bit).Degenerate := by
  cases bit with
  | false => exact hs.double
  | true => exact (Degenerate.double (s := s.swap) ⟨hs.2, hs.1⟩).symm

theorem Degenerate.run (hs : s.Degenerate) (bits : List Bool) :
    (bits.foldl (Ladder.step 0) s).Degenerate := by
  induction bits generalizing s with
  | nil => exact hs
  | cons bit bits ih => exact ih (hs.step bit)

end Ladder

/-! ## Multiples whose coordinate is zero -/

theorem mul_inverse_eq_zero_iff {a b : Fe} : a * b.inverse = 0 ↔ a.toZMod = 0 ∨ b.toZMod = 0 := by
  rw [← Fe.toZMod_inj, Fe.toZMod_mul, Fe.toZMod_inverse, Fe.toZMod_zero, mul_eq_zero, inv_eq_zero]

theorem times_zero (factor : ℕ) : times factor 0 = 0 := by
  have hs : (Ladder.initial 0).Degenerate := ⟨mul_zero _, zero_mul _⟩
  exact mul_inverse_eq_zero_iff.2 (mul_eq_zero.1 (hs.run (bitsOf 255 factor)).1)

/-- **The coordinate of a multiple is zero** if the multiple, added to itself, is. -/
theorem times_eq_zero_iff {B y : ZMod fieldSize} {u : Fe} (hB : Suitable coefficient B)
    (hu : u.toZMod ≠ 0) (h : (curve coefficient B).Nonsingular (B * u.toZMod) y) {factor : ℕ}
    (hfactor : factor < 2 ^ 255) :
    times factor u = 0 ↔ (factor + factor) • Point.some (B * u.toZMod) y h = 0 := by
  have hrun := (Ladder.Tracks.initial (h := h)).run hB hu 255 factor
  rw [zero_mul, zero_add, Nat.mod_eq_of_lt hfactor] at hrun
  rw [add_nsmul, hrun.lower.add_self_eq_zero_iff hB]
  exact mul_inverse_eq_zero_iff

end Montgomery

end SealedMessaging
