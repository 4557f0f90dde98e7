import SealedMessaging.Curve.Signature
import SealedMessaging.Proofs.Bytes
import SealedMessaging.Proofs.Curve.Field

/-!
# Every public key that is derived from a seed decodes

The sum of two points of the curve is on the curve, so all multiples of the generator are. The
second coordinate that is written for a point of the curve always has a first one, which decoding
finds. Nothing is assumed of the denominator of a point: where it is zero, the bytes written are
zeros, and these are the bytes of a point as well.

* `Point.OnCurve`, `Point.OnCurve.add`: the equation of the curve, and that sums keep it.
* `Point.isSome_decode?_encode`: what is written for a point of the curve decodes.
* `Signature.isSome_decode?_publicOf`: public keys decode.
-/

namespace SealedMessaging

namespace Point

/-- The equation of the curve, `(y² - x²) z² = z⁴ + d x² y²`. -/
def OnCurve (p : Point) : Prop :=
  (p.y * p.y - p.x * p.x) * (p.z * p.z) =
    p.z * p.z * (p.z * p.z) + d * (p.x * p.x) * (p.y * p.y)

instance (p : Point) : Decidable p.OnCurve := inferInstanceAs (Decidable (_ = _))

/-- The equation of the curve on residues. -/
theorem onCurve_iff {p : Point} :
    p.OnCurve ↔ (p.y.toZMod ^ 2 - p.x.toZMod ^ 2) * p.z.toZMod ^ 2 =
      p.z.toZMod ^ 4 + d.toZMod * p.x.toZMod ^ 2 * p.y.toZMod ^ 2 := by
  unfold OnCurve
  rw [← Fe.toZMod_inj]
  simp only [Fe.toZMod_mul, Fe.toZMod_add, Fe.toZMod_sub]
  ring_nf

/-! ## Sums and multiples -/

section Addition

variable {R : Type*} [CommRing R] {d x₁ y₁ z₁ x₂ y₂ z₂ : R}

/-- The addition formula in the two factors `b - f` and `b + f`, from which the equation of the sum
follows by multiplying with both. -/
theorem addition_identity (h₁ : (y₁ ^ 2 - x₁ ^ 2) * z₁ ^ 2 = z₁ ^ 4 + d * x₁ ^ 2 * y₁ ^ 2)
    (h₂ : (y₂ ^ 2 - x₂ ^ 2) * z₂ ^ 2 = z₂ ^ 4 + d * x₂ ^ 2 * y₂ ^ 2) :
    let b := (z₁ * z₂) ^ 2
    let f := d * (x₁ * x₂) * (y₁ * y₂)
    let s := x₁ * y₂ + y₁ * x₂
    let t := y₁ * y₂ + x₁ * x₂
    b * ((b + f) ^ 2 * t ^ 2 - (b - f) ^ 2 * s ^ 2) =
      (b - f) ^ 2 * (b + f) ^ 2 + d * b ^ 2 * s ^ 2 * t ^ 2 := by
  intro b f s t
  set n₁ := y₁ ^ 2 - x₁ ^ 2 with hn₁
  set n₂ := y₂ ^ 2 - x₂ ^ 2 with hn₂
  set u₁ := d * x₁ ^ 2 * y₁ ^ 2 with hu₁
  set u₂ := d * x₂ ^ 2 * y₂ ^ 2 with hu₂
  -- each factor of the product below is `b² - u₁ u₂` up to a square
  have hleft : z₂ ^ 2 * (b * n₁ - u₁ * n₂) = b ^ 2 - u₁ * u₂ := by
    linear_combination z₂ ^ 4 * h₁ - u₁ * h₂
  have hright : z₁ ^ 2 * (b * n₂ - u₂ * n₁) = b ^ 2 - u₁ * u₂ := by
    linear_combination z₁ ^ 4 * h₂ - u₂ * h₁
  have hsquare : f ^ 2 = u₁ * u₂ := by simp only [f, hu₁, hu₂]; ring
  have hproduct : b * ((b * n₁ - u₁ * n₂) * (b * n₂ - u₂ * n₁)) = (b ^ 2 - u₁ * u₂) ^ 2 := by
    have hb : b = z₂ ^ 2 * z₁ ^ 2 := by simp only [b]; ring
    linear_combination (b * n₁ - u₁ * n₂) * (b * n₂ - u₂ * n₁) * hb +
      z₁ ^ 2 * (b * n₂ - u₂ * n₁) * hleft + (b ^ 2 - u₁ * u₂) * hright
  have hrest : b * ((b + f) ^ 2 * t ^ 2 - (b - f) ^ 2 * s ^ 2) - d * b ^ 2 * s ^ 2 * t ^ 2 =
      b * ((b * n₁ - u₁ * n₂) * (b * n₂ - u₂ * n₁)) := by
    simp only [s, t, hn₁, hn₂, hu₁, hu₂, f]
    ring
  linear_combination hrest + hproduct + (b ^ 2 - f ^ 2 + b ^ 2 - u₁ * u₂) * hsquare

end Addition

theorem OnCurve.add {p q : Point} (hp : p.OnCurve) (hq : q.OnCurve) : (p.add q).OnCurve := by
  rw [onCurve_iff] at hp hq ⊢
  have h := addition_identity hp hq
  simp only [Point.add, Fe.toZMod_mul, Fe.toZMod_add, Fe.toZMod_sub]
  set X₁ := p.x.toZMod
  set Y₁ := p.y.toZMod
  set Z₁ := p.z.toZMod
  set X₂ := q.x.toZMod
  set Y₂ := q.y.toZMod
  set Z₂ := q.z.toZMod
  set D := d.toZMod
  linear_combination ((Z₁ * Z₂) ^ 2 - D * (X₁ * X₂) * (Y₁ * Y₂)) ^ 2 *
    ((Z₁ * Z₂) ^ 2 + D * (X₁ * X₂) * (Y₁ * Y₂)) ^ 2 * h

theorem onCurve_identity : identity.OnCurve := by decide

theorem onCurve_base : base.OnCurve := by decide

theorem OnCurve.timesBits {p : Point} (hp : p.OnCurve) (bits : ℕ) :
    ∀ factor, (p.timesBits bits factor).OnCurve := by
  induction bits with
  | zero => intro factor; exact onCurve_identity
  | succ bits ih =>
    intro factor
    have htwice := (ih (factor / 2)).add (ih (factor / 2))
    simp only [Point.timesBits]
    split
    · exact htwice.add hp
    · exact htwice

/-- **Multiples of the generator are on the curve.** -/
theorem onCurve_times_base (factor : ℕ) : (times factor base).OnCurve :=
  onCurve_base.timesBits 256 factor

/-! ## Decoding -/

/-- What is read back of the second coordinate that is written. -/
theorem ofOctets_encode (p : Point) : Fe.ofOctets p.encode = p.y * p.z.inverse := by
  have hy : (p.y * p.z.inverse).val < 2 ^ 255 :=
    lt_trans (p.y * p.z.inverse).isLt (by rw [fieldSize_eq]; norm_num)
  have hread : ∀ n, n < 2 ^ 256 → (Octets.ofNat 32 n).toNat = n := fun n hn =>
    (Bytes.toNat_ofNat 32 n).trans (Nat.mod_eq_of_lt (lt_of_lt_of_eq hn (by norm_num)))
  have hpow : Nat.pow 2 255 = 2 ^ 255 := rfl
  apply Fe.toZMod_inj.1
  unfold Fe.ofOctets encode
  simp only [hpow]
  rw [Fe.toZMod_ofNat]
  split
  · rw [hread _ (by omega), Nat.add_mod_right, Nat.mod_eq_of_lt hy]; rfl
  · rw [hread _ (by omega), Nat.add_zero, Nat.mod_eq_of_lt hy]; rfl

theorem sqrtMinusOne_sq : Fe.sqrtMinusOne.toZMod ^ 2 = -1 := by
  have h : Fe.sqrtMinusOne * Fe.sqrtMinusOne = -1 := by decide
  rw [sq, ← Fe.toZMod_mul, h, Fe.toZMod_neg, Fe.toZMod_one]

/-- The second coordinate of a point of the curve, divided by the denominator, belongs to some first
coordinate. -/
theorem OnCurve.exists_x {p : Point} (h : p.OnCurve) :
    ∃ x : ZMod fieldSize, (p.y * p.z.inverse).toZMod ^ 2 - 1 =
      x ^ 2 * (d.toZMod * (p.y * p.z.inverse).toZMod ^ 2 + 1) := by
  rw [onCurve_iff] at h
  rw [Fe.toZMod_mul, Fe.toZMod_inverse]
  by_cases hz : p.z.toZMod = 0
  · refine ⟨Fe.sqrtMinusOne.toZMod, ?_⟩
    rw [hz, inv_zero, sqrtMinusOne_sq]
    ring
  · refine ⟨p.x.toZMod * p.z.toZMod⁻¹, ?_⟩
    field_simp
    linear_combination h

/-- **What is written for a point of the curve decodes.** -/
theorem isSome_decode?_encode {p : Point} (h : p.OnCurve) : (decode? p.encode).isSome := by
  obtain ⟨x, hx⟩ := h.exists_x
  unfold decode?
  simp only [Option.isSome_map, ofOctets_encode]
  apply Fe.isSome_sqrtRatio? (x := x)
  simp only [Fe.toZMod_sub, Fe.toZMod_add, Fe.toZMod_mul, Fe.toZMod_one] at hx ⊢
  linear_combination hx

end Point

namespace Signature

/-- **The public key of every seed is a point of the curve**, as far as decoding can tell. -/
theorem isSome_decode?_publicOf (seed : Octets 32) : (Point.decode? (publicOf seed)).isSome :=
  Point.isSome_decode?_encode (Point.onCurve_times_base _)

/-- The public key of the seed zero is not zero. -/
theorem publicOf_zero_ne : publicOf (.zero 32) ≠ .zero 32 := by decide +kernel

end Signature

end SealedMessaging
