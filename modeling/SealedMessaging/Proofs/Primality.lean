import Mathlib

/-!
# Certificates of primality

Pocklington's test looks at the order of the element 2, with primes that divide `n - 1` and whose
product is greater than the root of `n`. Primes that have passed it serve for the numbers behind them.

* `powMod`: powers modulo a number, by squaring.
* `Certificate.passes`: the test.
* `prime_of_passAll`: numbers that pass one after the other are prime.
-/

namespace SealedMessaging

/-- The power `a ^ exponent` modulo `n`, by squaring, for an exponent below `2 ^ bits`. -/
def powMod (n a : ℕ) : (bits exponent : ℕ) → ℕ
  | 0, _ => 1
  | bits + 1, exponent =>
    let half := powMod n a bits (exponent / 2)
    if exponent % 2 = 1 then half * half * a % n else half * half % n

theorem cast_powMod (n a : ℕ) : ∀ bits exponent : ℕ, exponent < 2 ^ bits →
    (powMod n a bits exponent : ZMod n) = (a : ZMod n) ^ exponent := by
  intro bits
  induction bits with
  | zero =>
    intro exponent h
    obtain rfl : exponent = 0 := by simpa using h
    simp [powMod]
  | succ bits ih =>
    intro exponent h
    have hhalf := ih (exponent / 2) (by rw [pow_succ] at h; omega)
    simp only [powMod]
    split
    · rename_i hodd
      have hexp : exponent = exponent / 2 + exponent / 2 + 1 := by omega
      rw [ZMod.natCast_mod, Nat.cast_mul, Nat.cast_mul, hhalf]
      conv_rhs => rw [hexp, pow_succ, pow_add]
    · have hexp : exponent = exponent / 2 + exponent / 2 := by omega
      rw [ZMod.natCast_mod, Nat.cast_mul, hhalf]
      conv_rhs => rw [hexp, pow_add]

/-- A number, and primes that divide the number before it. -/
structure Certificate where
  number : ℕ
  factors : List ℕ

namespace Certificate

/-- **The test**, given numbers that are known to be prime. -/
def passes (known : List ℕ) (c : Certificate) : Bool :=
  let power := powMod c.number 2 256
  1 < c.number && c.number < 2 ^ 256 && c.factors.Nodup &&
    c.number < c.factors.prod * c.factors.prod && power (c.number - 1) % c.number == 1 &&
    c.factors.all fun q => known.contains q && (c.number - 1) % q == 0 &&
      Nat.gcd (power ((c.number - 1) / q) + (c.number - 1)) c.number == 1

/-- The test of several numbers, where those that have passed are known. -/
def passAll : (known : List ℕ) → List Certificate → Bool
  | _, [] => true
  | known, c :: rest => c.passes known && passAll (c.number :: known) rest

/-- A prime divides an order that divides `n` but not the quotient of `n` and the prime. -/
theorem dvd_orderOf {G : Type} [Monoid G] {g : G} {n q : ℕ} (hq : q.Prime) (hdvd : q ∣ n)
    (hn : g ^ n = 1) (hne : g ^ (n / q) ≠ 1) : q ∣ orderOf g := by
  by_contra h
  refine hne (orderOf_dvd_iff_pow_eq_one.1 ?_)
  refine (hq.coprime_iff_not_dvd.2 h).symm.dvd_of_dvd_mul_right ?_
  rw [Nat.div_mul_cancel hdvd]
  exact orderOf_dvd_iff_pow_eq_one.2 hn

theorem prod_dvd {factors : List ℕ} {n : ℕ} (hnodup : factors.Nodup)
    (hprime : ∀ q ∈ factors, q.Prime) (hdvd : ∀ q ∈ factors, q ∣ n) : factors.prod ∣ n := by
  have h := Finset.prod_primes_dvd (s := factors.toFinset) n
    (fun q hq => (hprime q (List.mem_toFinset.1 hq)).prime)
    (fun q hq => hdvd q (List.mem_toFinset.1 hq))
  rwa [List.prod_toFinset _ hnodup, List.map_id'] at h

/-- **What passes the test is prime.** Modulo any prime factor, the order of 2 is divisible by all the
given primes, so that this factor is greater than their product. -/
theorem prime_of_passes {known : List ℕ} {c : Certificate} (hknown : ∀ q ∈ known, q.Prime)
    (h : c.passes known = true) : c.number.Prime := by
  obtain ⟨n, factors⟩ := c
  simp only [passes, Bool.and_eq_true, decide_eq_true_eq, beq_iff_eq, List.all_eq_true,
    List.contains_iff_mem] at h
  obtain ⟨⟨⟨⟨⟨hn, hbits⟩, hnodup⟩, hlarge⟩, hone⟩, hfactors⟩ := h
  by_contra hcomposite
  -- the square of the least prime factor is at most `n`, and that of the given product is greater
  set r := n.minFac with hr
  have hrprime : r.Prime := Nat.minFac_prime (by omega)
  have hrdvd : r ∣ n := Nat.minFac_dvd n
  have hrsq : r * r ≤ n := by
    rw [← pow_two]
    exact Nat.minFac_sq_le_self (by omega) hcomposite
  have hfact : Fact r.Prime := ⟨hrprime⟩
  have hzero : (n : ZMod r) = 0 := (ZMod.natCast_eq_zero_iff n r).2 hrdvd
  have hpow : ∀ e ≤ n - 1, (powMod n 2 256 e : ZMod r) = (2 : ZMod r) ^ e := by
    intro e he
    have h := congrArg (ZMod.castHom hrdvd (ZMod r)) (cast_powMod n 2 256 e (by omega))
    rwa [map_pow, map_natCast, map_natCast, Nat.cast_ofNat] at h
  have horder : (2 : ZMod r) ^ (n - 1) = 1 := by
    rw [← hpow _ le_rfl, ← Nat.div_add_mod (powMod n 2 256 (n - 1)) n, hone, Nat.cast_add,
      Nat.cast_mul, hzero, zero_mul, zero_add, Nat.cast_one]
  have hne : ∀ q ∈ factors, (2 : ZMod r) ^ ((n - 1) / q) ≠ 1 := by
    intro q hq h
    rw [← hpow _ (Nat.div_le_self _ _)] at h
    have hdvd : r ∣ powMod n 2 256 ((n - 1) / q) + (n - 1) := by
      rw [← ZMod.natCast_eq_zero_iff, Nat.cast_add, h, Nat.cast_sub hn.le, hzero]
      ring
    exact hrprime.one_lt.ne' (Nat.dvd_one.1 ((hfactors q hq).2 ▸ Nat.dvd_gcd hdvd hrdvd))
  -- each given prime divides the order of 2 modulo `r`, which divides `r - 1`
  have hproduct : factors.prod ∣ r - 1 := by
    refine prod_dvd hnodup (fun q hq => hknown q (hfactors q hq).1.1) fun q hq => ?_
    refine (dvd_orderOf (hknown q (hfactors q hq).1.1)
      (Nat.dvd_of_mod_eq_zero (hfactors q hq).1.2) horder (hne q hq)).trans ?_
    refine orderOf_dvd_iff_pow_eq_one.2 (ZMod.pow_card_sub_one_eq_one fun h => ?_)
    rw [h, zero_pow (by omega)] at horder
    exact zero_ne_one horder
  have hle := Nat.le_of_dvd (Nat.sub_pos_of_lt hrprime.one_lt) hproduct
  have hsq := Nat.mul_le_mul (hle.trans (Nat.sub_le r 1)) (hle.trans (Nat.sub_le r 1))
  omega

/-- **Numbers that pass one after the other are prime.** -/
theorem prime_of_passAll {known : List ℕ} {certificates : List Certificate}
    (hknown : ∀ q ∈ known, q.Prime) (h : passAll known certificates = true) :
    ∀ n ∈ certificates.map number, n.Prime := by
  induction certificates generalizing known with
  | nil => exact fun n hn => absurd hn List.not_mem_nil
  | cons c rest ih =>
    obtain ⟨hc, hrest⟩ := Bool.and_eq_true_iff.1 h
    have hprime := prime_of_passes hknown hc
    exact List.forall_mem_cons.2 ⟨hprime, ih (List.forall_mem_cons.2 ⟨hprime, hknown⟩) hrest⟩

end Certificate

end SealedMessaging
