import Mathlib.Data.List.TakeWhile
import SealedMessaging.Proofs.Json.Scalars

/-!
# What is read stands alone

A value that holds no others is read from the characters it is written with, as a string is. What
stands behind them matters only for a number, which goes on as long as it can, and there it is enough
that nothing follows that could belong to it.

* `Follows`: what may stand behind a value.
* `exists_cut_readScalar`: the characters of a value, from which it is read with anything else behind
  them.
-/

namespace SealedMessaging.Json

/-! ## Blanks -/

theorem skipBlanks_append {b : Text} (hb : skipBlanks b = []) (t : Text) :
    skipBlanks (b ++ t) = skipBlanks t := by
  unfold skipBlanks at hb ⊢
  rw [List.dropWhile_append, hb]
  rfl

/-- A text is the blanks in front and the text without them. -/
theorem exists_blanks (t : Text) : ∃ b, skipBlanks b = [] ∧ t = b ++ skipBlanks t := by
  refine ⟨t.takeWhile isBlank, ?_, List.takeWhile_append_dropWhile.symm⟩
  unfold skipBlanks
  rw [List.dropWhile_eq_nil_iff]
  exact fun c hc => List.mem_takeWhile_imp hc

/-! ## Numbers -/

/-- **What may stand behind a value**: nothing, or a blank, a comma or a closing bracket. -/
def Follows (w : Text) : Prop :=
  ∀ c ∈ w.head?, isBlank c = true ∨ c = ',' ∨ c = ']' ∨ c = '\x7d'

/-- No digit stands in front. -/
def NoDigit (w : Text) : Prop :=
  ∀ c ∈ w.head?, c.isDigit = false

theorem Follows.head_ne {w : Text} (h : Follows w) :
    ∀ c ∈ w.head?, c.isDigit = false ∧ c ≠ '.' ∧ c ≠ 'e' ∧ c ≠ 'E' := by
  intro c hc
  rcases h c hc with hblank | rfl | rfl | rfl
  · simp only [isBlank, Bool.or_eq_true, beq_iff_eq] at hblank
    rcases hblank with ((rfl | rfl) | rfl) | rfl
    all_goals decide
  all_goals decide

namespace Numeral

variable {atEnd : Stop} {t r : Text}

theorem exists_cut_scanSomeDigits {digits : List Nat}
    (h : scanSomeDigits atEnd t = .ok (digits, r)) :
    ∃ c u, c.isDigit = true ∧ t = c :: u ++ r ∧
      ∀ w, NoDigit w → scanSomeDigits atEnd (c :: u ++ w) = .ok (digits, w) := by
  obtain ⟨hscan, hne⟩ := scanSomeDigits_eq_ok_iff.1 h
  obtain ⟨rfl, rfl⟩ := Prod.mk.inj hscan
  have hall : ∀ c ∈ t.takeWhile Char.isDigit, c.isDigit = true :=
    fun c hc => List.mem_takeWhile_imp hc
  have hsplit : t = t.takeWhile Char.isDigit ++ t.dropWhile Char.isDigit :=
    List.takeWhile_append_dropWhile.symm
  cases hdigits : t.takeWhile Char.isDigit with
  | nil =>
    rw [hdigits] at hne
    exact absurd rfl hne
  | cons c u =>
    rw [hdigits] at hall hsplit hne
    refine ⟨c, u, hall c List.mem_cons_self, hsplit, fun w hw => ?_⟩
    rw [scanSomeDigits_eq_ok_iff]
    refine ⟨?_, hne⟩
    -- the digits end where no digit follows
    have hnone : w.takeWhile Char.isDigit = [] ∧ w.dropWhile Char.isDigit = w := by
      cases w with
      | nil => exact ⟨rfl, rfl⟩
      | cons d w =>
        have hd : ¬ d.isDigit = true := by
          rw [hw d rfl]
          exact Bool.false_ne_true
        exact ⟨List.takeWhile_cons_of_neg hd, List.dropWhile_cons_of_neg hd⟩
    unfold scanDigits
    rw [List.takeWhile_append_of_pos hall, List.dropWhile_append_of_pos hall, hnone.1, hnone.2,
      List.append_nil]

theorem exists_cut_scanWhole {digits : List Nat} (h : scanWhole atEnd t = .ok (digits, r)) :
    ∃ c u, c.isDigit = true ∧ t = c :: u ++ r ∧
      ∀ w, NoDigit w → scanWhole atEnd (c :: u ++ w) = .ok (digits, w) := by
  unfold scanWhole at h
  rw [Except.bind_eq_ok_iff] at h
  obtain ⟨⟨ds, r'⟩, hdigits, h⟩ := h
  obtain ⟨c, u, hc, hu, hcut⟩ := exists_cut_scanSomeDigits hdigits
  dsimp only at h
  split at h
  · exact absurd h (by simp)
  · rename_i hzero
    obtain ⟨rfl, rfl⟩ := Prod.mk.inj (Except.ok.inj h)
    refine ⟨c, u, hc, hu, fun w hw => ?_⟩
    unfold scanWhole
    rw [hcut w hw]
    dsimp only [bind, Except.bind]
    split
    · rename_i d ds
      exact absurd rfl (hzero d ds)
    · rfl

/-- A point belongs to the number, so what follows a number without one must not begin with it. -/
theorem exists_cut_scanFraction {digits : List Nat} (h : scanFraction atEnd t = .ok (digits, r)) :
    ∃ u, t = u ++ r ∧ ∀ w, NoDigit w → w.head? ≠ some '.' →
      scanFraction atEnd (u ++ w) = .ok (digits, w) ∧ NoDigit (u ++ w) := by
  unfold scanFraction at h
  split at h
  · obtain ⟨c, u, -, rfl, hcut⟩ := exists_cut_scanSomeDigits h
    refine ⟨'.' :: c :: u, rfl, fun w hw _ => ⟨hcut w hw, ?_⟩⟩
    intro d hd
    obtain rfl := Option.some.inj hd
    decide
  · obtain ⟨rfl, rfl⟩ := Prod.mk.inj (Except.ok.inj h)
    refine ⟨[], rfl, fun w hw hpoint => ⟨?_, hw⟩⟩
    rw [List.nil_append]
    unfold scanFraction
    split
    · exact absurd rfl hpoint
    · rfl

/-- A sign in front of an exponent is read with any digit behind it. -/
theorem exists_cut_scanSign (t : Text) :
    ∃ s, t = s ++ (scanSign t).2 ∧
      ∀ c w, c.isDigit = true → scanSign (s ++ c :: w) = ((scanSign t).1, c :: w) := by
  unfold scanSign
  split
  · exact ⟨['+'], rfl, fun _ _ _ => rfl⟩
  · exact ⟨['-'], rfl, fun _ _ _ => rfl⟩
  · refine ⟨[], rfl, fun c w hc => ?_⟩
    rw [List.nil_append]
    split
    · rename_i heq
      obtain ⟨rfl, -⟩ := List.cons.inj heq
      exact absurd hc (by decide)
    · rename_i heq
      obtain ⟨rfl, -⟩ := List.cons.inj heq
      exact absurd hc (by decide)
    · rfl

theorem exists_cut_scanExponent {exponent : Option (Bool × List Nat)}
    (h : scanExponent atEnd t = .ok (exponent, r)) :
    ∃ u, t = u ++ r ∧ ∀ w, Follows w →
      scanExponent atEnd (u ++ w) = .ok (exponent, w) ∧ NoDigit (u ++ w) ∧
        (u ++ w).head? ≠ some '.' := by
  cases scanExponent_eq_ok_iff.1 h with
  | absent unmarked =>
    -- nothing is taken, and nothing that may follow begins an exponent
    refine ⟨[], rfl, fun w hw => ⟨scanExponent_eq_ok_iff.2 (.absent fun c hc => ?_), ?_, ?_⟩⟩
    · obtain ⟨-, -, he, hE⟩ := hw.head_ne c hc
      exact not_or.2 ⟨he, hE⟩
    · exact fun c hc => (hw.head_ne c hc).1
    · exact fun hpoint => (hw.head_ne '.' hpoint).2.1 rfl
  | @present c t r digits mark found =>
    obtain ⟨s, hs, hsign⟩ := exists_cut_scanSign t
    obtain ⟨d, u, hd, hu, hcut⟩ := exists_cut_scanSomeDigits found
    refine ⟨c :: (s ++ d :: u), ?_, fun w hw => ⟨?_, ?_, ?_⟩⟩
    · rw [hs, hu]
      simp
    · have hread := hcut w fun d hd => (hw.head_ne d hd).1
      have hsigned := hsign d (u ++ w) hd
      have happend : c :: (s ++ d :: u) ++ w = c :: (s ++ d :: (u ++ w)) := by simp
      have hpresent := ExponentAt.present mark (congrArg (fun r => scanSomeDigits atEnd r.2) hsigned
        |>.trans hread)
      rw [hsigned] at hpresent
      rw [happend]
      exact scanExponent_eq_ok_iff.2 hpresent
    · intro d hd
      obtain rfl := Option.some.inj hd
      rcases mark with rfl | rfl
      all_goals decide
    · intro hpoint
      obtain rfl := Option.some.inj hpoint
      exact absurd mark (by decide)

/-- The numeral behind a sign, or without one. -/
def scanParts (atEnd : Stop) (negative : Bool) (t : Text) : Except Stop (Numeral × Text) := do
  let (whole, t) ← scanWhole atEnd t
  let (fraction, t) ← scanFraction atEnd t
  let (exponent, t) ← scanExponent atEnd t
  return (⟨negative, whole, fraction, exponent⟩, t)

theorem scan_minus (atEnd : Stop) (t : Text) : scan atEnd ('-' :: t) = scanParts atEnd true t := rfl

theorem scan_of_head_ne (atEnd : Stop) (h : t.head? ≠ some '-') :
    scan atEnd t = scanParts atEnd false t := by
  unfold scan
  split
  rename_i negative t' hsign
  split at hsign
  · exact absurd rfl h
  · obtain ⟨rfl, rfl⟩ := Prod.mk.inj hsign
    rfl

theorem exists_cut_scanParts {negative : Bool} {n : Numeral}
    (h : scanParts atEnd negative t = .ok (n, r)) :
    ∃ c u, c.isDigit = true ∧ t = c :: u ++ r ∧
      ∀ w, Follows w → scanParts atEnd negative (c :: u ++ w) = .ok (n, w) := by
  unfold scanParts at h
  simp only [Except.bind_eq_ok_iff] at h
  obtain ⟨⟨whole, t₁⟩, hwhole, ⟨fraction, t₂⟩, hfraction, ⟨exponent, t₃⟩, hexponent, h⟩ := h
  obtain ⟨rfl, rfl⟩ := Prod.mk.inj (Except.ok.inj h)
  obtain ⟨c, u₁, hc, rfl, hcut₁⟩ := exists_cut_scanWhole hwhole
  obtain ⟨u₂, rfl, hcut₂⟩ := exists_cut_scanFraction hfraction
  obtain ⟨u₃, rfl, hcut₃⟩ := exists_cut_scanExponent hexponent
  refine ⟨c, u₁ ++ (u₂ ++ u₃), hc, by simp, fun w hw => ?_⟩
  -- each part ends where the next one begins, or where the numeral does
  obtain ⟨hread₃, hdigit₃, hpoint₃⟩ := hcut₃ w hw
  obtain ⟨hread₂, hdigit₂⟩ := hcut₂ _ hdigit₃ hpoint₃
  have hread₁ := hcut₁ _ hdigit₂
  have happend : c :: (u₁ ++ (u₂ ++ u₃)) ++ w = c :: u₁ ++ (u₂ ++ (u₃ ++ w)) := by simp
  rw [happend]
  simp only [scanParts, hread₁, hread₂, hread₃, bind, Except.bind, pure, Except.pure]

/-- **A numeral ends where nothing follows that could belong to it.** -/
theorem exists_cut_scan {n : Numeral} (h : scan atEnd t = .ok (n, r)) :
    ∃ c u, t = c :: u ++ r ∧ ∀ w, Follows w → scan atEnd (c :: u ++ w) = .ok (n, w) := by
  by_cases hminus : t.head? = some '-'
  · obtain ⟨t, rfl⟩ := List.head?_eq_some_iff.1 hminus
    rw [scan_minus] at h
    obtain ⟨c, u, -, rfl, hcut⟩ := exists_cut_scanParts h
    exact ⟨'-', c :: u, rfl, hcut⟩
  · rw [scan_of_head_ne atEnd hminus] at h
    obtain ⟨c, u, hc, rfl, hcut⟩ := exists_cut_scanParts h
    refine ⟨c, u, rfl, fun w hw => ?_⟩
    have hhead : (c :: u ++ w).head? ≠ some '-' := hminus
    rw [scan_of_head_ne atEnd hhead]
    exact hcut w hw

end Numeral

theorem exists_cut_readNumber {t r : Text} {n : Number} (h : readNumber t = .ok (n, r)) :
    ∃ c u, t = c :: u ++ r ∧ ∀ w, Follows w → readNumber (c :: u ++ w) = .ok (n, w) := by
  unfold readNumber at h
  simp only [Except.bind_eq_ok_iff] at h
  obtain ⟨⟨numeral, t'⟩, hscan, value, hvalue, h⟩ := h
  obtain ⟨rfl, rfl⟩ := Prod.mk.inj (Except.ok.inj h)
  obtain ⟨c, u, rfl, hcut⟩ := Numeral.exists_cut_scan hscan
  refine ⟨c, u, rfl, fun w hw => ?_⟩
  unfold readNumber
  simp only [hcut w hw, bind, Except.bind]
  dsimp only at hvalue
  rw [hvalue]
  rfl

/-! ## Values that hold no others -/

/-- **A value that holds no others ends where nothing follows that could belong to it.** -/
theorem exists_cut_readScalar {t r : Text} {v : Value} (h : readScalar t = .ok (v, r)) :
    ∃ c u, t = c :: u ++ r ∧ ∀ w, Follows w → readScalar (c :: u ++ w) = .ok (v, w) := by
  cases readScalar_eq_ok_iff.1 h with
  | null => exact ⟨'n', ['u', 'l', 'l'], rfl, fun _ _ => readScalar_eq_ok_iff.2 .null⟩
  | yes => exact ⟨'t', ['r', 'u', 'e'], rfl, fun _ _ => readScalar_eq_ok_iff.2 .yes⟩
  | no => exact ⟨'f', ['a', 'l', 's', 'e'], rfl, fun _ _ => readScalar_eq_ok_iff.2 .no⟩
  | string read =>
    obtain ⟨u, rfl, hcut⟩ := exists_cut_readString read
    exact ⟨'"', u, rfl, fun w _ => readScalar_eq_ok_iff.2 (.string (hcut w))⟩
  | number first read =>
    obtain ⟨d, u, hu, hcut⟩ := exists_cut_readNumber read
    obtain ⟨rfl, rfl⟩ := List.cons.inj hu
    exact ⟨_, u, rfl, fun w hw => readScalar_eq_ok_iff.2 (.number first (hcut w hw))⟩

end SealedMessaging.Json
