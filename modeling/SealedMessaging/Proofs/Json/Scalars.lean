import SealedMessaging.Proofs.Json.Strings

/-!
# Values that hold no others, read and passed over

Passing over looks at fewer things than reading: it does not compute the number of a numeral, and it
has reasons of its own to stop. Where reading succeeds it leaves the same rest.

* `readWord_eq_ok_iff`: a word stands in front of what is left.
* `Numeral.ExponentAt`, `Numeral.scan_of_ok`: numerals.
* `ScalarAt`, `readScalar_eq_ok_iff`: how any value that holds no others stands in a text.
* `skimScalar_of_readScalar`: where it is read it is passed over.
-/

namespace SealedMessaging.Json

/-! ## Blanks and words -/

theorem length_skipBlanks_le (t : Text) : (skipBlanks t).length ≤ t.length :=
  (List.dropWhile_sublist _).length_le

theorem skipBlanks_skipBlanks (t : Text) : skipBlanks (skipBlanks t) = skipBlanks t := by
  unfold skipBlanks
  induction t with
  | nil => rfl
  | cons c t ih =>
    by_cases h : isBlank c
    · rw [List.dropWhile_cons_of_pos h, ih]
    · rw [List.dropWhile_cons_of_neg h, List.dropWhile_cons_of_neg h]

/-- The text behind the first character that is no blank is shorter. -/
theorem length_lt_of_skipBlanks {t rest : Text} {c : Char} (h : skipBlanks t = c :: rest) :
    rest.length < t.length := by
  have hlen := length_skipBlanks_le t
  rw [h, List.length_cons] at hlen
  exact hlen

theorem readColon_eq_ok_iff {t rest : Text} : readColon t = .ok rest ↔ skipBlanks t = ':' :: rest :=
  readChar_eq_ok_iff

theorem readWord_eq_ok_iff {word : List Char} {t rest : Text} :
    readWord word t = .ok rest ↔ t = word ++ rest := by
  induction word generalizing t with
  | nil => simp [readWord]
  | cons c word ih =>
    cases t with
    | nil => simp [readWord]
    | cons d t =>
      rw [readWord]
      by_cases h : c = d
      · simp [h, ih]
      · simp [h, Ne.symm h]

/-! ## Numbers -/

namespace Numeral

variable {atEnd : Stop} (atEnd' : Stop)

theorem scanSomeDigits_eq_ok_iff {t rest : Text} {digits : List Nat} :
    scanSomeDigits atEnd t = .ok (digits, rest) ↔ scanDigits t = (digits, rest) ∧ digits ≠ [] := by
  unfold scanSomeDigits
  split
  · rename_i h
    rw [h]
    exact ⟨(nomatch ·), fun ⟨hd, hne⟩ => absurd (Prod.mk.inj hd).1.symm hne⟩
  · rename_i h
    rw [h]
    exact ⟨(nomatch ·), fun ⟨hd, hne⟩ => absurd (Prod.mk.inj hd).1.symm hne⟩
  · rename_i hend hmore
    constructor
    · intro h
      have hscan := Except.ok.inj h
      refine ⟨hscan, ?_⟩
      rintro rfl
      cases rest with
      | nil => exact hend hscan
      | cons c rest => exact hmore _ _ hscan
    · rintro ⟨h, -⟩
      exact congrArg Except.ok h

/-- Digits are found whatever the reason to stop at the end. -/
theorem scanSomeDigits_of_ok {t rest : Text} {digits : List Nat}
    (h : scanSomeDigits atEnd t = .ok (digits, rest)) :
    scanSomeDigits atEnd' t = .ok (digits, rest) ∧ rest.length < t.length := by
  obtain ⟨hscan, hne⟩ := scanSomeDigits_eq_ok_iff.1 h
  refine ⟨scanSomeDigits_eq_ok_iff.2 ⟨hscan, hne⟩, ?_⟩
  obtain ⟨rfl, rfl⟩ := Prod.mk.inj hscan
  have hlen := congrArg List.length (List.takeWhile_append_dropWhile (p := Char.isDigit) (l := t))
  have hpos := List.length_pos_iff.2 hne
  rw [List.length_append] at hlen
  rw [List.length_map] at hpos
  omega

theorem scanWhole_of_ok {t rest : Text} {digits : List Nat}
    (h : scanWhole atEnd t = .ok (digits, rest)) :
    scanWhole atEnd' t = .ok (digits, rest) ∧ rest.length < t.length := by
  unfold scanWhole at h ⊢
  rw [Except.bind_eq_ok_iff] at h ⊢
  obtain ⟨⟨ds, r⟩, hdigits, h⟩ := h
  obtain ⟨hdigits', hlen⟩ := scanSomeDigits_of_ok atEnd' hdigits
  refine ⟨⟨_, hdigits', h⟩, ?_⟩
  dsimp only at h
  split at h
  · exact absurd h (by simp)
  · obtain ⟨-, rfl⟩ := Prod.mk.inj (Except.ok.inj h)
    exact hlen

theorem scanFraction_of_ok {t rest : Text} {digits : List Nat}
    (h : scanFraction atEnd t = .ok (digits, rest)) :
    scanFraction atEnd' t = .ok (digits, rest) ∧ rest.length ≤ t.length := by
  unfold scanFraction at h ⊢
  split at h
  · obtain ⟨h', hlen⟩ := scanSomeDigits_of_ok atEnd' h
    exact ⟨h', by simp only [List.length_cons]; omega⟩
  · obtain ⟨rfl, rfl⟩ := Prod.mk.inj (Except.ok.inj h)
    exact ⟨rfl, Nat.le_refl _⟩

theorem length_scanSign_le (t : Text) : (scanSign t).2.length ≤ t.length := by
  unfold scanSign
  split <;> simp

/-- How an exponent stands in front of a text: with its mark, a sign and digits, or not at all where no
mark stands. -/
inductive ExponentAt (atEnd : Stop) : Text → Option (Bool × List Nat) → Text → Prop where
  | absent {t : Text} (unmarked : ∀ c ∈ t.head?, ¬ (c = 'e' ∨ c = 'E')) : ExponentAt atEnd t none t
  | present {c : Char} {t rest : Text} {digits : List Nat} (mark : c = 'e' ∨ c = 'E')
      (found : scanSomeDigits atEnd (scanSign t).2 = .ok (digits, rest)) :
      ExponentAt atEnd (c :: t) (some ((scanSign t).1, digits)) rest

theorem scanExponent_eq_ok_iff {t rest : Text} {exponent : Option (Bool × List Nat)} :
    scanExponent atEnd t = .ok (exponent, rest) ↔ ExponentAt atEnd t exponent rest := by
  constructor
  · intro h
    cases t with
    | nil =>
      obtain ⟨rfl, rfl⟩ := Prod.mk.inj (Except.ok.inj h)
      exact .absent (by simp)
    | cons c t =>
      unfold scanExponent at h
      dsimp only at h
      by_cases hc : c = 'e' ∨ c = 'E'
      · rw [if_pos hc, Except.bind_eq_ok_iff] at h
        obtain ⟨⟨digits, r⟩, hdigits, h⟩ := h
        obtain ⟨rfl, rfl⟩ := Prod.mk.inj (Except.ok.inj h)
        exact .present hc hdigits
      · rw [if_neg hc] at h
        obtain ⟨rfl, rfl⟩ := Prod.mk.inj (Except.ok.inj h)
        exact .absent (by simpa using hc)
  · intro h
    cases h with
    | absent unmarked =>
      cases t with
      | nil => rfl
      | cons c t => exact if_neg (unmarked c rfl)
    | present mark found =>
      simp only [scanExponent, if_pos mark, found]
      rfl

theorem scanExponent_of_ok {t rest : Text} {exponent : Option (Bool × List Nat)}
    (h : scanExponent atEnd t = .ok (exponent, rest)) :
    scanExponent atEnd' t = .ok (exponent, rest) ∧ rest.length ≤ t.length := by
  cases scanExponent_eq_ok_iff.1 h with
  | absent unmarked => exact ⟨scanExponent_eq_ok_iff.2 (.absent unmarked), Nat.le_refl _⟩
  | @present c t rest digits mark found =>
    obtain ⟨found', hlen⟩ := scanSomeDigits_of_ok atEnd' found
    have hsign := length_scanSign_le t
    refine ⟨scanExponent_eq_ok_iff.2 (.present mark found'), ?_⟩
    rw [List.length_cons]
    omega

/-- **A numeral that is found is the same**, whatever the reason to stop at the end. -/
theorem scan_of_ok {t rest : Text} {n : Numeral} (h : scan atEnd t = .ok (n, rest)) :
    scan atEnd' t = .ok (n, rest) ∧ rest.length < t.length := by
  unfold scan at h ⊢
  simp only [Except.bind_eq_ok_iff] at h ⊢
  obtain ⟨⟨whole, t₁⟩, hwhole, ⟨fraction, t₂⟩, hfraction, ⟨exponent, t₃⟩, hexponent, h⟩ := h
  obtain ⟨hwhole', hlen₁⟩ := scanWhole_of_ok atEnd' hwhole
  obtain ⟨hfraction', hlen₂⟩ := scanFraction_of_ok atEnd' hfraction
  obtain ⟨hexponent', hlen₃⟩ := scanExponent_of_ok atEnd' hexponent
  refine ⟨⟨_, hwhole', _, hfraction', _, hexponent', h⟩, ?_⟩
  obtain ⟨-, rfl⟩ := Prod.mk.inj (Except.ok.inj h)
  -- a sign is dropped in front of the first digits
  have hlen : t₁.length < t.length := by
    split at hlen₁
    · exact Nat.lt_succ_of_lt hlen₁
    · exact hlen₁
  exact Nat.lt_of_le_of_lt (Nat.le_trans hlen₃ hlen₂) hlen

end Numeral

theorem skimNumber_of_readNumber {t rest : Text} {n : Number} (h : readNumber t = .ok (n, rest)) :
    skimNumber t = .ok rest ∧ rest.length < t.length := by
  unfold readNumber at h
  simp only [Except.bind_eq_ok_iff] at h
  obtain ⟨⟨numeral, t'⟩, hscan, value, -, h⟩ := h
  obtain ⟨-, rfl⟩ := Prod.mk.inj (Except.ok.inj h)
  obtain ⟨hscan', hlen⟩ := Numeral.scan_of_ok .malformed hscan
  refine ⟨?_, hlen⟩
  rw [skimNumber, hscan']
  rfl

/-! ## Any of them -/

/-- **How a value that holds no others stands in a text**: a word with its letters, a string behind its
quote, or a number from its first character on. -/
inductive ScalarAt : Text → Value → Text → Prop where
  | null {rest : Text} : ScalarAt ('n' :: 'u' :: 'l' :: 'l' :: rest) .null rest
  | yes {rest : Text} : ScalarAt ('t' :: 'r' :: 'u' :: 'e' :: rest) (.bool true) rest
  | no {rest : Text} : ScalarAt ('f' :: 'a' :: 'l' :: 's' :: 'e' :: rest) (.bool false) rest
  | string {t rest : Text} {s : String} (read : readString t = .ok (s, rest)) :
      ScalarAt ('"' :: t) (.string s) rest
  | number {c : Char} {t rest : Text} {n : Number} (first : c = '-' ∨ c.isDigit = true)
      (read : readNumber (c :: t) = .ok (n, rest)) : ScalarAt (c :: t) (.number n) rest

/-- No word and no string begins like a number. -/
theorem number_first_ne {c : Char} (first : c = '-' ∨ c.isDigit = true) :
    c ≠ 'n' ∧ c ≠ 't' ∧ c ≠ 'f' ∧ c ≠ '"' := by
  have hother : ∀ d : Char, d ≠ '-' → d.isDigit = false → c ≠ d := by
    rintro d hminus hdigit rfl
    rcases first with hfirst | hfirst
    · exact hminus hfirst
    · exact absurd (hdigit.symm.trans hfirst) (by simp)
  exact ⟨hother 'n' (by decide) (by decide), hother 't' (by decide) (by decide),
    hother 'f' (by decide) (by decide), hother '"' (by decide) (by decide)⟩

/-- A word is read where its letters stand. -/
theorem readWord_bind_eq_ok_iff {word : List Char} {t rest : Text} {v w : Value} :
    (do return (w, ← readWord word t) : Except Stop (Value × Text)) = .ok (v, rest) ↔
      w = v ∧ t = word ++ rest := by
  simp only [Except.bind_eq_ok_iff, readWord_eq_ok_iff, Except.pure_eq_ok_iff, Prod.mk.injEq]
  constructor
  · rintro ⟨t', rfl, rfl, rfl⟩
    exact ⟨rfl, rfl⟩
  · rintro ⟨rfl, rfl⟩
    exact ⟨rest, rfl, rfl, rfl⟩

/-- **A value that holds no others is read where it stands**, and nowhere else. -/
theorem readScalar_eq_ok_iff {t rest : Text} {v : Value} :
    readScalar t = .ok (v, rest) ↔ ScalarAt t v rest := by
  constructor
  · intro h
    cases t with
    | nil => exact absurd h (by simp [readScalar])
    | cons c t =>
      -- the first character tells what stands there
      unfold readScalar at h
      dsimp only at h
      split at h
      · rename_i hn
        obtain ⟨rfl, rfl⟩ := readWord_bind_eq_ok_iff.1 h
        exact hn ▸ .null
      split at h
      · rename_i ht
        obtain ⟨rfl, rfl⟩ := readWord_bind_eq_ok_iff.1 h
        exact ht ▸ .yes
      split at h
      · rename_i hf
        obtain ⟨rfl, rfl⟩ := readWord_bind_eq_ok_iff.1 h
        exact hf ▸ .no
      split at h
      · rename_i hquote
        obtain ⟨⟨s, t'⟩, hs, h⟩ := Except.bind_eq_ok_iff.1 h
        obtain ⟨rfl, rfl⟩ := Prod.mk.inj (Except.ok.inj h)
        exact hquote ▸ .string hs
      split at h
      · rename_i hfirst
        obtain ⟨⟨n, t'⟩, hn, h⟩ := Except.bind_eq_ok_iff.1 h
        obtain ⟨rfl, rfl⟩ := Prod.mk.inj (Except.ok.inj h)
        exact .number hfirst hn
      · exact absurd h (by simp)
  · intro h
    cases h with
    | null => rfl
    | yes => rfl
    | no => rfl
    | string read =>
      show (readString _ >>= _) = _
      rw [read]
      rfl
    | @number c t rest n first read =>
      obtain ⟨hn, ht, hf, hquote⟩ := number_first_ne first
      simp only [readScalar, if_neg hn, if_neg ht, if_neg hf, if_neg hquote, if_pos first, read]
      rfl

/-- **A value that holds no others is passed over** where it is read. -/
theorem skimScalar_of_readScalar {t rest : Text} {v : Value} (h : readScalar t = .ok (v, rest)) :
    skimScalar t = .ok rest ∧ rest.length < t.length := by
  cases readScalar_eq_ok_iff.1 h with
  | null => exact ⟨rfl, by simp only [List.length_cons]; omega⟩
  | yes => exact ⟨rfl, by simp only [List.length_cons]; omega⟩
  | no => exact ⟨rfl, by simp only [List.length_cons]; omega⟩
  | string read =>
    obtain ⟨hskim, hlen⟩ := skimString_of_readString read
    exact ⟨hskim, Nat.lt_succ_of_lt hlen⟩
  | number first read =>
    obtain ⟨hn, ht, hf, hquote⟩ := number_first_ne first
    simp only [skimScalar, if_neg hn, if_neg ht, if_neg hf, if_neg hquote, if_pos first]
    exact skimNumber_of_readNumber read

end SealedMessaging.Json
