import SealedMessaging.Json.Skimmer
import SealedMessaging.Proofs.Outcome

/-!
# How strings stand in a text

A string goes on to its quote, and each of its characters stands in the text as itself or behind a
backslash. The reader counts its steps against a bound; how a string stands in a text has no bound in
it. Passing over a string looks at fewer things and takes a surrogate pair for two escapes, but it goes
on to the same quote.

* `EscapeAt`, `StringAt`: how a character stands behind a backslash, and how a string stands in front of
  what is left.
* `readEscape_eq_ok_iff`, `readString_eq_ok_iff`: they are read where they stand.
* `StringAt.skimStringRest_eq`: where a string stands it is passed over.
* `StringAt.exists_cut`: it stands in its own characters, with anything behind them.
-/

namespace SealedMessaging.Json

theorem readChar_eq_ok_iff {c : Char} {t rest : Text} : readChar c t = .ok rest ↔ t = c :: rest := by
  cases t with
  | nil => simp [readChar]
  | cons d t =>
    rw [readChar]
    by_cases h : c = d
    · simp [h]
    · simp [h, Ne.symm h]

/-! ## Four hex digits -/

theorem length_of_readFourHex {t rest : Text} {n : Nat} (h : readFourHex t = .ok (n, rest)) :
    rest.length < t.length := by
  unfold readFourHex at h
  split at h
  · exact absurd h (by simp)
  · split at h
    · split at h
      · obtain ⟨-, rfl⟩ := Prod.mk.inj (Except.ok.inj h)
        simp only [List.length_cons]
        omega
      · exact absurd h (by simp)
    · exact absurd h (by simp)

theorem exists_cut_readFourHex {t r : Text} {n : Nat} (h : readFourHex t = .ok (n, r)) :
    ∃ u, t = u ++ r ∧ ∀ w, readFourHex (u ++ w) = .ok (n, w) := by
  unfold readFourHex at h
  split at h
  · exact absurd h (by simp)
  · rename_i hlen
    split at h
    · rename_i a b c d rest
      split at h
      · rename_i m hm
        obtain ⟨rfl, rfl⟩ := Prod.mk.inj (Except.ok.inj h)
        refine ⟨[a, b, c, d], rfl, fun w => ?_⟩
        have htake : ¬ (utf8Chars (([a, b, c, d] ++ w).take 4)).length < 4 := hlen
        unfold readFourHex
        rw [if_neg htake]
        simp only [List.cons_append, List.nil_append, hm]
      · exact absurd h (by simp)
    · exact absurd h (by simp)

/-! ## Escapes -/

/-- **How a character stands behind a backslash**: by the character it is known by, or as a number of
four hex digits, or as the two numbers of a surrogate pair. -/
inductive EscapeAt : Text → Char → Text → Prop where
  | known {d c : Char} {t : Text} (unmarked : d ≠ 'u') (stands : unescape? d = some c) :
      EscapeAt (d :: t) c t
  | single {t rest : Text} {n : Nat} (number : readFourHex t = .ok (n, rest))
      (notLow : ¬ isLowSurrogate n = true) (notHigh : (!isHighSurrogate n) = true) :
      EscapeAt ('u' :: t) (Char.ofNat n) rest
  | pair {t t' rest : Text} {n low : Nat} (number : readFourHex t = .ok (n, '\\' :: 'u' :: t'))
      (notLow : ¬ isLowSurrogate n = true) (high : ¬ (!isHighSurrogate n) = true)
      (second : readFourHex t' = .ok (low, rest)) (isLow : isLowSurrogate low = true) :
      EscapeAt ('u' :: t) (Char.ofNat (0x10000 + (n - 0xD800) * 0x400 + (low - 0xDC00))) rest

theorem escapeAt_of_readCodePoint {t rest : Text} {c : Char} (h : readCodePoint t = .ok (c, rest)) :
    EscapeAt ('u' :: t) c rest := by
  unfold readCodePoint at h
  rw [Except.bind_eq_ok_iff] at h
  obtain ⟨⟨n, t₁⟩, hn, h⟩ := h
  dsimp only at h
  split at h
  · exact absurd h (by simp)
  rename_i hnotLow
  split at h
  · rename_i hnotHigh
    obtain ⟨rfl, rfl⟩ := Prod.mk.inj (Except.ok.inj h)
    exact .single hn hnotLow hnotHigh
  · rename_i hhigh
    simp only [Except.bind_eq_ok_iff, readChar_eq_ok_iff] at h
    obtain ⟨t₂, rfl, t₃, rfl, ⟨low, t₄⟩, hsecond, h⟩ := h
    split at h
    · rename_i hlow
      obtain ⟨rfl, rfl⟩ := Prod.mk.inj (Except.ok.inj h)
      exact .pair hn hnotLow hhigh hsecond hlow
    · exact absurd h (by simp)

theorem readEscape_eq_ok_iff {t rest : Text} {c : Char} :
    readEscape t = .ok (c, rest) ↔ EscapeAt t c rest := by
  constructor
  · intro h
    unfold readEscape at h
    split at h
    · exact absurd h (by simp)
    · exact escapeAt_of_readCodePoint h
    · rename_i d t hunmarked
      split at h
      · rename_i e hstands
        obtain ⟨rfl, rfl⟩ := Prod.mk.inj (Except.ok.inj h)
        exact .known hunmarked hstands
      · exact absurd h (by simp)
  · intro h
    cases h with
    | known unmarked stands =>
      rw [readEscape]
      · rw [stands]
      · exact unmarked
    | single number notLow notHigh =>
      refine Except.bind_eq_ok_iff.2 ⟨_, number, ?_⟩
      dsimp only
      rw [if_neg notLow, if_pos notHigh]
      rfl
    | pair number notLow high second isLow =>
      refine Except.bind_eq_ok_iff.2 ⟨_, number, ?_⟩
      dsimp only
      rw [if_neg notLow, if_neg high]
      simp only [Except.bind_eq_ok_iff, readChar_eq_ok_iff]
      refine ⟨_, rfl, _, rfl, _, second, ?_⟩
      rw [if_pos isLow]
      rfl

namespace EscapeAt

variable {t r rest : Text} {c : Char}

theorem length_lt (h : EscapeAt t c rest) : rest.length < t.length := by
  cases h with
  | known => exact Nat.lt_succ_self _
  | single number => exact Nat.lt_succ_of_lt (length_of_readFourHex number)
  | pair number _ _ second =>
    have hfirst := length_of_readFourHex number
    have hsecond := length_of_readFourHex second
    simp only [List.length_cons] at hfirst ⊢
    omega

/-- An escape stands in its own characters. -/
theorem exists_cut (h : EscapeAt t c r) : ∃ u, t = u ++ r ∧ ∀ w, EscapeAt (u ++ w) c w := by
  cases h with
  | @known d c t unmarked stands => exact ⟨[d], rfl, fun w => .known unmarked stands⟩
  | single number notLow notHigh =>
    obtain ⟨u, rfl, hcut⟩ := exists_cut_readFourHex number
    exact ⟨'u' :: u, rfl, fun w => .single (hcut w) notLow notHigh⟩
  | pair number notLow high second isLow =>
    obtain ⟨u, rfl, hcut⟩ := exists_cut_readFourHex number
    obtain ⟨u', rfl, hcut'⟩ := exists_cut_readFourHex second
    refine ⟨'u' :: (u ++ '\\' :: 'u' :: u'), by simp, fun w => ?_⟩
    have hpair := EscapeAt.pair (hcut ('\\' :: 'u' :: (u' ++ w))) notLow high (hcut' w) isLow
    simpa using hpair

end EscapeAt

theorem skimEscape_of_readFourHex {t rest : Text} {n : Nat} (h : readFourHex t = .ok (n, rest)) :
    skimEscape ('u' :: t) = .ok rest := by
  rw [skimEscape, h]
  rfl

/-- Passing over knows the same characters behind a backslash. -/
theorem skimEscape_known {d c : Char} (t : Text) (unmarked : d ≠ 'u') (stands : unescape? d = some c) :
    skimEscape (d :: t) = .ok t := by
  rw [skimEscape]
  · rw [stands]
    rfl
  · exact unmarked

/-! ## Strings -/

/-- **How a string stands in a text**, with the characters it is made of and what is left behind its
quote. -/
inductive StringAt : Text → List Char → Text → Prop where
  | quote {t : Text} : StringAt ('"' :: t) [] t
  | escape {t t' rest : Text} {c : Char} {cs : List Char} (escaped : EscapeAt t c t')
      (others : StringAt t' cs rest) : StringAt ('\\' :: t) (c :: cs) rest
  | plain {t rest : Text} {c : Char} {cs : List Char} (notQuote : c ≠ '"') (notSlash : c ≠ '\\')
      (notControl : ¬ c.toNat < 0x20) (others : StringAt t cs rest) : StringAt (c :: t) (c :: cs) rest

theorem stringAt_of_readStringRest {bound : Nat} {acc : List Char} {t rest : Text} {s : String}
    (h : readStringRest bound acc t = .ok (s, rest)) :
    ∃ cs, s = String.ofList (acc.reverse ++ cs) ∧ StringAt t cs rest := by
  induction bound generalizing acc t with
  | zero => exact absurd h (by simp [readStringRest])
  | succ bound ih =>
    cases t with
    | nil => exact absurd h (by simp [readStringRest])
    | cons c t =>
      rw [readStringRest] at h
      by_cases hquote : c = '"'
      · rw [if_pos hquote] at h
        obtain ⟨rfl, rfl⟩ := Prod.mk.inj (Except.ok.inj h)
        exact ⟨[], by simp, hquote ▸ .quote⟩
      rw [if_neg hquote] at h
      by_cases hslash : c = '\\'
      · rw [if_pos hslash, Except.bind_eq_ok_iff] at h
        obtain ⟨⟨d, t₁⟩, hescape, h⟩ := h
        obtain ⟨cs, rfl, hothers⟩ := ih h
        exact ⟨d :: cs, by simp, hslash ▸ .escape (readEscape_eq_ok_iff.1 hescape) hothers⟩
      rw [if_neg hslash] at h
      by_cases hcontrol : c.toNat < 0x20
      · rw [if_pos hcontrol] at h
        exact absurd h (by simp)
      · rw [if_neg hcontrol] at h
        obtain ⟨cs, rfl, hothers⟩ := ih h
        exact ⟨c :: cs, by simp, .plain hquote hslash hcontrol hothers⟩

namespace StringAt

variable {t r rest : Text} {cs : List Char}

theorem length_lt (h : StringAt t cs rest) : rest.length < t.length := by
  induction h with
  | quote => exact Nat.lt_succ_self _
  | escape escaped _ ih => exact Nat.lt_succ_of_lt (Nat.lt_trans ih escaped.length_lt)
  | plain _ _ _ _ ih => exact Nat.lt_succ_of_lt ih

/-- A string is read where it stands, with any bound that is large enough. -/
theorem readStringRest_eq (h : StringAt t cs rest) {bound : Nat} (acc : List Char)
    (hbound : t.length < bound) :
    readStringRest bound acc t = .ok (String.ofList (acc.reverse ++ cs), rest) := by
  induction h generalizing bound acc with
  | quote =>
    obtain ⟨b, rfl⟩ : ∃ b, bound = b + 1 := ⟨bound - 1, by omega⟩
    rw [readStringRest, if_pos rfl, List.append_nil]
  | @escape t t' rest c cs escaped _ ih =>
    obtain ⟨b, rfl⟩ : ∃ b, bound = b + 1 := ⟨bound - 1, by omega⟩
    have hlen := escaped.length_lt
    rw [List.length_cons] at hbound
    rw [readStringRest, if_neg (by decide), if_pos rfl, readEscape_eq_ok_iff.2 escaped]
    refine (ih (c :: acc) (by omega)).trans ?_
    rw [List.reverse_cons, List.append_assoc]
    rfl
  | @plain t rest c cs notQuote notSlash notControl _ ih =>
    obtain ⟨b, rfl⟩ : ∃ b, bound = b + 1 := ⟨bound - 1, by omega⟩
    rw [List.length_cons] at hbound
    rw [readStringRest, if_neg notQuote, if_neg notSlash, if_neg notControl,
      ih (c :: acc) (by omega), List.reverse_cons, List.append_assoc]
    rfl

/-- **Where a string stands it is passed over**, with any bound that is large enough. -/
theorem skimStringRest_eq (h : StringAt t cs rest) {bound : Nat} (hbound : t.length < bound) :
    skimStringRest bound t = .ok rest := by
  induction h generalizing bound with
  | quote =>
    obtain ⟨b, rfl⟩ : ∃ b, bound = b + 1 := ⟨bound - 1, by omega⟩
    rw [skimStringRest, if_pos rfl]
  | @escape t t' rest c cs escaped _ ih =>
    obtain ⟨b, rfl⟩ : ∃ b, bound = b + 1 := ⟨bound - 1, by omega⟩
    have hlen := escaped.length_lt
    rw [List.length_cons] at hbound
    rw [skimStringRest, if_neg (by decide), if_pos rfl]
    cases escaped with
    | known unmarked stands =>
      rw [skimEscape_known _ unmarked stands]
      exact ih (by omega)
    | single number =>
      rw [skimEscape_of_readFourHex number]
      exact ih (by omega)
    | pair number _ _ second =>
      -- the second half of the pair is an escape of its own
      obtain ⟨b, rfl⟩ : ∃ b', b = b' + 1 := ⟨b - 1, by omega⟩
      rw [skimEscape_of_readFourHex number]
      show skimStringRest (b + 1) _ = _
      rw [skimStringRest, if_neg (by decide), if_pos rfl, skimEscape_of_readFourHex second]
      exact ih (by omega)
  | plain notQuote notSlash notControl _ ih =>
    obtain ⟨b, rfl⟩ : ∃ b, bound = b + 1 := ⟨bound - 1, by omega⟩
    rw [List.length_cons] at hbound
    rw [skimStringRest, if_neg notQuote, if_neg notSlash, if_neg notControl]
    exact ih (by omega)

/-- **A string ends with its quote**, whatever stands behind it. -/
theorem exists_cut (h : StringAt t cs r) : ∃ u, t = u ++ r ∧ ∀ w, StringAt (u ++ w) cs w := by
  induction h with
  | quote => exact ⟨['"'], rfl, fun w => .quote⟩
  | escape escaped _ ih =>
    obtain ⟨u', rfl, hcut'⟩ := ih
    obtain ⟨u, rfl, hcut⟩ := escaped.exists_cut
    refine ⟨'\\' :: (u ++ u'), by simp, fun w => ?_⟩
    rw [List.cons_append, List.append_assoc]
    exact .escape (hcut _) (hcut' w)
  | @plain t rest c cs notQuote notSlash notControl _ ih =>
    obtain ⟨u, rfl, hcut⟩ := ih
    exact ⟨c :: u, rfl, fun w => .plain notQuote notSlash notControl (hcut w)⟩

end StringAt

/-- **A string is read where it stands.** -/
theorem readString_eq_ok_iff {t rest : Text} {s : String} :
    readString t = .ok (s, rest) ↔ StringAt t s.toList rest := by
  constructor
  · intro h
    obtain ⟨cs, rfl, hstring⟩ := stringAt_of_readStringRest h
    rwa [List.reverse_nil, List.nil_append, String.toList_ofList]
  · intro h
    refine (h.readStringRest_eq [] (Nat.lt_succ_self _)).trans ?_
    rw [List.reverse_nil, List.nil_append, String.ofList_toList]

theorem skimString_of_readString {t rest : Text} {s : String} (h : readString t = .ok (s, rest)) :
    skimString t = .ok rest ∧ rest.length < t.length := by
  have hstring := readString_eq_ok_iff.1 h
  exact ⟨hstring.skimStringRest_eq (Nat.lt_succ_self _), hstring.length_lt⟩

theorem exists_cut_readString {t r : Text} {s : String} (h : readString t = .ok (s, r)) :
    ∃ u, t = u ++ r ∧ ∀ w, readString (u ++ w) = .ok (s, w) := by
  simp only [readString_eq_ok_iff] at h ⊢
  exact h.exists_cut

end SealedMessaging.Json
