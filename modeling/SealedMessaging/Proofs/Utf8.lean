import SealedMessaging.Validation

/-!
# Well-formed UTF-8 is what characters are written as

A character is written in one to four bytes. The first byte tells how many there are, and after some
first bytes the second has a range of its own: outside it the character could be written in fewer
bytes, or the number is that of no character. The check goes by these ranges alone.

* `CharBytes`: the ranges of the bytes of one character.
* `charBytes_iff`: they hold of what characters are written as and of nothing else.
* `CharBytes.isUtf8_append`: the check goes past the bytes of one character.
* `IsText`, `isUtf8_iff`: what passes the check is what some characters are written as.
* `text_checks_exact`: the checks of names and passwords.
-/

namespace SealedMessaging

/-! ## The bytes of one character -/

/-- A byte that is not the first of its character. -/
def Tail (b : UInt8) : Prop :=
  0x80 ≤ b.toNat ∧ b.toNat ≤ 0xBF

/-- **The bytes of one character.** The second byte keeps out what has a shorter form, surrogates and
numbers above `10FFFF`. -/
inductive CharBytes : Bytes → Prop where
  | one {a : UInt8} (lead : a.toNat ≤ 0x7F) : CharBytes [a]
  | two {a b : UInt8} (lead : 0xC2 ≤ a.toNat ∧ a.toNat ≤ 0xDF) (hb : Tail b) : CharBytes [a, b]
  | three {a b c : UInt8} (lead : 0xE0 ≤ a.toNat ∧ a.toNat ≤ 0xEF) (hb : Tail b) (hc : Tail c)
      (shortest : a.toNat = 0xE0 → 0xA0 ≤ b.toNat) (scalar : a.toNat = 0xED → b.toNat ≤ 0x9F) :
      CharBytes [a, b, c]
  | four {a b c d : UInt8} (lead : 0xF0 ≤ a.toNat ∧ a.toNat ≤ 0xF4) (hb : Tail b) (hc : Tail c)
      (hd : Tail d) (shortest : a.toNat = 0xF0 → 0x90 ≤ b.toNat)
      (scalar : a.toNat = 0xF4 → b.toNat ≤ 0x8F) : CharBytes [a, b, c, d]

theorem ofNat_eq_of_toNat {n : Nat} {b : UInt8} (h : n = b.toNat) : UInt8.ofNat n = b := by
  rw [h, UInt8.ofNat_toNat]

theorem toNat_ofNat_of_lt {n : Nat} (h : n < 256) : (UInt8.ofNat n).toNat = n := by
  rw [UInt8.toNat_ofNat', Nat.mod_eq_of_lt h]

/-- The numbers of characters are those below the surrogates and those above them. -/
theorem exists_char {n : Nat} (h : n < 0xD800 ∨ 0xDFFF < n ∧ n < 0x110000) :
    ∃ c : Char, c.val.toNat = n :=
  ⟨Char.ofNatAux n h, rfl⟩

theorem charBytes_utf8EncodeChar (c : Char) : CharBytes (String.utf8EncodeChar c) := by
  have hvalid : c.val.toNat < 0xD800 ∨ 0xDFFF < c.val.toNat ∧ c.val.toNat < 0x110000 := c.valid
  unfold String.utf8EncodeChar
  generalize c.val.toNat = v at hvalid
  dsimp only
  by_cases hone : v ≤ 0x7F
  · rw [if_pos hone]
    refine .one ?_
    rw [toNat_ofNat_of_lt (by omega)]
    exact hone
  rw [if_neg hone]
  -- what stands in front of the last six bits of the number is in the bytes before the last
  have htail : ∀ n, Tail (UInt8.ofNat (n % 64 + 128)) := by
    intro n
    unfold Tail
    rw [toNat_ofNat_of_lt (by omega)]
    omega
  by_cases htwo : v ≤ 0x7FF
  · rw [if_pos htwo]
    refine .two ?_ (htail v)
    rw [toNat_ofNat_of_lt (by omega)]
    omega
  rw [if_neg htwo]
  by_cases hthree : v ≤ 0xFFFF
  · rw [if_pos hthree]
    refine .three ?_ (htail (v / 64)) (htail v) ?_ ?_
    all_goals
      rw [toNat_ofNat_of_lt (by omega)]
      try rw [toNat_ofNat_of_lt (by omega)]
      omega
  rw [if_neg hthree]
  refine .four ?_ (htail (v / 4096)) (htail (v / 64)) (htail v) ?_ ?_
  all_goals
    rw [toNat_ofNat_of_lt (by omega)]
    try rw [toNat_ofNat_of_lt (by omega)]
    omega

/-- The bytes of one character are what some character is written as. -/
theorem CharBytes.exists_char {bs : Bytes} (h : CharBytes bs) :
    ∃ c : Char, String.utf8EncodeChar c = bs := by
  -- the number is put together from the bits that the bytes carry, and their ranges make it one of a
  -- character with this length
  unfold String.utf8EncodeChar
  cases h with
  | @one a lead =>
    obtain ⟨c, hc⟩ := SealedMessaging.exists_char (Or.inl (show a.toNat < 0xD800 by omega))
    refine ⟨c, ?_⟩
    rw [hc]
    dsimp only
    rw [if_pos lead, UInt8.ofNat_toNat]
  | @two a b lead hb =>
    unfold Tail at hb
    obtain ⟨c, hc⟩ := SealedMessaging.exists_char
      (Or.inl (show (a.toNat - 0xC0) * 64 + (b.toNat - 0x80) < 0xD800 by omega))
    refine ⟨c, ?_⟩
    rw [hc]
    dsimp only
    rw [if_neg (by omega), if_pos (by omega), @ofNat_eq_of_toNat _ a (by omega),
      @ofNat_eq_of_toNat _ b (by omega)]
  | @three a b c lead hb hc shortest scalar =>
    unfold Tail at hb hc
    have hvalid : ∀ n, n = (a.toNat - 0xE0) * 4096 + (b.toNat - 0x80) * 64 + (c.toNat - 0x80) →
        0x7FF < n ∧ n ≤ 0xFFFF ∧ (n < 0xD800 ∨ 0xDFFF < n ∧ n < 0x110000) := by omega
    obtain ⟨hlow, hhigh, hnumber⟩ := hvalid _ rfl
    obtain ⟨char, hchar⟩ := SealedMessaging.exists_char hnumber
    refine ⟨char, ?_⟩
    rw [hchar]
    dsimp only
    rw [if_neg (by omega), if_neg (by omega), if_pos hhigh, @ofNat_eq_of_toNat _ a (by omega),
      @ofNat_eq_of_toNat _ b (by omega), @ofNat_eq_of_toNat _ c (by omega)]
  | @four a b c d lead hb hc hd shortest scalar =>
    unfold Tail at hb hc hd
    have hvalid : ∀ n, n = (a.toNat - 0xF0) * 262144 + (b.toNat - 0x80) * 4096 +
        (c.toNat - 0x80) * 64 + (d.toNat - 0x80) → 0xFFFF < n ∧ n < 0x110000 := by omega
    obtain ⟨hlow, hhigh⟩ := hvalid _ rfl
    obtain ⟨char, hchar⟩ := SealedMessaging.exists_char (Or.inr ⟨by omega, hhigh⟩)
    refine ⟨char, ?_⟩
    rw [hchar]
    dsimp only
    rw [if_neg (by omega), if_neg (by omega), if_neg (by omega), @ofNat_eq_of_toNat _ a (by omega),
      @ofNat_eq_of_toNat _ b (by omega), @ofNat_eq_of_toNat _ c (by omega),
      @ofNat_eq_of_toNat _ d (by omega)]

/-- **The bytes of one character are exactly what a character is written as.** -/
theorem charBytes_iff {bs : Bytes} : CharBytes bs ↔ ∃ c : Char, String.utf8EncodeChar c = bs := by
  constructor
  · exact CharBytes.exists_char
  · rintro ⟨c, rfl⟩
    exact charBytes_utf8EncodeChar c

/-! ## The check -/

/-- What some characters are written as. -/
def IsText (bs : Bytes) : Prop :=
  ∃ cs : List Char, utf8Chars cs = bs

theorem byteIn_iff {low high b : UInt8} :
    byteIn low high b = true ↔ low.toNat ≤ b.toNat ∧ b.toNat ≤ high.toNat := by
  simp [byteIn, UInt8.le_iff_toNat_le]

theorem isContinuation_iff {b : UInt8} : isContinuation b = true ↔ Tail b :=
  byteIn_iff

theorem byte_beq_iff {a b : UInt8} : (a == b) = true ↔ a.toNat = b.toNat := by
  rw [beq_iff_eq, UInt8.toNat_inj]

/-- The check goes past the bytes of one character. -/
theorem CharBytes.isUtf8_append {bs : Bytes} (h : CharBytes bs) (rest : Bytes) :
    isUtf8 (bs ++ rest) = isUtf8 rest := by
  rw [isUtf8.eq_def]
  -- for three and four bytes the range of the second is told by the first
  cases h with
  | @one a lead =>
    simp only [List.cons_append, List.nil_append, UInt8.lt_iff_toNat_lt, UInt8.reduceToNat]
    rw [if_pos (by omega)]
  | @two a b lead hb =>
    simp only [List.cons_append, List.nil_append, UInt8.lt_iff_toNat_lt, UInt8.reduceToNat,
      byteIn_iff, isContinuation_iff.mpr hb, Bool.true_and]
    rw [if_neg (by omega), if_pos lead]
  | @three a b c lead hb hc shortest scalar =>
    simp only [List.cons_append, List.nil_append, UInt8.lt_iff_toNat_lt, UInt8.reduceToNat,
      byteIn_iff, byte_beq_iff, Bool.or_eq_true, isContinuation_iff.mpr hb,
      isContinuation_iff.mpr hc, Bool.and_true, Bool.true_and]
    rw [if_neg (by omega), if_neg (by omega)]
    by_cases hE0 : a.toNat = 0xE0
    · have hsecond : byteIn 0xA0 0xBF b = true := byteIn_iff.mpr ⟨shortest hE0, hb.2⟩
      rw [if_pos hE0, hsecond, Bool.true_and]
    rw [if_neg hE0]
    by_cases hED : a.toNat = 0xED
    · have hsecond : byteIn 0x80 0x9F b = true := byteIn_iff.mpr ⟨hb.1, scalar hED⟩
      rw [if_neg (by omega), if_pos hED, hsecond, Bool.true_and]
    · rw [if_pos (by omega)]
  | @four a b c d lead hb hc hd shortest scalar =>
    simp only [List.cons_append, List.nil_append, UInt8.lt_iff_toNat_lt, UInt8.reduceToNat,
      byteIn_iff, byte_beq_iff, Bool.or_eq_true, isContinuation_iff.mpr hb,
      isContinuation_iff.mpr hc, isContinuation_iff.mpr hd, Bool.and_true]
    rw [if_neg (by omega), if_neg (by omega), if_neg (by omega), if_neg (by omega),
      if_neg (by omega)]
    by_cases hF0 : a.toNat = 0xF0
    · have hsecond : byteIn 0x90 0xBF b = true := byteIn_iff.mpr ⟨shortest hF0, hb.2⟩
      rw [if_pos hF0, hsecond, Bool.true_and]
    rw [if_neg hF0]
    by_cases hF4 : a.toNat = 0xF4
    · have hlead : (a == 0xF4) = true := byte_beq_iff.mpr hF4
      have hsecond : byteIn 0x80 0x8F b = true := byteIn_iff.mpr ⟨hb.1, scalar hF4⟩
      rw [if_neg (by omega), hlead, hsecond, Bool.true_and, Bool.true_and]
    · rw [if_pos (by omega), Bool.true_and]

/-- A character in front of what characters are written as. -/
theorem IsText.append_of_charBytes {char rest : Bytes} (hchar : CharBytes char) (h : IsText rest) :
    IsText (char ++ rest) := by
  obtain ⟨c, rfl⟩ := hchar.exists_char
  obtain ⟨cs, rfl⟩ := h
  exact ⟨c :: cs, List.flatMap_cons⟩

/-- The second of four bytes is checked by the first. -/
theorem charBytes_four_of_check {a b c d : UInt8} (hc : Tail c) (hd : Tail d)
    (h : (if (a == 0xF0) = true then byteIn 0x90 0xBF b
      else if byteIn 0xF1 0xF3 a = true then isContinuation b
      else a == 0xF4 && byteIn 0x80 0x8F b) = true) : CharBytes [a, b, c, d] := by
  split at h
  next hlead =>
    simp only [byteIn_iff, byte_beq_iff, UInt8.reduceToNat] at h hlead
    exact .four (by omega) ⟨by omega, h.2⟩ hc hd (fun _ => h.1) (by omega)
  split at h
  next hF0 hlead =>
    rw [isContinuation_iff] at h
    simp only [byteIn_iff, UInt8.reduceToNat] at hlead
    exact .four (by omega) h hc hd (by omega) (by omega)
  next hF0 hlead =>
    simp only [Bool.and_eq_true, byteIn_iff, byte_beq_iff, UInt8.reduceToNat] at h
    obtain ⟨hF4, hb⟩ := h
    exact .four (by omega) ⟨hb.1, by omega⟩ hc hd (by omega) (fun _ => hb.2)

/-- The check goes from character to character, so it passes only what characters are written as. -/
theorem isText_of_isUtf8 {bs : Bytes} (h : isUtf8 bs = true) : IsText bs := by
  -- one case for each length of a character, and for three bytes one for each range of the second
  fun_induction isUtf8 bs with
  | case1 => exact ⟨[], rfl⟩
  | case2 a rest hlead ih =>
    exact (ih h).append_of_charBytes (.one (Nat.le_of_lt_succ (UInt8.lt_iff_toNat_lt.mp hlead)))
  | case3 => exact nomatch h
  | case4 a hhigh b rest hlead ih =>
    rw [Bool.and_eq_true, isContinuation_iff] at h
    exact (ih h.2).append_of_charBytes (.two (byteIn_iff.mp hlead) h.1)
  | case5 => exact nomatch h
  | case6 a hhigh b hnot c rest hlead ih =>
    simp only [Bool.and_eq_true, isContinuation_iff, byteIn_iff, byte_beq_iff,
      UInt8.reduceToNat] at h hlead
    obtain ⟨⟨hb, hc⟩, hrest⟩ := h
    have hbTail : Tail b := ⟨by omega, hb.2⟩
    exact (ih hrest).append_of_charBytes
      (.three (by omega) hbTail hc (fun _ => hb.1) (by omega))
  | case7 a hhigh b hnot c rest hE0 hlead ih =>
    simp only [Bool.and_eq_true, Bool.or_eq_true, isContinuation_iff, byteIn_iff,
      UInt8.reduceToNat] at h hlead
    obtain ⟨⟨hb, hc⟩, hrest⟩ := h
    exact (ih hrest).append_of_charBytes (.three (by omega) hb hc (by omega) (by omega))
  | case8 a hhigh b hnot c rest hE0 hplain hlead ih =>
    simp only [Bool.and_eq_true, isContinuation_iff, byteIn_iff, byte_beq_iff,
      UInt8.reduceToNat] at h hlead
    obtain ⟨⟨hb, hc⟩, hrest⟩ := h
    have hbTail : Tail b := ⟨hb.1, by omega⟩
    exact (ih hrest).append_of_charBytes
      (.three (by omega) hbTail hc (by omega) (fun _ => hb.2))
  | case9 => exact nomatch h
  | case10 a hhigh b hnot c hE0 hplain hED d rest ih =>
    rw [Bool.and_eq_true, Bool.and_eq_true, Bool.and_eq_true, isContinuation_iff,
      isContinuation_iff] at h
    obtain ⟨⟨⟨hsecond, hc⟩, hd⟩, hrest⟩ := h
    exact (ih hrest).append_of_charBytes (charBytes_four_of_check hc hd hsecond)

/-- What characters are written as passes the check. -/
theorem isUtf8_utf8Chars (cs : List Char) : isUtf8 (utf8Chars cs) = true := by
  induction cs with
  | nil => rfl
  | cons c cs ih =>
    have happend : utf8Chars (c :: cs) = String.utf8EncodeChar c ++ utf8Chars cs :=
      List.flatMap_cons
    rw [happend, (charBytes_utf8EncodeChar c).isUtf8_append, ih]

/-- **What passes the check is what some characters are written as.** -/
theorem isUtf8_iff {bs : Bytes} : isUtf8 bs = true ↔ IsText bs := by
  constructor
  · exact isText_of_isUtf8
  · rintro ⟨cs, rfl⟩
    exact isUtf8_utf8Chars cs

/-! ## Names and passwords -/

theorem check_name_of_isText {bs : Bytes} (h : IsText bs) : Subject.name.check bs =
    if bs.length < 1 ∨ 255 < bs.length then .error (.nameLength bs.length) else .ok () := by
  change checkName bs = _
  unfold checkName
  rw [isUtf8_iff.mpr h]
  exact if_neg nofun

theorem check_name_of_not_isText {bs : Bytes} (h : ¬ IsText bs) :
    Subject.name.check bs = .error (.notUtf8 .name) := by
  change checkName bs = _
  unfold checkName
  rw [Bool.eq_false_iff.mpr (mt isUtf8_iff.mp h)]
  exact if_pos rfl

theorem check_password_of_isText {bs : Bytes} (h : IsText bs) : Subject.password.check bs =
    if bs.length < 16 then .error .passwordTooShort else .ok () := by
  change checkPassword bs = _
  unfold checkPassword
  rw [isUtf8_iff.mpr h]
  exact if_neg nofun

theorem check_password_of_not_isText {bs : Bytes} (h : ¬ IsText bs) :
    Subject.password.check bs = .error (.notUtf8 .password) := by
  change checkPassword bs = _
  unfold checkPassword
  rw [Bool.eq_false_iff.mpr (mt isUtf8_iff.mp h)]
  exact if_pos rfl

/-- **The checks of names and passwords**: what each accepts, and when it reports which fault. Being
text comes before the length, and lengths count bytes. -/
theorem text_checks_exact (bs : Bytes) :
    (Subject.name.check bs = .ok () ↔ IsText bs ∧ 1 ≤ bs.length ∧ bs.length ≤ 255) ∧
    (Subject.name.check bs = .error (.notUtf8 .name) ↔ ¬ IsText bs) ∧
    (∀ n, Subject.name.check bs = .error (.nameLength n) ↔
      IsText bs ∧ n = bs.length ∧ (bs.length < 1 ∨ 255 < bs.length)) ∧
    (Subject.password.check bs = .ok () ↔ IsText bs ∧ 16 ≤ bs.length) ∧
    (Subject.password.check bs = .error (.notUtf8 .password) ↔ ¬ IsText bs) ∧
    (Subject.password.check bs = .error .passwordTooShort ↔ IsText bs ∧ bs.length < 16) := by
  by_cases htext : IsText bs
  · rw [check_name_of_isText htext, check_password_of_isText htext]
    refine ⟨?_, ?_, fun n => ?_, ?_, ?_, ?_⟩
    · by_cases hlength : bs.length < 1 ∨ 255 < bs.length
      · simp only [if_pos hlength, reduceCtorEq, htext, true_and, false_iff]
        omega
      · simp only [if_neg hlength, htext, true_and, true_iff]
        omega
    · split <;> simp [htext]
    · by_cases hlength : bs.length < 1 ∨ 255 < bs.length
      · rw [if_pos hlength, Except.error.injEq, InputFault.nameLength.injEq]
        exact ⟨fun h => ⟨htext, h.symm, hlength⟩, fun h => h.2.1.symm⟩
      · rw [if_neg hlength]
        exact ⟨nofun, fun h => absurd h.2.2 hlength⟩
    · simp [htext]
    · split <;> simp [htext]
    · simp [htext]
  · simp [check_name_of_not_isText htext, check_password_of_not_isText htext, htext]

end SealedMessaging
