import Mathlib.Data.List.Forall2
import SealedMessaging.Identity
import SealedMessaging.Proofs.Outcome

/-!
# Hex text reads back, and keeps the order of bytes

A text is read as the byte string whose halves its characters are digits of, in either case, and any
other text is refused. Reading looks at the UTF-8 of a text, where a character is known to be a digit
by its first byte.

* `Hex.Denotes`: what a text stands for.
* `Hex.decode_eq_ok_iff`, `Hex.decodeExact_eq_ok_iff`: a text is read as what it stands for.
* `Hex.encode_lt_encode`: hex texts are ordered like the byte strings they stand for.
* `Id.ofHex_eq_ok_iff`: the same for identifiers.
-/

namespace SealedMessaging

namespace Hex

/-! ## What a hex text stands for -/

/-- A digit, of either case, for a number below sixteen. -/
def DigitOf (c : Char) (n : Nat) : Prop :=
  n < 16 ∧ (c = digit n ∨ c = (digit n).toUpper)

instance (c : Char) (n : Nat) : Decidable (DigitOf c n) :=
  inferInstanceAs (Decidable (_ ∧ _))

/-- The halves of the bytes, the high one first. -/
def halves (bs : Bytes) : List Nat :=
  bs.flatMap fun b => [b.toNat / 16, b.toNat % 16]

/-- **A text stands for a byte string** if its characters are digits, of either case, for the halves
of the bytes. -/
def Denotes (text : String) (bs : Bytes) : Prop :=
  List.Forall₂ DigitOf text.toList (halves bs)

theorem halves_cons (b : UInt8) (bs : Bytes) :
    halves (b :: bs) = b.toNat / 16 :: b.toNat % 16 :: halves bs := rfl

theorem length_halves (bs : Bytes) : (halves bs).length = 2 * bs.length := by
  induction bs with
  | nil => rfl
  | cons b bs ih =>
    rw [halves_cons, List.length_cons, List.length_cons, List.length_cons, ih]
    omega

/-- There are two digits for each byte. -/
theorem Denotes.length_eq {text : String} {bs : Bytes} (h : Denotes text bs) :
    text.length = 2 * bs.length := by
  rw [← length_halves, ← List.Forall₂.length_eq h, String.length_toList]

theorem high_lt (b : UInt8) : b.toNat / 16 < 16 := by
  have := b.toNat_lt
  omega

theorem low_lt (b : UInt8) : b.toNat % 16 < 16 := Nat.mod_lt _ (by decide)

/-- What is written stands for what it is written for. -/
theorem denotes_encode (bs : Bytes) : Denotes (encode bs) bs := by
  unfold Denotes encode digits halves
  rw [String.toList_ofList]
  refine List.rel_flatMap (R := Eq) (by simp) ?_
  rintro b _ rfl
  exact .cons ⟨high_lt b, Or.inl rfl⟩ (.cons ⟨low_lt b, Or.inl rfl⟩ .nil)

/-! ## Codes -/

/-- The code of a digit for a number below sixteen. -/
def CodeOf (code : UInt8) (n : Nat) : Prop :=
  n < 16 ∧ value? code = some (UInt8.ofNat n)

instance (code : UInt8) (n : Nat) : Decidable (CodeOf code n) :=
  inferInstanceAs (Decidable (_ ∧ _))

theorem codeOf_of_value? : ∀ k < 256, ∀ v ∈ value? (UInt8.ofNat k), v.toNat < 16 := by
  decide +kernel

theorem valueAt_eq_ok_iff {code v : UInt8} {position : Nat} :
    valueAt code position = .ok v ↔ CodeOf code v.toNat := by
  have hvalue : value? code = some v → v.toNat < 16 := by
    have hlt := codeOf_of_value? code.toNat code.toNat_lt v
    rw [UInt8.ofNat_toNat] at hlt
    exact hlt
  unfold valueAt CodeOf
  rw [UInt8.ofNat_toNat]
  cases hcode : value? code with
  | none => simp
  | some w =>
    simp only [Except.ok.injEq, Option.some.injEq]
    exact ⟨fun h => ⟨hvalue (h ▸ hcode), h⟩, And.right⟩

theorem halves_join (b : UInt8) : UInt8.ofNat (b.toNat / 16) * 16 + UInt8.ofNat (b.toNat % 16) = b := by
  have hb := b.toNat_lt
  apply UInt8.toNat.inj
  rw [UInt8.toNat_add, UInt8.toNat_mul, UInt8.toNat_ofNat', UInt8.toNat_ofNat']
  have h16 : (16 : UInt8).toNat = 16 := rfl
  rw [h16]
  omega

theorem join_eq_iff {h l b : UInt8} (hh : h.toNat < 16) (hl : l.toNat < 16) :
    h * 16 + l = b ↔ h.toNat = b.toNat / 16 ∧ l.toNat = b.toNat % 16 := by
  have hb := b.toNat_lt
  rw [← UInt8.toNat_inj, UInt8.toNat_add, UInt8.toNat_mul]
  have h16 : (16 : UInt8).toNat = 16 := rfl
  rw [h16]
  omega

/-- A number below sixteen is that of the byte for it. -/
theorem CodeOf.toNat_ofNat {code : UInt8} {n : Nat} (h : CodeOf code n) : (UInt8.ofNat n).toNat = n := by
  have := h.1
  rw [UInt8.toNat_ofNat']
  omega

/-- Two codes in front of others are those of the first byte. -/
theorem forall₂_codeOf_pair_iff {high low : UInt8} {rest bs : Bytes} :
    List.Forall₂ CodeOf (high :: low :: rest) (halves bs) ↔
      ∃ b bs', bs = b :: bs' ∧ CodeOf high (b.toNat / 16) ∧ CodeOf low (b.toNat % 16) ∧
        List.Forall₂ CodeOf rest (halves bs') := by
  cases bs with
  | nil => exact ⟨nofun, nofun⟩
  | cons b bs =>
    rw [halves_cons, List.forall₂_cons, List.forall₂_cons]
    constructor
    · rintro ⟨hhigh, hlow, hrest⟩
      exact ⟨b, bs, rfl, hhigh, hlow, hrest⟩
    · rintro ⟨b', bs', heq, hhigh, hlow, hrest⟩
      obtain ⟨rfl, rfl⟩ := List.cons.inj heq
      exact ⟨hhigh, hlow, hrest⟩

/-- **Codes are read in pairs**, as those of the halves of the bytes. -/
theorem decodePairs_eq_ok_iff {codes bs : Bytes} {position : Nat} (heven : ¬ codes.length % 2 = 1) :
    decodePairs codes position = .ok bs ↔ List.Forall₂ CodeOf codes (halves bs) := by
  -- by the pairs, as they are read
  induction codes, position using decodePairs.induct generalizing bs with
  | case1 high low rest position ih =>
    have hrest : ¬ rest.length % 2 = 1 := by
      simp only [List.length_cons] at heven
      omega
    rw [decodePairs]
    simp only [Except.bind_eq_ok_iff, Except.pure_eq_ok_iff, valueAt_eq_ok_iff, ih hrest,
      forall₂_codeOf_pair_iff]
    constructor
    · rintro ⟨h, hh, l, hl, bs', hbs, rfl⟩
      obtain ⟨hhigh, hlow⟩ := (join_eq_iff hh.1 hl.1).1 rfl
      exact ⟨h * 16 + l, bs', rfl, hhigh ▸ hh, hlow ▸ hl, hbs⟩
    · rintro ⟨b, bs', rfl, hh, hl, hbs⟩
      exact ⟨_, hh.toNat_ofNat.symm ▸ hh, _, hl.toNat_ofNat.symm ▸ hl, bs', hbs, by rw [halves_join]⟩
  | case2 codes position hpair =>
    have hnil : codes = [] := by
      match codes with
      | [] => rfl
      | [code] => exact absurd rfl heven
      | high :: low :: rest => exact absurd rfl (hpair high low rest)
    subst hnil
    have hread : decodePairs [] position = .ok [] := by rw [decodePairs]; exact fun _ _ _ => nofun
    rw [hread]
    cases bs with
    | nil => simp [halves]
    | cons b bs => simp [halves_cons]

/-! ## Characters -/

/-- Digits are ASCII. -/
theorem toNat_digit_lt : ∀ n < 16, (digit n).toNat < 128 ∧ (digit n).toUpper.toNat < 128 := by
  decide +kernel

theorem codeOf_iff_digitOf : ∀ k < 128, ∀ n < 16,
    CodeOf (UInt8.ofNat k) n ↔ DigitOf (Char.ofNat k) n := by
  decide +kernel

theorem value?_lead : ∀ k < 256, 128 ≤ k → value? (UInt8.ofNat k) = none := by
  decide +kernel

/-- A character is its own code, or it begins with a byte above those. -/
theorem utf8EncodeChar_cases (c : Char) :
    (c.toNat < 128 ∧ String.utf8EncodeChar c = [UInt8.ofNat c.toNat]) ∨
      128 ≤ c.toNat ∧ ∃ k rest, k < 256 ∧ 128 ≤ k ∧
        String.utf8EncodeChar c = UInt8.ofNat k :: rest := by
  have hval : c.toNat = c.val.toNat := rfl
  unfold String.utf8EncodeChar
  dsimp only
  rw [hval]
  split
  · exact Or.inl ⟨by omega, rfl⟩
  split
  · exact Or.inr ⟨by omega, _, _, by omega, by omega, rfl⟩
  split
  · exact Or.inr ⟨by omega, _, _, by omega, by omega, rfl⟩
  · exact Or.inr ⟨by omega, _, _, by omega, by omega, rfl⟩

theorem DigitOf.toNat_lt {c : Char} {n : Nat} (h : DigitOf c n) : c.toNat < 128 := by
  obtain ⟨hn, rfl | rfl⟩ := h
  · exact (toNat_digit_lt n hn).1
  · exact (toNat_digit_lt n hn).2

/-- **Digits are known by their codes**, since any other character begins with another code. -/
theorem forall₂_codeOf_iff {cs : List Char} {ns : List Nat} :
    List.Forall₂ CodeOf (utf8Chars cs) ns ↔ List.Forall₂ DigitOf cs ns := by
  induction cs generalizing ns with
  | nil =>
    show List.Forall₂ CodeOf [] ns ↔ _
    rw [List.forall₂_nil_left_iff, List.forall₂_nil_left_iff]
  | cons c cs ih =>
    have happend : utf8Chars (c :: cs) = String.utf8EncodeChar c ++ utf8Chars cs :=
      List.flatMap_cons
    rw [happend, List.forall₂_cons_left_iff]
    rcases utf8EncodeChar_cases c with ⟨hc, hcode⟩ | ⟨hc, k, rest, hk, hlead, hcode⟩
    · have hdigit : ∀ n, CodeOf (UInt8.ofNat c.toNat) n ↔ DigitOf c n := by
        intro n
        have hiff := codeOf_iff_digitOf c.toNat hc n
        rw [Char.ofNat_toNat] at hiff
        exact ⟨fun h => (hiff h.1).1 h, fun h => (hiff h.1).2 h⟩
      rw [hcode, List.singleton_append, List.forall₂_cons_left_iff]
      simp only [hdigit, ih]
    · have hnot : ∀ n, ¬ CodeOf (UInt8.ofNat k) n := by
        intro n h
        exact absurd (h.2.symm.trans (value?_lead k hk hlead)) (by simp)
      rw [hcode, List.cons_append, List.forall₂_cons_left_iff]
      constructor
      · rintro ⟨n, _, h, -⟩
        exact absurd h (hnot n)
      · rintro ⟨n, _, h, -⟩
        exact absurd h.toNat_lt (Nat.not_lt.2 hc)

/-! ## Reading -/

/-- **A text is read as the byte string it stands for**, and any other is refused. -/
theorem decode_eq_ok_iff {text : String} {bs : Bytes} :
    decode text = .ok bs ↔ Denotes text bs := by
  unfold decode Denotes utf8
  rw [← forall₂_codeOf_iff]
  dsimp only
  by_cases hodd : (utf8Chars text.toList).length % 2 = 1
  · rw [if_pos hodd]
    refine ⟨nofun, fun h => ?_⟩
    have hlen := h.length_eq
    rw [length_halves] at hlen
    omega
  · rw [if_neg hodd]
    exact decodePairs_eq_ok_iff hodd

theorem decodeExact_eq_ok_iff {n : Nat} {text : String} {octets : Octets n} :
    decodeExact n text = .ok octets ↔ Denotes text octets.toList := by
  have hlen : List.Forall₂ CodeOf (utf8Chars text.toList) (halves octets.toList) →
      (utf8Chars text.toList).length = 2 * n := by
    intro h
    rw [h.length_eq, length_halves, octets.length_toList]
  unfold decodeExact Denotes utf8
  rw [← forall₂_codeOf_iff]
  dsimp only
  by_cases hodd : (utf8Chars text.toList).length % 2 = 1
  · rw [if_pos hodd]
    exact ⟨nofun, fun h => by have := hlen h; omega⟩
  rw [if_neg hodd]
  by_cases hwrong : (utf8Chars text.toList).length ≠ 2 * n
  · rw [if_pos hwrong]
    exact ⟨nofun, fun h => absurd (hlen h) hwrong⟩
  rw [if_neg hwrong, Except.map_eq_ok_iff]
  simp only [decodePairs_eq_ok_iff hodd]
  constructor
  · rintro ⟨bs, hbs, rfl⟩
    have hbytes : bs.length = n := by
      have := hbs.length_eq
      rw [length_halves] at this
      omega
    rw [Octets.toList_fit hbytes]
    exact hbs
  · intro h
    exact ⟨_, h, Octets.ext (Octets.toList_fit octets.length_toList)⟩

/-- **What is written in hex reads back.** -/
theorem decode_encode (bs : Bytes) : decode (encode bs) = .ok bs :=
  decode_eq_ok_iff.2 (denotes_encode bs)

/-! ## Order -/

theorem digit_lt_digit : ∀ n < 16, ∀ m < n, digit m < digit n := by decide

theorem pair_append_lt {a b : UInt8} (h : a < b) (s t : List Char) :
    pair a ++ s < pair b ++ t := by
  have hlt : a.toNat < b.toNat := h
  have hb := high_lt b
  unfold pair
  simp only [List.cons_append, List.nil_append, List.cons_lt_cons_iff]
  rcases Nat.lt_or_ge (a.toNat / 16) (b.toNat / 16) with hhigh | hhigh
  · exact Or.inl (digit_lt_digit _ hb _ hhigh)
  · have heq : a.toNat / 16 = b.toNat / 16 := by omega
    have hlow : a.toNat % 16 < b.toNat % 16 := by omega
    exact Or.inr ⟨congrArg digit heq, Or.inl (digit_lt_digit _ (low_lt b) _ hlow)⟩

theorem append_lt_append {a b : UInt8} (hab : a = b) {s t : List Char} (h : s < t) :
    pair a ++ s < pair b ++ t := by
  subst hab
  unfold pair
  simp only [List.cons_append, List.nil_append, List.cons_lt_cons_iff]
  exact Or.inr ⟨trivial, Or.inr ⟨trivial, h⟩⟩

/-- Digits are ordered like the bytes they stand for. -/
theorem digits_lt_digits {as bs : Bytes} (h : as < bs) : digits as < digits bs := by
  induction as generalizing bs with
  | nil =>
    cases bs with
    | nil => exact absurd h (List.lt_irrefl _)
    | cons b bs => exact List.nil_lt_cons _ _
  | cons a as ih =>
    cases bs with
    | nil => exact absurd h (List.not_lt_nil _)
    | cons b bs =>
      unfold digits at ih ⊢
      rw [List.flatMap_cons, List.flatMap_cons]
      rcases List.cons_lt_cons_iff.1 h with hab | ⟨hab, hrest⟩
      · exact pair_append_lt hab _ _
      · exact append_lt_append hab (ih hrest)

/-- **Hex texts are ordered like the byte strings** they stand for. -/
theorem encode_lt_encode {as bs : Bytes} (h : as < bs) : encode as < encode bs := by
  rw [String.lt_iff]
  unfold encode
  rw [String.toList_ofList, String.toList_ofList]
  exact digits_lt_digits h

end Hex

theorem Id.ofHex_eq_ok_iff {text : String} {id : Id} :
    Id.ofHex text = .ok id ↔ Hex.Denotes text id.octets.toList := by
  unfold ofHex
  rw [Except.map_eq_ok_iff, ← Hex.decodeExact_eq_ok_iff]
  constructor
  · rintro ⟨octets, hoctets, rfl⟩
    exact hoctets
  · intro h
    exact ⟨id.octets, h, rfl⟩

theorem Id.ofHex_toHex (id : Id) : Id.ofHex id.toHex = .ok id :=
  ofHex_eq_ok_iff.2 (Hex.denotes_encode _)

end SealedMessaging
