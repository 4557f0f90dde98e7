import SealedMessaging.Proofs.Hex
import SealedMessaging.Proofs.Keys
import SealedMessaging.Proofs.Related

/-!
# Which texts are hex, and why the others are not

A text is read if it has two digits of either case for each byte, and what is read is written as the
same text in lower case. Any other text is refused for the first check that it does not pass. Since a
digit is its own code, it is enough to look at the bytes of a text, where the first one that is no
digit is found by its position.

* `Hex.IsDigit`, `Hex.Refused`: the digits, and why a text is not read.
* `Hex.exists_denotes_iff`, `Hex.Denotes.encode_eq`: the texts that stand for a byte string, and what
  it is written as.
* `Hex.decode_eq_error_iff`, `Hex.decodeExact_eq_error_iff`: a text is refused for its reason.
* `hex_forms_exact`: the hex texts of identifiers and of public keys.
-/

namespace SealedMessaging

namespace Hex

/-! ## Digits -/

/-- **A hex digit**, of either case. -/
def IsDigit (c : Char) : Prop :=
  ('0' ≤ c ∧ c ≤ '9') ∨ ('a' ≤ c ∧ c ≤ 'f') ∨ ('A' ≤ c ∧ c ≤ 'F')

instance (c : Char) : Decidable (IsDigit c) :=
  inferInstanceAs (Decidable (_ ∨ _))

theorem isDigit_iff_lt_128 : ∀ k < 128,
    IsDigit (Char.ofNat k) ↔ ∃ n < 16, DigitOf (Char.ofNat k) n := by
  decide +kernel

theorem value?_eq_none_iff_lt_256 : ∀ k < 256,
    value? (UInt8.ofNat k) = none ↔ ¬ IsDigit (Char.ofNat k) := by
  decide +kernel

theorem digit_toLower : ∀ n < 16,
    (digit n).toLower = digit n ∧ (digit n).toUpper.toLower = digit n := by
  decide +kernel

theorem IsDigit.toNat_lt {c : Char} (h : IsDigit c) : c.toNat < 128 := by
  have hle : ∀ {top : Char}, c ≤ top → c.toNat ≤ top.toNat := fun h => h
  rcases h with ⟨-, h⟩ | ⟨-, h⟩ | ⟨-, h⟩
  all_goals exact Nat.lt_of_le_of_lt (hle h) (by decide)

/-- The digits are those for the numbers below sixteen. -/
theorem isDigit_iff {c : Char} : IsDigit c ↔ ∃ n, DigitOf c n := by
  have hiff : c.toNat < 128 → (IsDigit c ↔ ∃ n < 16, DigitOf c n) := by
    intro hc
    have h := isDigit_iff_lt_128 c.toNat hc
    rwa [Char.ofNat_toNat] at h
  constructor
  · intro h
    obtain ⟨n, -, hn⟩ := (hiff h.toNat_lt).1 h
    exact ⟨n, hn⟩
  · rintro ⟨n, hn⟩
    exact (hiff hn.toNat_lt).2 ⟨n, hn.1, hn⟩

theorem DigitOf.toLower_eq {c : Char} {n : Nat} (h : DigitOf c n) : c.toLower = digit n := by
  obtain ⟨hn, rfl | rfl⟩ := h
  · exact (digit_toLower n hn).1
  · exact (digit_toLower n hn).2

/-- A byte has a value unless it is not the code of a digit. -/
theorem value?_eq_none_iff {b : UInt8} : value? b = none ↔ ¬ IsDigit (Char.ofNat b.toNat) := by
  have h := value?_eq_none_iff_lt_256 b.toNat b.toNat_lt
  rwa [UInt8.ofNat_toNat] at h

/-! ## Texts that stand for a byte string -/

theorem digits_eq_map_halves (bs : Bytes) : digits bs = (halves bs).map digit := by
  induction bs with
  | nil => rfl
  | cons b bs ih =>
    rw [halves_cons, List.map_cons, List.map_cons, ← ih]
    rfl

/-- **What a text stands for is written as the text in lower case.** -/
theorem Denotes.encode_eq {text : String} {bs : Bytes} (h : Denotes text bs) :
    encode bs = text.toLower := by
  have hlower : ∀ {cs : List Char} {ns : List Nat}, List.Forall₂ DigitOf cs ns →
      ns.map digit = cs.map Char.toLower := by
    intro cs ns hcs
    induction hcs with
    | nil => rfl
    | cons hc _ ih => rw [List.map_cons, List.map_cons, hc.toLower_eq, ih]
  apply String.toList_inj.1
  unfold encode String.toLower
  rw [String.toList_ofList, String.toList_map, digits_eq_map_halves, hlower h]

/-- Numbers below sixteen are the halves of bytes, if there is an even number of them. -/
theorem exists_halves : ∀ {ns : List Nat}, (∀ n ∈ ns, n < 16) → ns.length % 2 = 0 →
    ∃ bs, halves bs = ns
  | [], _, _ => ⟨[], rfl⟩
  | [_], _, heven => absurd heven (by simp)
  | high :: low :: rest, hlt, heven => by
    have hhigh : high < 16 := hlt high (by simp)
    have hlow : low < 16 := hlt low (by simp)
    have hrest : rest.length % 2 = 0 := by
      simp only [List.length_cons] at heven
      omega
    obtain ⟨bs, rfl⟩ := exists_halves (fun n hn => hlt n (by simp [hn])) hrest
    refine ⟨UInt8.ofNat (high * 16 + low) :: bs, ?_⟩
    have hbyte : (UInt8.ofNat (high * 16 + low)).toNat = high * 16 + low := by
      rw [UInt8.toNat_ofNat']
      omega
    rw [halves_cons, hbyte]
    have hdiv : (high * 16 + low) / 16 = high := by omega
    have hmod : (high * 16 + low) % 16 = low := by omega
    rw [hdiv, hmod]

/-- **The texts that stand for a byte string** are those of digits, two for each byte. -/
theorem exists_denotes_iff {text : String} {n : Nat} :
    (∃ bs, Denotes text bs ∧ bs.length = n) ↔
      text.length = 2 * n ∧ ∀ c ∈ text.toList, IsDigit c := by
  constructor
  · rintro ⟨bs, h, rfl⟩
    refine ⟨h.length_eq, fun c hc => ?_⟩
    obtain ⟨m, -, hm⟩ := h.exists_of_mem_left hc
    exact isDigit_iff.2 ⟨m, hm⟩
  · rintro ⟨hlen, hdigits⟩
    obtain ⟨ns, hns⟩ := List.exists_forall₂ fun c hc => isDigit_iff.1 (hdigits c hc)
    have hlt : ∀ m ∈ ns, m < 16 := by
      intro m hm
      obtain ⟨c, -, hc⟩ := hns.exists_of_mem_right hm
      exact hc.1
    have hcount : ns.length = 2 * n := by
      rw [← hns.length_eq, String.length_toList, hlen]
    obtain ⟨bs, rfl⟩ := exists_halves hlt (by omega)
    rw [length_halves] at hcount
    exact ⟨bs, hns, by omega⟩

/-! ## Texts that are refused -/

/-- **Why a text is not read**, where only some numbers of bytes fit: by the first check that it does
not pass. The bytes of the text are looked at from left to right. -/
inductive Refused (fits : Nat → Prop) (text : String) : Fault → Prop where
  | oddLength (odd : (utf8 text).length % 2 = 1) : Refused fits text .oddLength
  | wrongLength (even : (utf8 text).length % 2 = 0) (wrong : ¬ fits (utf8 text).length) :
      Refused fits text .wrongLength
  | badDigit {front rest : Bytes} {b : UInt8} (even : (utf8 text).length % 2 = 0)
      (right : fits (utf8 text).length) (split : utf8 text = front ++ b :: rest)
      (digits : ∀ a ∈ front, IsDigit (Char.ofNat a.toNat)) (bad : ¬ IsDigit (Char.ofNat b.toNat)) :
      Refused fits text (.badDigit b front.length)

theorem exists_valueAt {b : UInt8} (h : IsDigit (Char.ofNat b.toNat)) (position : Nat) :
    ∃ v, valueAt b position = .ok v := by
  unfold valueAt
  cases hb : value? b with
  | none => exact absurd h (value?_eq_none_iff.1 hb)
  | some v => exact ⟨v, rfl⟩

theorem valueAt_of_not_isDigit {b : UInt8} (h : ¬ IsDigit (Char.ofNat b.toNat)) (position : Nat) :
    valueAt b position = .error (.badDigit b position) := by
  unfold valueAt
  rw [value?_eq_none_iff.2 h]

theorem exists_decodePairs {codes : Bytes} (h : ∀ a ∈ codes, IsDigit (Char.ofNat a.toNat))
    (position : Nat) : ∃ bs, decodePairs codes position = .ok bs := by
  induction codes, position using decodePairs.induct with
  | case1 high low rest position ih =>
    obtain ⟨v, hv⟩ := exists_valueAt (h high (by simp)) position
    obtain ⟨w, hw⟩ := exists_valueAt (h low (by simp)) (position + 1)
    obtain ⟨bs, hbs⟩ := ih fun a ha => h a (by simp [ha])
    rw [decodePairs, hv, hw, hbs]
    exact ⟨_, rfl⟩
  | case2 codes position hpair =>
    rw [decodePairs]
    · exact ⟨_, rfl⟩
    · exact hpair

/-- **The first byte that is no digit is found**, with its position. -/
theorem decodePairs_of_bad {codes front rest : Bytes} {b : UInt8} {position : Nat}
    (heven : codes.length % 2 = 0) (hsplit : codes = front ++ b :: rest)
    (hdigits : ∀ a ∈ front, IsDigit (Char.ofNat a.toNat)) (hbad : ¬ IsDigit (Char.ofNat b.toNat)) :
    decodePairs codes position = .error (.badDigit b (position + front.length)) := by
  -- by the pairs, as they are read; the bad byte may be the first or the second of one
  induction codes, position using decodePairs.induct generalizing front with
  | case1 high low codes position ih =>
    rcases front with _ | ⟨a, _ | ⟨a', front⟩⟩
    · obtain ⟨rfl, -⟩ := List.cons.inj hsplit
      rw [decodePairs, valueAt_of_not_isDigit hbad]
      rfl
    · obtain ⟨rfl, htail⟩ := List.cons.inj hsplit
      obtain ⟨rfl, -⟩ := List.cons.inj htail
      obtain ⟨v, hv⟩ := exists_valueAt (hdigits high (by simp)) position
      rw [decodePairs, hv, valueAt_of_not_isDigit hbad]
      rfl
    · obtain ⟨rfl, htail⟩ := List.cons.inj hsplit
      obtain ⟨rfl, hcodes⟩ := List.cons.inj htail
      obtain ⟨v, hv⟩ := exists_valueAt (hdigits high (by simp)) position
      obtain ⟨w, hw⟩ := exists_valueAt (hdigits low (by simp)) (position + 1)
      have hrest : codes.length % 2 = 0 := by
        simp only [List.length_cons] at heven
        omega
      rw [decodePairs, hv, hw, ih hrest hcodes fun a ha => hdigits a (by simp [ha])]
      have hposition : position + 2 + front.length = position + (front.length + 1 + 1) := by omega
      rw [List.length_cons, List.length_cons, ← hposition]
      rfl
  | case2 codes position hpair =>
    rcases codes with _ | ⟨high, _ | ⟨low, rest⟩⟩
    · exact absurd hsplit (by simp)
    · exact absurd heven (by simp)
    · exact absurd rfl (hpair high low rest)

/-- The bytes are all digits, or one of them is the first that is none. -/
theorem isDigit_or_split (codes : Bytes) :
    (∀ a ∈ codes, IsDigit (Char.ofNat a.toNat)) ∨ ∃ front b rest, codes = front ++ b :: rest ∧
      (∀ a ∈ front, IsDigit (Char.ofNat a.toNat)) ∧ ¬ IsDigit (Char.ofNat b.toNat) := by
  cases hfind : codes.find? fun a => ¬ IsDigit (Char.ofNat a.toNat) with
  | none =>
    rw [List.find?_eq_none] at hfind
    simpa using Or.inl hfind
  | some b =>
    obtain ⟨hb, front, rest, hsplit, hfront⟩ := List.find?_eq_some_iff_append.1 hfind
    exact Or.inr ⟨front, b, rest, hsplit, by simpa using hfront, by simpa using hb⟩

section Reading

variable {fits : Nat → Prop} {text : String} {fault : Fault}

/-- A text whose bytes are an even and fitting number of digits is read; for any other there is one
reason. -/
theorem digits_or_refused (fits : Nat → Prop) (text : String) :
    ((utf8 text).length % 2 = 0 ∧ fits (utf8 text).length ∧
      ∀ a ∈ utf8 text, IsDigit (Char.ofNat a.toNat)) ∨ ∃ fault, Refused fits text fault := by
  rcases Nat.mod_two_eq_zero_or_one (utf8 text).length with heven | hodd
  · by_cases hfits : fits (utf8 text).length
    · rcases isDigit_or_split (utf8 text) with hdigits | ⟨front, b, rest, hsplit, hfront, hb⟩
      · exact Or.inl ⟨heven, hfits, hdigits⟩
      · exact Or.inr ⟨_, .badDigit heven hfits hsplit hfront hb⟩
    · exact Or.inr ⟨_, .wrongLength heven hfits⟩
  · exact Or.inr ⟨_, .oddLength hodd⟩

theorem decode_of_refused (h : Refused (fun _ => True) text fault) : decode text = .error fault := by
  unfold decode
  cases h with
  | oddLength odd => exact if_pos odd
  | wrongLength even wrong => exact absurd trivial wrong
  | badDigit even right split digits bad =>
    dsimp only
    rw [if_neg (by omega), decodePairs_of_bad even split digits bad, Nat.zero_add]

/-- **A text is refused for its reason**, when any even number of digits may come. -/
theorem decode_eq_error_iff : decode text = .error fault ↔ Refused (fun _ => True) text fault := by
  refine ⟨fun h => ?_, decode_of_refused⟩
  rcases digits_or_refused (fun _ => True) text with ⟨heven, -, hdigits⟩ | ⟨fault', hrefused⟩
  · obtain ⟨bs, hbs⟩ := exists_decodePairs hdigits 0
    unfold decode at h
    dsimp only at h
    rw [if_neg (by omega), hbs] at h
    exact absurd h (by simp)
  · obtain rfl := Except.error.inj (h.symm.trans (decode_of_refused hrefused))
    exact hrefused

variable {n : Nat}

theorem decodeExact_of_refused (h : Refused (· = 2 * n) text fault) :
    decodeExact n text = .error fault := by
  unfold decodeExact
  cases h with
  | oddLength odd => exact if_pos odd
  | wrongLength even wrong =>
    dsimp only
    rw [if_neg (by omega), if_pos wrong]
  | badDigit even right split digits bad =>
    dsimp only
    rw [if_neg (by omega), if_neg (not_not.2 right), decodePairs_of_bad even split digits bad,
      Nat.zero_add]
    rfl

/-- **A text is refused for its reason**, when a number of bytes is wanted. -/
theorem decodeExact_eq_error_iff :
    decodeExact n text = .error fault ↔ Refused (· = 2 * n) text fault := by
  refine ⟨fun h => ?_, decodeExact_of_refused⟩
  rcases digits_or_refused (· = 2 * n) text with ⟨heven, hright, hdigits⟩ | ⟨fault', hrefused⟩
  · obtain ⟨bs, hbs⟩ := exists_decodePairs hdigits 0
    unfold decodeExact at h
    dsimp only at h
    rw [if_neg (by omega), if_neg (not_not.2 hright), hbs] at h
    exact absurd h (by simp [Except.map])
  · obtain rfl := Except.error.inj (h.symm.trans (decodeExact_of_refused hrefused))
    exact hrefused

end Reading

/-- The bytes are all zero if the digits are. -/
theorem Denotes.forall_zero_iff {text : String} {bs : Bytes} (h : Denotes text bs) :
    (∀ b ∈ bs, b = 0) ↔ ∀ c ∈ text.toList, c = '0' := by
  have hdigit : ∀ {c : Char}, DigitOf c 0 → c = '0' := by
    rintro c ⟨-, rfl | rfl⟩
    · rfl
    · rfl
  have hhalf : ∀ n < 16, DigitOf '0' n → n = 0 := by decide +kernel
  constructor
  · intro hzero c hc
    obtain ⟨n, hn, hdigits⟩ := h.exists_of_mem_left hc
    obtain ⟨b, hb, hn⟩ := List.mem_flatMap.1 hn
    rw [hzero b hb] at hn
    obtain rfl : n = 0 := by simpa using hn
    exact hdigit hdigits
  · intro hzero b hb
    -- both halves of a byte have a digit in the text
    have hhalves : ∀ n ∈ [b.toNat / 16, b.toNat % 16], n = 0 := by
      intro n hn
      obtain ⟨c, hc, hdigits⟩ := h.exists_of_mem_right (List.mem_flatMap.2 ⟨b, hb, hn⟩)
      rw [hzero c hc] at hdigits
      exact hhalf n hdigits.1 hdigits
    have hhigh := hhalves (b.toNat / 16) (by simp)
    have hlow := hhalves (b.toNat % 16) (by simp)
    have htoNat : b.toNat = 0 := by omega
    exact UInt8.toNat.inj htoNat

end Hex

/-! ## Identifiers and public keys -/

theorem Id.ofHex_eq_error_iff {text : String} {fault : Hex.Fault} :
    Id.ofHex text = .error fault ↔ Hex.Refused (· = 32) text fault := by
  refine Iff.trans ?_ (Hex.decodeExact_eq_error_iff (n := 16))
  unfold ofHex
  cases Hex.decodeExact 16 text <;> simp [Except.map]

namespace PublicKey

/-- **What stands behind at most one mark** `0x`. -/
def Unmarks (text digits : String) : Prop :=
  text = "0x" ++ digits ∨ text = digits ∧ ∀ rest, text ≠ "0x" ++ rest

/-- **Why a text is no public key**, by what stands behind a mark: it is read as a byte string before
the bytes are looked at. -/
inductive TextRefused (digits : String) : CryptoFault → Prop where
  | text {fault : Hex.Fault} (refused : Hex.Refused (fun _ => True) digits fault) :
      TextRefused digits (.keyText fault)
  | length {n : Nat} (count : digits.length = 2 * n) (all : ∀ c ∈ digits.toList, Hex.IsDigit c)
      (wrong : n ≠ 32) : TextRefused digits (.input (.wrongLength .publicKey 32 n))
  | zeros (count : digits.length = 64) (zeros : ∀ c ∈ digits.toList, c = '0') :
      TextRefused digits (.input (.allZero .publicKey))

variable {text digits : String} {key : PublicKey} {fault : CryptoFault}

theorem ofList_marked (digits : String) :
    String.ofList ('0' :: 'x' :: digits.toList) = "0x" ++ digits := by
  apply String.toList_inj.1
  rw [String.toList_ofList, String.toList_append]
  rfl

theorem exists_unmarks (text : String) : ∃ digits, Unmarks text digits := by
  by_cases h : ∃ rest, text = "0x" ++ rest
  · obtain ⟨rest, h⟩ := h
    exact ⟨rest, Or.inl h⟩
  · exact ⟨text, Or.inr ⟨rfl, not_exists.1 h⟩⟩

/-- A mark is taken off before the text is read. -/
theorem ofList_unmarked (h : Unmarks text digits) :
    String.ofList (unmarked text.toList) = digits := by
  rcases h with rfl | ⟨rfl, hnone⟩
  · rw [String.toList_append]
    exact String.ofList_toList
  · unfold unmarked
    split
    · rename_i rest heq
      refine absurd ?_ (hnone (String.ofList rest))
      rw [← ofList_marked, String.toList_ofList, ← heq, String.ofList_toList]
    · exact String.ofList_toList

theorem ofHex_eq_ok_iff (h : Unmarks text digits) :
    ofHex text = .ok key ↔ Hex.Denotes digits key.toBytes ∧ ∃ b ∈ key.toBytes, b ≠ 0 := by
  unfold ofHex
  rw [ofList_unmarked h, ← Hex.decode_eq_ok_iff, ← Bytes.isZero_eq_false_iff]
  cases hdecode : Hex.decode digits with
  | error fault => simp
  | ok bs =>
    simp only [ofBytes_eq_ok_iff, Except.ok.injEq]
    constructor
    · rintro ⟨rfl, hzero⟩
      exact ⟨rfl, hzero⟩
    · rintro ⟨rfl, hzero⟩
      exact ⟨rfl, hzero⟩

/-- **A text is refused for its reason.** -/
theorem ofHex_eq_error_iff (h : Unmarks text digits) :
    ofHex text = .error fault ↔ TextRefused digits fault := by
  unfold ofHex
  rw [ofList_unmarked h]
  cases hdecode : Hex.decode digits with
  | error reason =>
    have hreason := Hex.decode_eq_error_iff.1 hdecode
    -- a text that is refused has not the digits that the other reasons take
    have hnot : ∀ {n : Nat}, digits.length = 2 * n → ¬ ∀ c ∈ digits.toList, Hex.IsDigit c := by
      intro n hcount hall
      obtain ⟨bs, hbs, -⟩ := Hex.exists_denotes_iff.2 ⟨hcount, hall⟩
      exact absurd (hdecode.symm.trans (Hex.decode_eq_ok_iff.2 hbs)) (by simp)
    constructor
    · intro hfault
      obtain rfl := Except.error.inj hfault
      exact .text hreason
    · intro hrefused
      cases hrefused with
      | text refused =>
        exact congrArg (fun r => Except.error (CryptoFault.keyText r))
          (Except.error.inj (hdecode.symm.trans (Hex.decode_eq_error_iff.2 refused)))
      | length count all wrong => exact absurd all (hnot count)
      | zeros count zeros =>
        exact absurd (fun c hc => zeros c hc ▸ by decide) (hnot (n := 32) count)
  | ok bs =>
    have hbs := Hex.decode_eq_ok_iff.1 hdecode
    obtain ⟨hcount, hall⟩ := Hex.exists_denotes_iff.1 ⟨bs, hbs, rfl⟩
    rw [ofBytes_eq_error_iff]
    constructor
    · rintro ⟨reason, hrefused, rfl⟩
      cases hrefused with
      | length wrong => exact .length hcount hall wrong
      | zeros length zeros =>
        exact .zeros (by omega) (hbs.forall_zero_iff.1 zeros)
    · intro hrefused
      cases hrefused with
      | text refused =>
        exact absurd (hdecode.symm.trans (Hex.decode_eq_error_iff.2 refused)) (by simp)
      | @length n count all wrong =>
        obtain rfl : n = bs.length := by omega
        exact ⟨_, .length wrong, rfl⟩
      | zeros count zeros => exact ⟨_, .zeros (by omega) (hbs.forall_zero_iff.2 zeros), rfl⟩

/-- What is written carries no mark. -/
theorem unmarks_toHex (key : PublicKey) : Unmarks key.toHex key.toHex := by
  refine Or.inr ⟨rfl, fun rest h => ?_⟩
  have hx : 'x' ∈ key.toHex.toList := by
    rw [h, String.toList_append]
    exact List.mem_append_left _ (by decide)
  obtain ⟨n, -, hn⟩ := (Hex.denotes_encode key.toBytes).exists_of_mem_left hx
  exact absurd (Hex.isDigit_iff.2 ⟨n, hn⟩) (by decide)

end PublicKey

/-- **The hex texts of identifiers and public keys.** An identifier is read from 32 hex digits of
either case, and a public key from 64 of them that are not all `0`, behind at most one mark `0x`; what
is read is written as these digits in lower case, and what is written reads back. Any other text is
refused for the first check that it does not pass, in the order of `Hex.Refused` and, for keys,
`PublicKey.TextRefused`. -/
theorem hex_forms_exact :
    (∀ text, (∃ id, Id.ofHex text = .ok id) ↔
      text.length = 32 ∧ ∀ c ∈ text.toList, Hex.IsDigit c) ∧
    (∀ text id, Id.ofHex text = .ok id → id.toHex = text.toLower) ∧
    (∀ id, Id.ofHex id.toHex = .ok id) ∧
    (∀ text fault, Id.ofHex text = .error fault ↔ Hex.Refused (· = 32) text fault) ∧
    (∀ text, ∃ digits, PublicKey.Unmarks text digits) ∧
    (∀ text digits, PublicKey.Unmarks text digits →
      ((∃ key, PublicKey.ofHex text = .ok key) ↔
        digits.length = 64 ∧ (∀ c ∈ digits.toList, Hex.IsDigit c) ∧ ∃ c ∈ digits.toList, c ≠ '0') ∧
      (∀ key, PublicKey.ofHex text = .ok key → key.toHex = digits.toLower) ∧
      (∀ fault, PublicKey.ofHex text = .error fault ↔ PublicKey.TextRefused digits fault)) ∧
    (∀ key : PublicKey, (∃ b ∈ key.toBytes, b ≠ 0) →
      PublicKey.ofHex key.toHex = .ok key ∧ PublicKey.ofHex ("0x" ++ key.toHex) = .ok key) := by
  refine ⟨fun text => ?_, fun text id h => ?_, Id.ofHex_toHex, fun text fault => ?_,
    PublicKey.exists_unmarks, fun text digits hdigits => ⟨?_, fun key h => ?_, fun fault =>
      PublicKey.ofHex_eq_error_iff hdigits⟩, fun key hkey => ⟨?_, ?_⟩⟩
  · rw [← Hex.exists_denotes_iff (n := 16)]
    simp only [Id.ofHex_eq_ok_iff]
    constructor
    · rintro ⟨id, h⟩
      exact ⟨_, h, id.octets.length_toList⟩
    · rintro ⟨bs, h, hlen⟩
      obtain ⟨id, rfl⟩ := Id.exists_of_length hlen
      exact ⟨id, h⟩
  · exact (Id.ofHex_eq_ok_iff.1 h).encode_eq
  · rw [Id.ofHex_eq_error_iff]
  · simp only [PublicKey.ofHex_eq_ok_iff hdigits]
    constructor
    · rintro ⟨key, h, hkey⟩
      obtain ⟨hcount, hall⟩ := Hex.exists_denotes_iff.1 ⟨_, h, key.octets.length_toList⟩
      refine ⟨hcount, hall, ?_⟩
      by_contra! hzero
      obtain ⟨b, hb, hne⟩ := hkey
      exact hne (h.forall_zero_iff.2 hzero b hb)
    · rintro ⟨hcount, hall, c, hc, hne⟩
      obtain ⟨bs, h, hlen⟩ := (Hex.exists_denotes_iff (n := 32)).2 ⟨hcount, hall⟩
      refine ⟨⟨⟨bs, hlen⟩⟩, h, ?_⟩
      by_contra! hzero
      exact hne (h.forall_zero_iff.1 hzero c hc)
  · exact ((PublicKey.ofHex_eq_ok_iff hdigits).1 h).1.encode_eq
  · exact (PublicKey.ofHex_eq_ok_iff key.unmarks_toHex).2 ⟨Hex.denotes_encode _, hkey⟩
  · exact (PublicKey.ofHex_eq_ok_iff (Or.inl rfl)).2 ⟨Hex.denotes_encode _, hkey⟩

/-- A key that is read behind a mark, and the identifier without bits. -/
theorem hex_forms_exact_marked :
    let key : PublicKey := ⟨.fit 32 (List.replicate 32 0xAB)⟩
    let id : Id := ⟨.zero 16⟩
    PublicKey.ofHex ("0x" ++ key.toHex) = .ok key ∧ key.toHex = key.toHex.toLower ∧
      id.toHex = id.toHex.toLower := by
  intro key id
  obtain ⟨-, hid, hidBack, -, -, hkey, hkeyBack⟩ := hex_forms_exact
  have hnonzero : ∃ b ∈ key.toBytes, b ≠ 0 := ⟨0xAB, by decide, by decide⟩
  have hmarked := (hkeyBack key hnonzero).2
  exact ⟨hmarked, (hkey _ _ (Or.inl rfl)).2.1 key hmarked, hid _ id (hidBack id)⟩

end SealedMessaging
