import SealedMessaging.Proofs.Bytes
import SealedMessaging.Proofs.Outcome
import SealedMessaging.Sealing

/-!
# Opening undoes sealing, and opens nothing else

The keystream of a tag is as long as what it is combined with, so combining with it is its own
inverse. Decryption computes the tag of what it finds and compares it with the tag in front; the two
agree exactly for what encryption writes.

* `Siv.decrypt_eq_some_iff`: decryption and encryption are inverse relations.
* `sealBytes_eq_ok_iff`: when sealing succeeds, and with what.
* `unsealBytes_eq_ok_iff_seal`: opening and sealing are inverse relations, for every key.
* `unsealBytes_eq_unauthentic_iff`: what no plaintext seals to is unauthentic.
* `sealing_opening_inverse`: the two together, with all the ways in which they fail.
-/

namespace SealedMessaging

namespace Siv

variable (E : Block → Block)

/-- Blocks one after the other take sixteen bytes each. -/
theorem length_flatMap_blocks {α : Type} (f : α → Block) (xs : List α) :
    (xs.flatMap fun x => (f x).toList).length = 16 * xs.length := by
  induction xs with
  | nil => rfl
  | cons x xs ih => rw [List.flatMap_cons, List.length_append, ih, (f x).length_toList,
      List.length_cons]; omega

theorem length_keystream (t : Block) (length : Nat) :
    (keystream E t length).length = 16 * ((length + 15) / 16) := by
  unfold keystream
  rw [length_flatMap_blocks (fun n => E (counter t n)), List.length_range]

theorem length_applyKeystream (t : Block) (bs : Bytes) :
    (applyKeystream E t bs).length = bs.length := by
  unfold applyKeystream
  rw [Bytes.length_xor, length_keystream]
  omega

/-- **Combining with the keystream of a tag is its own inverse.** -/
theorem applyKeystream_applyKeystream (t : Block) (bs : Bytes) :
    applyKeystream E t (applyKeystream E t bs) = bs := by
  have hlen : bs.length ≤ (keystream E t bs.length).length := by rw [length_keystream]; omega
  have hinner := length_applyKeystream E t bs
  unfold applyKeystream at hinner ⊢
  rw [hinner, Bytes.xor_xor_cancel hlen]

theorem length_encrypt (header plaintext : Bytes) :
    (encrypt E header plaintext).length = plaintext.length + 16 := by
  unfold encrypt
  rw [List.length_append, length_applyKeystream, Octets.length_toList]
  omega

theorem decrypt_encrypt (header plaintext : Bytes) :
    decrypt E header (encrypt E header plaintext) = some plaintext := by
  unfold decrypt encrypt
  simp only [Octets.fit_take_append, Octets.drop_append_toList, applyKeystream_applyKeystream,
    if_true]

/-- What decryption accepts is what encryption writes. -/
theorem encrypt_of_decrypt {header sealed plaintext : Bytes} (hlen : 16 ≤ sealed.length)
    (h : decrypt E header sealed = some plaintext) : encrypt E header plaintext = sealed := by
  simp only [decrypt] at h
  split at h
  · rename_i htag
    have hp := Option.some.inj h
    rw [← hp]
    simp only [encrypt, htag]
    rw [applyKeystream_applyKeystream, Octets.toList_fit_take hlen, List.take_append_drop]
  · exact absurd h (by simp)

/-- **Decryption and encryption are inverse relations**, on strings that can hold a tag. -/
theorem decrypt_eq_some_iff {header sealed plaintext : Bytes} (hlen : 16 ≤ sealed.length) :
    decrypt E header sealed = some plaintext ↔ encrypt E header plaintext = sealed :=
  ⟨encrypt_of_decrypt E hlen, fun h => h ▸ decrypt_encrypt E header plaintext⟩

end Siv

/-! ## Checked keys -/

theorem checked_eq_ok_iff {α : Type} {result : Except InputFault α} {a : α} :
    checked result = .ok a ↔ result = .ok a :=
  Except.mapError_eq_ok_iff

theorem octetsOf_eq_ok_iff {what : Subject} {n : Nat} {bs : Bytes} {octets : Octets n} :
    octetsOf what n bs = .ok octets ↔ octets.toList = bs := by
  unfold octetsOf
  split
  · rename_i h
    exact ⟨fun he => by rw [← Except.ok.inj he], fun he => congrArg Except.ok (Octets.ext he.symm)⟩
  · rename_i h
    refine ⟨fun he => absurd he (by simp), fun he => absurd ?_ h⟩
    rw [← he, octets.length_toList]

/-- **A checked string passes as it is**, if it has the right length and is not zero. -/
theorem nonzeroOctetsOf_eq_ok_iff {what : Subject} {n : Nat} {bs : Bytes} {octets : Octets n} :
    nonzeroOctetsOf what n bs = .ok octets ↔ octets.toList = bs ∧ bs.isZero = false := by
  unfold nonzeroOctetsOf
  rw [Except.bind_eq_ok_iff]
  constructor
  · rintro ⟨a, ha, h⟩
    split at h
    · exact absurd h (by simp)
    · rename_i hzero
      rw [← Except.ok.inj h]
      exact ⟨octetsOf_eq_ok_iff.1 ha, by simpa using hzero⟩
  · rintro ⟨hbytes, hzero⟩
    exact ⟨octets, octetsOf_eq_ok_iff.2 hbytes, by simp [hzero]⟩

/-- A string passes the check of octets that are not zero. -/
theorem exists_nonzeroOctetsOf_iff (what : Subject) (n : Nat) (bs : Bytes) :
    (∃ octets : Octets n, nonzeroOctetsOf what n bs = .ok octets) ↔
      bs.length = n ∧ bs.isZero = false := by
  constructor
  · rintro ⟨octets, h⟩
    obtain ⟨hbytes, hzero⟩ := nonzeroOctetsOf_eq_ok_iff.1 h
    exact ⟨hbytes ▸ octets.length_toList, hzero⟩
  · rintro ⟨hlen, hzero⟩
    exact ⟨⟨bs, hlen⟩, nonzeroOctetsOf_eq_ok_iff.2 ⟨rfl, hzero⟩⟩

/-- A wrong length is found first. -/
theorem nonzeroOctetsOf_of_length_ne (what : Subject) {n : Nat} {bs : Bytes} (h : bs.length ≠ n) :
    nonzeroOctetsOf what n bs = .error (.wrongLength what n bs.length) := by
  have hoctets : octetsOf what n bs = .error (.wrongLength what n bs.length) := dif_neg h
  unfold nonzeroOctetsOf
  rw [hoctets]
  rfl

theorem nonzeroOctetsOf_of_isZero (what : Subject) {n : Nat} {bs : Bytes} (h : bs.length = n)
    (hzero : bs.isZero = true) : nonzeroOctetsOf what n bs = .error (.allZero what) := by
  have hoctets : octetsOf what n bs = .ok ⟨bs, h⟩ := dif_pos h
  unfold nonzeroOctetsOf
  rw [hoctets]
  show (if bs.isZero then _ else _) = _
  rw [if_pos hzero]

/-! ## Sealing and opening -/

theorem sealBytes_eq_ok_iff {key associated plaintext sealed : Bytes} :
    sealBytes key associated plaintext = .ok sealed ↔
      ∃ k : Octets 32, nonzeroOctetsOf .symmetricKey 32 key = .ok k ∧
        Siv.encrypt (sealingCipher k) associated plaintext = sealed := by
  unfold sealBytes
  simp only [Except.bind_eq_ok_iff, checked_eq_ok_iff, Except.pure_eq_ok_iff]

theorem unsealBytes_eq_ok_iff {key associated sealed plaintext : Bytes} :
    unsealBytes key associated sealed = .ok plaintext ↔
      ∃ k : Octets 32, nonzeroOctetsOf .symmetricKey 32 key = .ok k ∧ 16 ≤ sealed.length ∧
        Siv.decrypt (sealingCipher k) associated sealed = some plaintext := by
  unfold unsealBytes
  simp only [Except.bind_eq_ok_iff, checked_eq_ok_iff]
  refine exists_congr fun k => and_congr_right fun _ => ?_
  by_cases hlen : sealed.length < tagLength
  · have hshort : ¬ 16 ≤ sealed.length := Nat.not_le.2 hlen
    simp [hlen, hshort]
  · have hlong : 16 ≤ sealed.length := Nat.not_lt.1 hlen
    rw [if_neg hlen]
    cases Siv.decrypt (sealingCipher k) associated sealed <;> simp [hlong]

/-- **Opening and sealing are inverse relations**, for every key and all associated data. -/
theorem unsealBytes_eq_ok_iff_seal {key associated sealed plaintext : Bytes} :
    unsealBytes key associated sealed = .ok plaintext ↔
      sealBytes key associated plaintext = .ok sealed := by
  rw [unsealBytes_eq_ok_iff, sealBytes_eq_ok_iff]
  refine exists_congr fun k => and_congr_right fun _ => ?_
  constructor
  · rintro ⟨hlen, h⟩
    exact (Siv.decrypt_eq_some_iff _ hlen).1 h
  · intro h
    have hlen : 16 ≤ sealed.length := by rw [← h, Siv.length_encrypt]; omega
    exact ⟨hlen, (Siv.decrypt_eq_some_iff _ hlen).2 h⟩

/-- **Sealing succeeds for the keys that pass their check**, whatever is sealed. -/
theorem exists_sealBytes_iff (key associated plaintext : Bytes) :
    (∃ sealed, sealBytes key associated plaintext = .ok sealed) ↔
      key.length = 32 ∧ key.isZero = false := by
  rw [← exists_nonzeroOctetsOf_iff .symmetricKey]
  constructor
  · rintro ⟨sealed, h⟩
    obtain ⟨k, hk, -⟩ := sealBytes_eq_ok_iff.1 h
    exact ⟨k, hk⟩
  · rintro ⟨k, hk⟩
    exact ⟨_, sealBytes_eq_ok_iff.2 ⟨k, hk, rfl⟩⟩

/-- Under a key that passes its check, opening is decryption of what can hold a tag. -/
theorem unsealBytes_of_key {key : Bytes} {k : Octets 32}
    (hk : nonzeroOctetsOf .symmetricKey 32 key = .ok k) (associated sealed : Bytes) :
    unsealBytes key associated sealed =
      if sealed.length < tagLength then .error (.tooShort sealed.length tagLength)
      else match Siv.decrypt (sealingCipher k) associated sealed with
        | none => .error .unauthentic
        | some plaintext => .ok plaintext := by
  have hchecked : checked (nonzeroOctetsOf .symmetricKey 32 key) = .ok k := checked_eq_ok_iff.2 hk
  unfold unsealBytes
  rw [hchecked]
  rfl

/-- A key that does not pass its check is what opening fails for. -/
theorem unsealBytes_of_error {key : Bytes} {fault : InputFault}
    (hkey : nonzeroOctetsOf .symmetricKey 32 key = .error fault) (associated sealed : Bytes) :
    unsealBytes key associated sealed = .error (.input fault) := by
  unfold unsealBytes
  rw [hkey]
  rfl

/-- What can hold a tag opens under a key that passes its check, or is unauthentic. -/
theorem unsealBytes_cases {key associated sealed : Bytes}
    (hkey : key.length = 32 ∧ key.isZero = false) (hlen : tagLength ≤ sealed.length) :
    (∃ plaintext, unsealBytes key associated sealed = .ok plaintext) ∨
      unsealBytes key associated sealed = .error .unauthentic := by
  obtain ⟨k, hk⟩ := (exists_nonzeroOctetsOf_iff .symmetricKey 32 key).2 hkey
  rw [unsealBytes_of_key hk, if_neg (Nat.not_lt.2 hlen)]
  cases Siv.decrypt (sealingCipher k) associated sealed with
  | none => exact Or.inr rfl
  | some plaintext => exact Or.inl ⟨plaintext, rfl⟩

/-- **What can hold a tag is unauthentic exactly when nothing seals to it.** -/
theorem unsealBytes_eq_unauthentic_iff {key associated sealed : Bytes}
    (hkey : key.length = 32 ∧ key.isZero = false) (hlen : tagLength ≤ sealed.length) :
    unsealBytes key associated sealed = .error .unauthentic ↔
      ∀ plaintext, sealBytes key associated plaintext ≠ .ok sealed := by
  simp only [ne_eq, ← unsealBytes_eq_ok_iff_seal]
  rcases unsealBytes_cases hkey hlen with ⟨plaintext, hopen⟩ | hopen
  · rw [hopen]
    exact ⟨fun h => absurd h (by simp), fun h => absurd rfl (h plaintext)⟩
  · rw [hopen]
    exact ⟨fun _ _ => by simp, fun _ => rfl⟩

/-- A key that passes its check is not what opening fails for. -/
theorem unsealBytes_ne_input {key associated sealed : Bytes} (hkey : key.length = 32 ∧ key.isZero = false)
    (fault : InputFault) : unsealBytes key associated sealed ≠ .error (.input fault) := by
  obtain ⟨k, hk⟩ := (exists_nonzeroOctetsOf_iff .symmetricKey 32 key).2 hkey
  rw [unsealBytes_of_key hk]
  split
  · simp
  · cases Siv.decrypt (sealingCipher k) associated sealed <;> simp

/-- Opening looks at no clock. -/
theorem unsealBytes_ne_window (key associated sealed : Bytes) (fault : WindowFault) :
    unsealBytes key associated sealed ≠ .error (.window fault) := by
  cases hkey : nonzeroOctetsOf .symmetricKey 32 key with
  | error keyFault =>
    rw [unsealBytes_of_error hkey]
    simp
  | ok k =>
    rw [unsealBytes_of_key hkey]
    split
    · simp
    · cases Siv.decrypt (sealingCipher k) associated sealed <;> simp

theorem length_of_sealBytes {key associated plaintext sealed : Bytes}
    (h : sealBytes key associated plaintext = .ok sealed) :
    sealed.length = plaintext.length + tagLength := by
  obtain ⟨k, -, hs⟩ := sealBytes_eq_ok_iff.1 h
  rw [← hs, Siv.length_encrypt]
  rfl

/-- Under a key that passes its check, opening a string fails because it is too short for a tag or
because nothing seals to it. -/
theorem unsealBytes_eq_error_iff {key associated sealed : Bytes} {fault : CryptoFault}
    (hkey : key.length = 32 ∧ key.isZero = false) :
    unsealBytes key associated sealed = .error fault ↔
      (sealed.length < 16 ∧ fault = .tooShort sealed.length 16) ∨
        (16 ≤ sealed.length ∧ (∀ plaintext, sealBytes key associated plaintext ≠ .ok sealed) ∧
          fault = .unauthentic) := by
  obtain ⟨k, hk⟩ := (exists_nonzeroOctetsOf_iff .symmetricKey 32 key).2 hkey
  rcases Nat.lt_or_ge sealed.length tagLength with hlen | hlen
  · have hshort : sealed.length < 16 := hlen
    have hlong : ¬ 16 ≤ sealed.length := Nat.not_le.2 hlen
    rw [unsealBytes_of_key hk, if_pos hlen]
    simp [hshort, hlong, tagLength, eq_comm]
  · have hshort : ¬ sealed.length < 16 := Nat.not_lt.2 hlen
    have hlong : 16 ≤ sealed.length := hlen
    have hcases := @unsealBytes_cases key associated sealed hkey hlen
    rw [← unsealBytes_eq_unauthentic_iff hkey hlen]
    rcases hcases with ⟨plaintext, hopen⟩ | hopen
    · simp [hopen, hshort]
    · simp [hopen, hshort, hlong, eq_comm]

/-- **Sealing and opening are inverses of each other**, whatever the associated data. A string opens
to a plaintext if and only if the plaintext, which may be empty, seals to the string. Sealing succeeds
exactly for keys of 32 bytes that are not all zero and makes a string sixteen bytes longer. Under such
a key a string of less than sixteen bytes is too short to be opened, and what else does not open, which
is all that nothing seals to, is unauthentic. So under one key and with the same associated data
different plaintexts are sealed differently, and different strings never open to the same plaintext. -/
theorem sealing_opening_inverse (key associated : Bytes) :
    (∀ plaintext sealed, unsealBytes key associated sealed = .ok plaintext ↔
      sealBytes key associated plaintext = .ok sealed) ∧
    (∀ plaintext, ((∃ sealed, sealBytes key associated plaintext = .ok sealed) ↔
        key.length = 32 ∧ ∃ b ∈ key, b ≠ 0) ∧
      ∀ sealed, sealBytes key associated plaintext = .ok sealed →
        sealed.length = plaintext.length + 16) ∧
    (key.length = 32 ∧ (∃ b ∈ key, b ≠ 0) → ∀ sealed fault,
      (unsealBytes key associated sealed = .error fault ↔
        (sealed.length < 16 ∧ fault = .tooShort sealed.length 16) ∨
          (16 ≤ sealed.length ∧ (∀ plaintext, sealBytes key associated plaintext ≠ .ok sealed) ∧
            fault = .unauthentic))) ∧
    (∀ plaintext plaintext' sealed, sealBytes key associated plaintext = .ok sealed →
      sealBytes key associated plaintext' = .ok sealed → plaintext = plaintext') ∧
    ∀ sealed sealed' plaintext, unsealBytes key associated sealed = .ok plaintext →
      unsealBytes key associated sealed' = .ok plaintext → sealed = sealed' := by
  refine ⟨fun plaintext sealed => unsealBytes_eq_ok_iff_seal, fun plaintext => ⟨?_, ?_⟩, ?_, ?_, ?_⟩
  · rw [exists_sealBytes_iff, Bytes.isZero_eq_false_iff]
  · exact fun sealed => length_of_sealBytes
  · rintro ⟨hlen, hne⟩ sealed fault
    exact unsealBytes_eq_error_iff ⟨hlen, Bytes.isZero_eq_false_iff.2 hne⟩
  · -- both plaintexts are what the string opens to
    intro plaintext plaintext' sealed h h'
    have hopen := unsealBytes_eq_ok_iff_seal.2 h
    have hopen' := unsealBytes_eq_ok_iff_seal.2 h'
    exact Except.ok.inj (hopen.symm.trans hopen')
  · -- both strings are what the plaintext is sealed to
    intro sealed sealed' plaintext h h'
    have hseal := unsealBytes_eq_ok_iff_seal.1 h
    have hseal' := unsealBytes_eq_ok_iff_seal.1 h'
    exact Except.ok.inj (hseal.symm.trans hseal')

/-- The empty string, sealed with no associated data and opened again; a string of fifteen bytes, which
is too short. -/
theorem sealing_opening_inverse_empty :
    (∃ sealed, sealBytes (List.replicate 32 1) [] [] = .ok sealed ∧ sealed.length = 16 ∧
        unsealBytes (List.replicate 32 1) [] sealed = .ok []) ∧
      unsealBytes (List.replicate 32 1) [] (List.replicate 15 0) = .error (.tooShort 15 16) := by
  have hkey : (List.replicate 32 (1 : UInt8)).length = 32 ∧ ∃ b ∈ List.replicate 32 (1 : UInt8), b ≠ 0 :=
    ⟨rfl, 1, by decide⟩
  obtain ⟨hinverse, hseal, hfail, -, -⟩ := sealing_opening_inverse (List.replicate 32 1) []
  obtain ⟨sealed, hsealed⟩ := (hseal []).1.2 hkey
  refine ⟨⟨sealed, hsealed, (hseal []).2 sealed hsealed, (hinverse [] sealed).2 hsealed⟩, ?_⟩
  exact (hfail hkey (List.replicate 15 0) (.tooShort 15 16)).2 (Or.inl ⟨by decide, rfl⟩)

end SealedMessaging
