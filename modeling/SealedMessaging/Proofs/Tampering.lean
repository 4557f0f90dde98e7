import SealedMessaging.Proofs.Cipher.Aes
import SealedMessaging.Proofs.Cipher.Siv
import SealedMessaging.Proofs.Frame

/-!
# Altered strings do not open

Without any assumption on the strength of the cipher, two kinds of alteration are always found out,
because the cipher is a permutation of blocks. One changes a sealed string in a single place: within
an aligned block of the ciphertext, or in the two bits of the tag that the counter ignores. The other
puts a frame under another time stamp. For the second a plaintext whose last block is not whole, and
not its only one, is an exception: there the mask of the time stamp goes over two blocks.

* `Tampered`: alterations in one place.
* `local_tampering_detected`: they are found out, in sealed strings and in frames.
* `Frame.stamp_bound`: a frame does not open under another time stamp, unless two messages that are
  given explicitly have the same tag.
-/

namespace SealedMessaging

theorem sealingCipher_injective (k : Octets 32) : Function.Injective (sealingCipher k) :=
  Aes.encryptWith_injective (Aes.roundKeys k)

/-! ## Alterations in one place -/

/-- Two strings differ at most within one aligned block of the ciphertext after the tag. -/
def WithinBlock (sealed altered : Bytes) : Prop :=
  ∃ i, AgreeOutside (16 + 16 * i) (16 + (16 * i + 16)) sealed altered

/-- Two strings differ at most in the top bits of bytes 8 and 12. -/
def WithinIgnoredBits (sealed altered : Bytes) : Prop :=
  ∀ n, if n = 8 ∨ n = 12 then sealed[n]?.map (· &&& 0x7f) = altered[n]?.map (· &&& 0x7f)
    else sealed[n]? = altered[n]?

/-- **A sealed string altered in one place**: within one block of its ciphertext, or in the bits of
its tag that the counter ignores. -/
structure Tampered (sealed altered : Bytes) : Prop where
  ne : altered ≠ sealed
  length_eq : altered.length = sealed.length
  place : WithinBlock sealed altered ∨ WithinIgnoredBits sealed altered

/-- **Flipping bits of one byte of the ciphertext** is an alteration in one place. -/
theorem tampered_flip {sealed : Bytes} {n : Nat} (htag : 16 ≤ n) (hn : n < sealed.length)
    {bits : UInt8} (hbits : bits ≠ 0) : Tampered sealed (sealed.modify n (· ^^^ bits)) := by
  refine ⟨Bytes.modify_xor_ne hn hbits, List.length_modify _ _ _,
    Or.inl ⟨(n - 16) / 16, fun m hm => ?_⟩⟩
  have hmn : n ≠ m := by omega
  exact (List.getElem?_modify_ne _ sealed hmn).symm

/-- So is flipping the top bit of byte 8 of the tag. -/
theorem tampered_flip_ignored {sealed : Bytes} (hlen : 8 < sealed.length) :
    Tampered sealed (sealed.modify 8 (· ^^^ 0x80)) := by
  refine ⟨Bytes.modify_xor_ne hlen (by decide), List.length_modify _ _ _, Or.inr fun n => ?_⟩
  by_cases hn : n = 8
  · subst hn
    have hmasked : ∀ b : UInt8, (b ^^^ 0x80) &&& 0x7f = b &&& 0x7f := by
      intro b
      rw [Aes.xor_and]
      exact UInt8.xor_zero
    rw [if_pos (Or.inl rfl), List.getElem?_modify_eq, List.getElem?_eq_getElem hlen]
    exact congrArg some (hmasked _).symm
  · rw [List.getElem?_modify_ne _ _ (Ne.symm hn)]
    split <;> rfl

/-- Behind tags that agree, ciphertexts agree where the whole strings do. -/
theorem AgreeOutside.of_append {t t' : Block} {a b : Bytes} {first last : Nat}
    (h : AgreeOutside (16 + first) (16 + last) (t.toList ++ a) (t'.toList ++ b)) :
    t = t' ∧ AgreeOutside first last a b := by
  constructor
  · refine Octets.ext_get fun i => ?_
    have hi := h i.val (Or.inl (by omega))
    rw [Octets.getElem?_append, Octets.getElem?_append] at hi
    exact Option.some.inj hi
  · intro n hn
    have hbytes := h (16 + n) (by omega)
    rwa [List.getElem?_append_right (by rw [t.length_toList]; omega),
      List.getElem?_append_right (by rw [t'.length_toList]; omega), t.length_toList,
      t'.length_toList, Nat.add_sub_cancel_left] at hbytes

/-- Where tags differ in the ignored bits alone, the counter starts alike and the ciphertexts agree. -/
theorem WithinIgnoredBits.of_append {t t' : Block} {a b : Bytes}
    (h : WithinIgnoredBits (t.toList ++ a) (t'.toList ++ b)) :
    Siv.firstCounter t = Siv.firstCounter t' ∧ a = b := by
  constructor
  · refine Octets.ext_get fun i => ?_
    have hi := h i.val
    unfold Siv.firstCounter
    rw [Octets.getElem?_append, Octets.getElem?_append] at hi
    rw [Octets.get_ofFn, Octets.get_ofFn]
    split at hi
    · rw [if_pos ‹_›, if_pos ‹_›]
      exact Option.some.inj hi
    · rw [if_neg ‹_›, if_neg ‹_›]
      exact Option.some.inj hi
  · refine List.ext_getElem? fun n => ?_
    have hbytes := h (16 + n)
    rw [if_neg (by omega)] at hbytes
    rwa [List.getElem?_append_right (by rw [t.length_toList]; omega),
      List.getElem?_append_right (by rw [t'.length_toList]; omega), t.length_toList,
      t'.length_toList, Nat.add_sub_cancel_left] at hbytes

/-- **What is altered in one place is not decrypted**, over any permutation. -/
theorem Siv.decrypt_eq_none_of_tampered {E : Block → Block} (hE : Function.Injective E)
    {header plaintext altered : Bytes} (h : Tampered (encrypt E header plaintext) altered) :
    decrypt E header altered = none := by
  obtain ⟨hne, hlen, hplace⟩ := h
  rw [length_encrypt] at hlen
  obtain ⟨t', b, rfl⟩ : ∃ (t' : Block) (b : Bytes), t'.toList ++ b = altered :=
    Octets.exists_append (by omega)
  have hsealed : encrypt E header plaintext =
      (tag E header plaintext).toList ++ applyKeystream E (tag E header plaintext) plaintext := rfl
  rw [hsealed] at hne hplace
  have hfound := applyKeystream_applyKeystream E (tag E header plaintext) plaintext
  generalize htag : tag E header plaintext = t at hne hplace hfound
  generalize hcipher : applyKeystream E t plaintext = a at hne hplace hfound
  rw [decrypt_append, if_neg]
  intro haccepted
  rcases hplace with ⟨i, hagree⟩ | hignored
  · -- the tag is the old one, so two plaintexts that differ in one block have the same tag
    obtain ⟨rfl, hcipher'⟩ := hagree.of_append
    have hablen : a.length = b.length := by
      rw [← hcipher, length_applyKeystream]
      rw [List.length_append, t.length_toList] at hlen
      omega
    have hpq := agreeOutside_applyKeystream (E := E) hablen hcipher' t
    have hlen' : (applyKeystream E t a).length = (applyKeystream E t b).length := by
      rw [length_applyKeystream, length_applyKeystream, hablen]
    rw [hfound] at hpq hlen'
    have hplain := tag_inj_of_agreeOutside hE hlen' hpq (htag.trans haccepted.symm)
    have hab : a = b := applyKeystream_injective t (hfound.trans hplain)
    exact hne (by rw [hab])
  · -- the plaintext found is the old one, and its tag is not the one in front
    obtain ⟨hcounter, rfl⟩ := hignored.of_append
    rw [← applyKeystream_eq_of_firstCounter hcounter, hfound, htag] at haccepted
    exact hne (by rw [haccepted])

/-! ## Sealed strings and frames -/

theorem unsealBytes_of_tampered {key associated plaintext sealed altered : Bytes}
    (hseal : sealBytes key associated plaintext = .ok sealed) (h : Tampered sealed altered) :
    unsealBytes key associated altered = .error .unauthentic := by
  obtain ⟨k, hk, rfl⟩ := sealBytes_eq_ok_iff.1 hseal
  have hlen : ¬ altered.length < tagLength := by
    have hlength := h.length_eq
    rw [Siv.length_encrypt] at hlength
    unfold tagLength
    omega
  rw [unsealBytes_of_key hk, if_neg hlen,
    Siv.decrypt_eq_none_of_tampered (sealingCipher_injective k) h]

/-- **What is altered in one place does not open.** Under every key that passes its check, what is
sealed and then altered within one aligned block of its ciphertext, or in the top bits of the bytes 8
and 12 of its tag, is unauthentic; flipping bits of one byte of the ciphertext is such an alteration.
So is a frame altered so, as long as its time stamp is in the window; the frame of an empty plaintext
is refused for its length as it stands. -/
theorem local_tampering_detected (key : Bytes) (hlength : key.length = 32)
    (hnonzero : ∃ b ∈ key, b ≠ 0) (plaintext : Bytes) :
    (∀ associated, ∃ sealed, sealBytes key associated plaintext = .ok sealed ∧
      (∀ altered, Tampered sealed altered →
        unsealBytes key associated altered = .error .unauthentic) ∧
      ∀ (n : Nat) (bits : UInt8), 16 ≤ n → n < sealed.length → bits ≠ 0 →
        Tampered sealed (sealed.modify n (· ^^^ bits))) ∧
    ∀ stamp : UInt64, ∃ sealed,
      Frame.protectAt plaintext key stamp = .ok (Frame.stampBytes stamp ++ sealed) ∧
      ∀ altered now, Tampered sealed altered → Fresh stamp now (600 * 1000000000) →
        (Frame.unprotect now (Frame.stampBytes stamp ++ altered) key).outcome =
          .error (if plaintext = [] then .tooShort 24 25 else .unauthentic) := by
  have hseals := fun associated => (exists_sealBytes_iff key associated plaintext).2
    ⟨hlength, Bytes.isZero_eq_false_iff.2 hnonzero⟩
  constructor
  · intro associated
    obtain ⟨sealed, hseal⟩ := hseals associated
    exact ⟨sealed, hseal, fun altered h => unsealBytes_of_tampered hseal h,
      fun n bits htag hn hbits => tampered_flip htag hn hbits⟩
  · intro stamp
    obtain ⟨sealed, hseal⟩ := hseals (Frame.stampBytes stamp)
    refine ⟨sealed, Frame.protectAt_eq_ok_iff.2 ⟨sealed, hseal, rfl⟩, fun altered now h hfresh => ?_⟩
    have hlen := h.length_eq.trans (length_of_sealBytes hseal)
    by_cases hempty : plaintext = []
    · have hframe : (Frame.stampBytes stamp ++ altered).length = 24 := by
        rw [List.length_append, Frame.length_stampBytes, hlen, hempty]
        rfl
      rw [Frame.unprotect_of_short (by rw [hframe]; decide), if_pos hempty, hframe]
      rfl
    · have hlong : 16 < altered.length := by
        have hpos := List.length_pos_iff.2 hempty
        unfold tagLength at hlen
        omega
      rw [Frame.outcome_unprotect_append hlong hfresh, if_neg hempty]
      exact unsealBytes_of_tampered hseal h

/-- A byte under a key of ones, with the first bit of its ciphertext flipped. -/
theorem local_tampering_detected_bit :
    ∃ sealed, sealBytes (List.replicate 32 1) [] [7] = .ok sealed ∧
      unsealBytes (List.replicate 32 1) [] (sealed.modify 16 (· ^^^ 1)) = .error .unauthentic := by
  obtain ⟨hsealed, -⟩ := local_tampering_detected (List.replicate 32 1) rfl ⟨1, by decide⟩ [7]
  obtain ⟨sealed, hseal, hdetected, hflip⟩ := hsealed []
  have hlen : 16 < sealed.length := by
    rw [length_of_sealBytes hseal]
    decide
  exact ⟨sealed, hseal, hdetected _ (hflip 16 1 (Nat.le_refl 16) hlen (by decide))⟩

/-- **The altered frame of an empty plaintext is too short**: its length is looked at first. Here the
frame is made at the epoch under a key of ones, and the top bit of byte 8 of its tag is flipped. -/
theorem tampered_empty_frame :
    ∃ sealed,
      Frame.protectAt [] (List.replicate 32 1) 0 = .ok (Frame.stampBytes 0 ++ sealed) ∧
      Tampered sealed (sealed.modify 8 (· ^^^ 0x80)) ∧ Fresh 0 .epoch (600 * 1000000000) ∧
      (Frame.unprotect .epoch (Frame.stampBytes 0 ++ sealed.modify 8 (· ^^^ 0x80))
        (List.replicate 32 1)).outcome = .error (.tooShort 24 25) := by
  obtain ⟨sealed, hseal⟩ :=
    (exists_sealBytes_iff (List.replicate 32 1) (Frame.stampBytes 0) []).2 ⟨rfl, by decide⟩
  have hlen : sealed.length = 16 := length_of_sealBytes hseal
  have hframe : (Frame.stampBytes 0 ++ sealed.modify 8 (· ^^^ 0x80)).length = 24 := by
    rw [List.length_append, List.length_modify, hlen]
    rfl
  refine ⟨sealed, Frame.protectAt_eq_ok_iff.2 ⟨sealed, hseal, rfl⟩,
    tampered_flip_ignored (by omega), by decide, ?_⟩
  rw [Frame.unprotect_of_short (by rw [hframe]; decide), hframe]
  rfl

/-! ## Replaced time stamps -/

/-- What is sealed with one header opens under another one if the tags are the same. -/
theorem unsealBytes_encrypt {key : Bytes} {k : Octets 32}
    (hk : nonzeroOctetsOf .symmetricKey 32 key = .ok k) (header header' plaintext : Bytes) :
    unsealBytes key header' (Siv.encrypt (sealingCipher k) header plaintext) =
      if Siv.tag (sealingCipher k) header' plaintext = Siv.tag (sealingCipher k) header plaintext
      then .ok plaintext
      else .error .unauthentic := by
  have hlen : ¬ (Siv.encrypt (sealingCipher k) header plaintext).length < tagLength := by
    rw [Siv.length_encrypt]
    unfold tagLength
    omega
  have hsealed : Siv.encrypt (sealingCipher k) header plaintext =
      (Siv.tag (sealingCipher k) header plaintext).toList ++
        Siv.applyKeystream (sealingCipher k) (Siv.tag (sealingCipher k) header plaintext)
          plaintext := rfl
  rw [unsealBytes_of_key hk, if_neg hlen, hsealed, Siv.decrypt_append,
    Siv.applyKeystream_applyKeystream]
  by_cases htag : Siv.tag (sealingCipher k) header' plaintext =
      Siv.tag (sealingCipher k) header plaintext
  · rw [if_pos htag, if_pos htag]
  · rw [if_neg htag, if_neg htag]

namespace Frame

section Restamped

variable {key payload : Bytes} {k : Octets 32} {stamp stamp' : UInt64} {now : Instant}

/-- A frame under another time stamp opens if the two stamps give the same tag. -/
theorem outcome_unprotect_restamped (hk : nonzeroOctetsOf .symmetricKey 32 key = .ok k)
    (hpayload : payload ≠ []) (hfresh : Fresh stamp' now (600 * 1000000000)) {frame : Bytes}
    (hframe : protectAt payload key stamp = .ok frame) :
    (unprotect now (stampBytes stamp' ++ frame.drop 8) key).outcome =
      if Siv.tag (sealingCipher k) (stampBytes stamp') payload =
          Siv.tag (sealingCipher k) (stampBytes stamp) payload
      then .ok payload
      else .error .unauthentic := by
  obtain ⟨sealed, hseal, rfl⟩ := protectAt_eq_ok_iff.1 hframe
  obtain ⟨k', hk', rfl⟩ := sealBytes_eq_ok_iff.1 hseal
  obtain rfl : k = k' := Except.ok.inj (hk.symm.trans hk')
  have hdrop : (stampBytes stamp ++ Siv.encrypt (sealingCipher k) (stampBytes stamp) payload).drop 8 =
      Siv.encrypt (sealingCipher k) (stampBytes stamp) payload :=
    List.drop_left' (length_stampBytes stamp)
  have hlong : 16 < (Siv.encrypt (sealingCipher k) (stampBytes stamp) payload).length := by
    have hpos := List.length_pos_iff.2 hpayload
    rw [Siv.length_encrypt]
    omega
  rw [hdrop, outcome_unprotect_append hlong hfresh, unsealBytes_encrypt hk]

/-- Two stamps never give the same tag for a payload of fewer than 16 bytes or of whole blocks. -/
theorem tag_stampBytes_inj (hblocks : payload.length < 16 ∨ 16 ∣ payload.length)
    (h : Siv.tag (sealingCipher k) (stampBytes stamp') payload =
      Siv.tag (sealingCipher k) (stampBytes stamp) payload) : stamp' = stamp := by
  have hlen : (stampBytes stamp').length = (stampBytes stamp).length := by
    rw [length_stampBytes, length_stampBytes]
  have hshort : (stampBytes stamp').length ≤ 16 := by
    rw [length_stampBytes]
    decide
  exact stampBytes_injective
    (Siv.tag_header_inj (sealingCipher_injective k) hlen hshort hblocks h)

end Restamped

/-- **A time stamp is bound to its frame.** Under every key that passes its check, the frame of a
payload that is not empty, put under another time stamp, is unauthentic as long as the new stamp is in
the window, if the payload has fewer than 16 bytes or whole blocks. If a payload of another length
comes through, then two different messages of its length, the payload with the masks of the two stamps
over its end, have the same tag. -/
theorem stamp_bound (key : Bytes) (hlength : key.length = 32) (hnonzero : ∃ b ∈ key, b ≠ 0)
    (payload : Bytes) (hpayload : payload ≠ []) (stamp stamp' : UInt64) (hne : stamp' ≠ stamp)
    (now : Instant) (hfresh : Fresh stamp' now (600 * 1000000000)) :
    ∃ (k : Octets 32) (frame : Bytes), k.toList = key ∧
      protectAt payload key stamp = .ok frame ∧
      (payload.length < 16 ∨ 16 ∣ payload.length →
        (unprotect now (stampBytes stamp' ++ frame.drop 8) key).outcome = .error .unauthentic) ∧
      ((unprotect now (stampBytes stamp' ++ frame.drop 8) key).outcome = .error .unauthentic ∨
        (unprotect now (stampBytes stamp' ++ frame.drop 8) key).outcome = .ok payload ∧
          Siv.masked (sealingCipher k) (stampBytes stamp) payload ≠
            Siv.masked (sealingCipher k) (stampBytes stamp') payload ∧
          (Siv.masked (sealingCipher k) (stampBytes stamp) payload).length =
            (Siv.masked (sealingCipher k) (stampBytes stamp') payload).length ∧
          cmac (sealingCipher k) (Siv.masked (sealingCipher k) (stampBytes stamp) payload) =
            cmac (sealingCipher k) (Siv.masked (sealingCipher k) (stampBytes stamp') payload)) := by
  have hkey : key.length = 32 ∧ key.isZero = false :=
    ⟨hlength, Bytes.isZero_eq_false_iff.2 hnonzero⟩
  obtain ⟨k, hk⟩ := (exists_nonzeroOctetsOf_iff .symmetricKey 32 key).2 hkey
  obtain ⟨frame, hframe⟩ := (exists_protectAt_iff payload key stamp).2 hkey
  have houtcome := outcome_unprotect_restamped hk hpayload hfresh hframe
  refine ⟨k, frame, (nonzeroOctetsOf_eq_ok_iff.1 hk).1, hframe, fun hblocks => ?_, ?_⟩
  · rw [houtcome, if_neg fun h => hne (tag_stampBytes_inj hblocks h)]
  · by_cases htag : Siv.tag (sealingCipher k) (stampBytes stamp') payload =
        Siv.tag (sealingCipher k) (stampBytes stamp) payload
    · -- only a long payload comes through, and its tag is that of the masked payload
      have hlong : 16 ≤ payload.length := by
        by_contra hless
        exact hne (tag_stampBytes_inj (Or.inl (by omega)) htag)
      refine Or.inr ⟨by rw [houtcome, if_pos htag], fun h => hne ?_, ?_, ?_⟩
      · exact (stampBytes_injective (Siv.masked_header_inj (sealingCipher_injective k)
          (by rw [length_stampBytes, length_stampBytes]) (by rw [length_stampBytes]; decide) hlong
          h)).symm
      · rw [Siv.length_masked hlong, Siv.length_masked hlong]
      · rw [← Siv.tag_of_long hlong, ← Siv.tag_of_long hlong, htag]
    · exact Or.inl (by rw [houtcome, if_neg htag])

/-- A byte sealed at the epoch, put under the stamp of the second after it. -/
theorem stamp_bound_byte :
    ∃ frame, protectAt [7] (List.replicate 32 1) 0 = .ok frame ∧
      (unprotect { Instant.epoch with seconds := 1 } (stampBytes 1 ++ frame.drop 8)
        (List.replicate 32 1)).outcome = .error .unauthentic := by
  obtain ⟨-, frame, -, hframe, hrefused, -⟩ := stamp_bound (List.replicate 32 1) rfl
    ⟨1, by decide⟩ [7] (by decide) 0 1 (by decide) { Instant.epoch with seconds := 1 } (by decide)
  exact ⟨frame, hframe, hrefused (by decide)⟩

end Frame

end SealedMessaging
