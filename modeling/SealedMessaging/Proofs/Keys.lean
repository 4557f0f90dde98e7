import SealedMessaging.Key.Secret
import SealedMessaging.Key.Symmetric
import SealedMessaging.Proofs.Curve.Decoding
import SealedMessaging.Proofs.Sealing

/-!
# Byte strings that are keys

Every form that is read is the written form of what it is read as. Only the keys that are all zero
are not read again; a secret key never is, since its written form ends with its public key.

* `Id.ofBytes_eq_ok_iff`, `SymmetricKey.ofBytes_eq_ok_iff`, `PublicKey.ofBytes_eq_ok_iff`.
* `PublicKey.Refused`: why a byte string is no public key.
* `SecretKey.ofBytes_eq_ok_iff`: every secret key is read from its written form.
-/

namespace SealedMessaging

theorem Id.ofBytes_eq_ok_iff {bs : Bytes} {id : Id} :
    Id.ofBytes bs = .ok id ↔ id.octets.toList = bs := by
  unfold ofBytes
  rw [Except.map_eq_ok_iff]
  simp only [octetsOf_eq_ok_iff]
  constructor
  · rintro ⟨octets, hoctets, rfl⟩
    exact hoctets
  · intro h
    exact ⟨id.octets, h, rfl⟩

/-- A key that is octets in another form, read from bytes that are checked. -/
theorem checked_map_eq_ok_iff {n : Nat} {κ : Type} {wrap : Octets n → κ} {unwrap : κ → Octets n}
    (h : ∀ octets key, wrap octets = key ↔ octets = unwrap key) {what : Subject} {bs : Bytes}
    {key : κ} :
    checked ((nonzeroOctetsOf what n bs).map wrap) = .ok key ↔
      (unwrap key).toList = bs ∧ bs.isZero = false := by
  rw [checked_eq_ok_iff, Except.map_eq_ok_iff]
  simp only [nonzeroOctetsOf_eq_ok_iff, h]
  constructor
  · rintro ⟨octets, hoctets, rfl⟩
    exact hoctets
  · intro hkey
    exact ⟨_, hkey, rfl⟩

theorem SymmetricKey.ofBytes_eq_ok_iff {bs : Bytes} {key : SymmetricKey} :
    SymmetricKey.ofBytes bs = .ok key ↔ key.toBytes = bs ∧ bs.isZero = false :=
  checked_map_eq_ok_iff fun _ _ => ⟨congrArg octets, congrArg mk⟩

theorem PublicKey.ofBytes_eq_ok_iff {bs : Bytes} {key : PublicKey} :
    PublicKey.ofBytes bs = .ok key ↔ key.toBytes = bs ∧ bs.isZero = false :=
  checked_map_eq_ok_iff fun _ _ => ⟨congrArg octets, congrArg mk⟩

theorem Id.ofBytes_of_length_ne {bs : Bytes} (h : bs.length ≠ 16) :
    Id.ofBytes bs = .error (.wrongLength .id 16 bs.length) := by
  have hoctets : octetsOf .id 16 bs = .error (.wrongLength .id 16 bs.length) := dif_neg h
  unfold ofBytes
  rw [hoctets]
  rfl

/-- A byte string is that of an identifier, unless it has another length. -/
theorem Id.exists_of_length {bs : Bytes} (h : bs.length = 16) : ∃ id : Id, id.octets.toList = bs :=
  ⟨⟨⟨bs, h⟩⟩, rfl⟩

/-- **Why a byte string is no public key**: the length is looked at first. -/
inductive PublicKey.Refused (bs : Bytes) : InputFault → Prop where
  | length (wrong : bs.length ≠ 32) : Refused bs (.wrongLength .publicKey 32 bs.length)
  | zeros (length : bs.length = 32) (zeros : ∀ b ∈ bs, b = 0) : Refused bs (.allZero .publicKey)

theorem PublicKey.ofBytes_of_refused {bs : Bytes} {fault : InputFault} (h : Refused bs fault) :
    PublicKey.ofBytes bs = .error (.input fault) := by
  have hoctets : nonzeroOctetsOf .publicKey 32 bs = .error fault := by
    cases h with
    | length wrong => exact nonzeroOctetsOf_of_length_ne _ wrong
    | zeros length zeros => exact nonzeroOctetsOf_of_isZero _ length (Bytes.isZero_iff.2 zeros)
  unfold ofBytes
  rw [hoctets]
  rfl

/-- A byte string is that of a public key, unless there is a reason against it. -/
theorem PublicKey.exists_or_refused (bs : Bytes) :
    (∃ key : PublicKey, key.toBytes = bs ∧ ∃ b ∈ bs, b ≠ 0) ∨ ∃ fault, Refused bs fault := by
  by_cases hlen : bs.length = 32
  · cases hzero : bs.isZero with
    | false => exact Or.inl ⟨⟨⟨bs, hlen⟩⟩, rfl, Bytes.isZero_eq_false_iff.1 hzero⟩
    | true => exact Or.inr ⟨_, .zeros hlen (Bytes.isZero_iff.1 hzero)⟩
  · exact Or.inr ⟨_, .length hlen⟩

theorem PublicKey.ofBytes_eq_error_iff {bs : Bytes} {fault : CryptoFault} :
    PublicKey.ofBytes bs = .error fault ↔ ∃ reason, Refused bs reason ∧ fault = .input reason := by
  constructor
  · intro h
    rcases exists_or_refused bs with ⟨key, hkey, hnonzero⟩ | ⟨reason, hrefused⟩
    · have hok := ofBytes_eq_ok_iff.2 ⟨hkey, Bytes.isZero_eq_false_iff.2 hnonzero⟩
      exact absurd (hok.symm.trans h) (by simp)
    · exact ⟨reason, hrefused, Except.error.inj (h.symm.trans (ofBytes_of_refused hrefused))⟩
  · rintro ⟨reason, hrefused, rfl⟩
    exact ofBytes_of_refused hrefused

/-- Octets that are all zero. -/
theorem Octets.eq_zero_of_isZero {n : Nat} {octets : Octets n} (h : octets.toList.isZero = true) :
    octets = .zero n :=
  Octets.ext (List.eq_replicate_iff.2 ⟨octets.length_toList, Bytes.isZero_iff.1 h⟩)

namespace SecretKey

theorem length_toBytes (key : SecretKey) : key.toBytes.length = 64 := by
  unfold toBytes PublicKey.toBytes
  rw [List.length_append, Octets.length_toList, Octets.length_toList]

/-- A seed and its public key are not both zero. -/
theorem isZero_toBytes (key : SecretKey) : key.toBytes.isZero = false := by
  rw [Bool.eq_false_iff]
  intro h
  obtain ⟨hseed, hpublic⟩ : key.seed.toList.isZero = true ∧
      (Signature.publicOf key.seed).toList.isZero = true := by
    unfold toBytes Bytes.isZero at h
    rw [List.all_append, Bool.and_eq_true] at h
    exact h
  have hkey := Octets.eq_zero_of_isZero hpublic
  rw [Octets.eq_zero_of_isZero hseed] at hkey
  exact Signature.publicOf_zero_ne hkey

/-- **A secret key is read from its written form**, and from no other. -/
theorem ofBytes_eq_ok_iff {bs : Bytes} {key : SecretKey} :
    SecretKey.ofBytes bs = .ok key ↔ key.toBytes = bs := by
  unfold ofBytes
  simp only [Except.bind_eq_ok_iff, checked_eq_ok_iff, nonzeroOctetsOf_eq_ok_iff]
  constructor
  · rintro ⟨pair, ⟨rfl, -⟩, h⟩
    have hlen := pair.length_toList
    split at h
    · exact absurd h (by simp)
    split at h
    · rename_i hgiven
      obtain rfl := Except.ok.inj h
      have hsecond : (pair.toList.drop 32).length = 32 := by rw [List.length_drop, hlen]
      unfold toBytes PublicKey.toBytes
      rw [← hgiven, Octets.toList_fit_take (by omega), Octets.toList_fit hsecond,
        List.take_append_drop]
    · exact absurd h (by simp)
  · rintro rfl
    refine ⟨⟨key.toBytes, key.length_toBytes⟩, ⟨rfl, key.isZero_toBytes⟩, ?_⟩
    have hseed : Octets.fit 32 (key.toBytes.take 32) = key.seed :=
      Octets.fit_take_append key.seed key.publicKey.toBytes
    have hpublic : Octets.fit 32 (key.toBytes.drop 32) = key.publicKey.octets := by
      unfold toBytes
      rw [Octets.drop_append_toList]
      exact Octets.fit_toList _
    -- the public key of a seed is always a point
    have hdecodes : (Point.decode? key.publicKey.octets).isNone = false := by
      rw [← Option.not_isSome]
      exact congrArg (!·) (Signature.isSome_decode?_publicOf key.seed)
    simp only [hseed, hpublic, hdecodes, Bool.false_eq_true, if_false, if_true]

theorem toBytes_inj {a b : SecretKey} : a.toBytes = b.toBytes ↔ a = b := by
  refine ⟨fun h => ?_, congrArg toBytes⟩
  have ha := ofBytes_eq_ok_iff.2 h
  have hb := ofBytes_eq_ok_iff.2 (rfl : b.toBytes = b.toBytes)
  exact Except.ok.inj (ha.symm.trans hb)

end SecretKey

end SealedMessaging
