import SealedMessaging.Material
import SealedMessaging.Proofs.Frame

/-!
# Signed messages are accepted exactly when they are genuine

Opening a signed message reads two formats inside each other. The inner one is canonical like the
outer one: a byte string is read as a message exactly when it is the written form of that message.

* `SignedMessage.ofBytes_eq_ok_iff`: reading undoes writing, and reads nothing else.
* `SignerMaterial.outcome_unprotect_eq_ok_iff`: opening, as the steps it takes.
* `SignerMaterial.unprotect_iff_signed`: acceptance is exact.
-/

namespace SealedMessaging

namespace SignedMessage

theorem length_toBytes (m : SignedMessage) : m.toBytes.length = headerLength + m.payload.length := by
  unfold toBytes headerLength
  simp only [List.length_cons, List.length_append, Octets.length_toList]
  omega

theorem ofBytes_toBytes (m : SignedMessage) : ofBytes m.toBytes = .ok m := by
  have hlen : ¬ m.toBytes.length < headerLength := by rw [length_toBytes]; omega
  have hsigner := Octets.fit_take_append m.signer.octets (m.signature.toList ++ m.payload)
  have hrest := Octets.drop_append_toList m.signer.octets (m.signature.toList ++ m.payload)
  have hpayload : (m.signer.octets.toList ++ (m.signature.toList ++ m.payload)).drop 80 =
      m.payload := by
    rw [← List.append_assoc]
    exact List.drop_left' (by simp only [List.length_append, Octets.length_toList])
  unfold ofBytes
  rw [if_neg hlen]
  simp only [toBytes, List.append_assoc, ne_eq, not_true_eq_false, if_false, hsigner, hrest,
    Octets.fit_take_append, hpayload]

/-- What is read as a message is its written form. -/
theorem toBytes_of_ofBytes {bs : Bytes} {m : SignedMessage} (h : ofBytes bs = .ok m) :
    m.toBytes = bs := by
  unfold ofBytes at h
  by_cases hlen : bs.length < headerLength
  · rw [if_pos hlen] at h
    exact absurd h (by simp)
  rw [if_neg hlen] at h
  cases bs with
  | nil => exact absurd h (by simp)
  | cons first rest =>
    dsimp only at h
    by_cases hversion : first = version
    · rw [if_neg (not_not_intro hversion)] at h
      have hrest : 80 ≤ rest.length := by
        have := Nat.not_lt.1 hlen
        unfold headerLength at this
        simp only [List.length_cons] at this
        omega
      have hsignature : 64 ≤ (rest.drop 16).length := by rw [List.length_drop]; omega
      have hpayload : rest.drop 80 = (rest.drop 16).drop 64 := by rw [List.drop_drop]
      rw [← Except.ok.inj h, toBytes, hversion]
      simp only [Octets.toList_fit_take (show 16 ≤ rest.length by omega),
        Octets.toList_fit_take hsignature, hpayload, List.append_assoc, List.take_append_drop]
    · rw [if_pos hversion] at h
      exact absurd h (by simp)

/-- **Reading undoes writing, and reads nothing else.** -/
theorem ofBytes_eq_ok_iff {bs : Bytes} {m : SignedMessage} : ofBytes bs = .ok m ↔ m.toBytes = bs :=
  ⟨toBytes_of_ofBytes, fun h => h ▸ ofBytes_toBytes m⟩

theorem ofBytes_of_short {bs : Bytes} (h : bs.length < headerLength) :
    ofBytes bs = .error (.messageTooShort bs.length) :=
  if_pos h

theorem ofBytes_of_version {first : UInt8} {rest : Bytes}
    (hlen : headerLength ≤ (first :: rest).length) (h : first ≠ version) :
    ofBytes (first :: rest) = .error (.unsupportedVersion first) := by
  unfold ofBytes
  rw [if_neg (Nat.not_lt.2 hlen)]
  exact if_pos h

/-- What is long enough after a version and an identifier is a message of this signer. -/
theorem exists_of_signer (id : Id) {rest : Bytes} (hlen : 64 ≤ rest.length) :
    ∃ m : SignedMessage, m.toBytes = version :: (id.octets.toList ++ rest) ∧ m.signer = id := by
  refine ⟨⟨id, Octets.fit 64 (rest.take 64), rest.drop 64⟩, ?_, rfl⟩
  rw [toBytes, List.append_assoc, Octets.toList_fit_take hlen, List.take_append_drop]

/-- **A string is too short, or of another version, or a message.** -/
theorem ofBytes_cases (bs : Bytes) :
    (bs.length < headerLength ∧ ofBytes bs = .error (.messageTooShort bs.length)) ∨
      (∃ first rest, bs = first :: rest ∧ headerLength ≤ bs.length ∧ first ≠ version ∧
        ofBytes bs = .error (.unsupportedVersion first)) ∨
      ∃ m : SignedMessage, m.toBytes = bs := by
  rcases Nat.lt_or_ge bs.length headerLength with hlen | hlen
  · exact Or.inl ⟨hlen, ofBytes_of_short hlen⟩
  cases bs with
  | nil => exact absurd hlen (by decide)
  | cons first rest =>
    by_cases hversion : first = version
    · cases hread : ofBytes (first :: rest) with
      | ok m => exact Or.inr (Or.inr ⟨m, toBytes_of_ofBytes hread⟩)
      | error fault =>
        unfold ofBytes at hread
        rw [if_neg (Nat.not_lt.2 hlen)] at hread
        exact absurd ((if_neg (not_not_intro hversion)).symm.trans hread) (by simp)
    · exact Or.inr (Or.inl ⟨first, rest, rfl, hlen, hversion, ofBytes_of_version hlen hversion⟩)

theorem verify_eq_ok_iff {signer : Id} {signature : Octets 64} {payload : Bytes}
    {key : PublicKey} :
    verify ⟨signer, signature, payload⟩ key = .ok () ↔
      key.verify (1 :: (signer.octets.toList ++ payload)) signature = .ok () := by
  unfold verify
  rw [Except.mapError_eq_ok_iff]
  unfold signedBytes version
  exact Iff.rfl

end SignedMessage

namespace SignerMaterial

/-! ## The steps of opening -/

section Steps

variable {m : SignerMaterial} {now : Instant} {frame topicKey : Bytes}

/-- What is wrong with the frame comes first. -/
theorem unprotect_of_refused {fault : CryptoFault}
    (h : (Frame.unprotect now frame topicKey).outcome = .error fault) :
    m.unprotect now frame topicKey =
      ⟨.error (.crypto fault), (Frame.unprotect now frame topicKey).events⟩ := by
  have hopened : ((Frame.unprotect now frame topicKey).mapError MaterialFault.crypto).outcome =
      .error (.crypto fault) := by
    rw [Report.outcome_mapError, h]
    rfl
  exact Report.bind_of_error hopened _

/-- From a frame that opens, opening goes on with what it holds. -/
theorem unprotect_of_opened {opened : Bytes}
    (h : (Frame.unprotect now frame topicKey).outcome = .ok opened) :
    m.unprotect now frame topicKey = (do
      let message ← Report.ofExcept (SignedMessage.ofBytes opened)
      match SortedMap.get? m.directory message.signer with
      | none =>
        Report.log (.signerUnknown message.signer)
        Report.fail (.signerUnknown message.signer)
      | some key =>
        Report.ofExcept (message.verify key)
        return message.payload) := by
  unfold unprotect
  rw [Frame.unprotect_of_opened h]
  rfl

theorem unprotect_of_unreadable {opened : Bytes} {fault : MaterialFault}
    (h : (Frame.unprotect now frame topicKey).outcome = .ok opened)
    (hread : SignedMessage.ofBytes opened = .error fault) :
    m.unprotect now frame topicKey = .fail fault := by
  rw [unprotect_of_opened h, hread]
  rfl

section Message

variable {message : SignedMessage}
variable (h : (Frame.unprotect now frame topicKey).outcome = .ok message.toBytes)

include h

theorem unprotect_of_unknown (hkey : SortedMap.get? m.directory message.signer = none) :
    m.unprotect now frame topicKey =
      ⟨.error (.signerUnknown message.signer), [.signerUnknown message.signer]⟩ := by
  rw [unprotect_of_opened h, SignedMessage.ofBytes_toBytes]
  show (match SortedMap.get? m.directory message.signer with | none => _ | some key => _) = _
  rw [hkey]
  rfl

theorem unprotect_of_known {key : PublicKey}
    (hkey : SortedMap.get? m.directory message.signer = some key) :
    m.unprotect now frame topicKey =
      .ofExcept ((message.verify key).map fun _ => message.payload) := by
  rw [unprotect_of_opened h, SignedMessage.ofBytes_toBytes]
  show (match SortedMap.get? m.directory message.signer with | none => _ | some key => _) = _
  rw [hkey]
  exact Report.ofExcept_bind_pure _ _

end Message

end Steps

/-- **Opening succeeds when its steps do**: the frame opens, to a message of a signer in the
directory, who signed it. -/
theorem outcome_unprotect_eq_ok_iff {m : SignerMaterial} {now : Instant}
    {frame topicKey payload : Bytes} :
    (m.unprotect now frame topicKey).outcome = .ok payload ↔
      ∃ message : SignedMessage,
        (Frame.unprotect now frame topicKey).outcome = .ok message.toBytes ∧
        (∃ key, m.directory.get? message.signer = some key ∧ message.verify key = .ok ()) ∧
        message.payload = payload := by
  unfold unprotect
  simp only [Report.outcome_bind_eq_ok_iff, Report.outcome_mapError, Except.mapError_eq_ok_iff,
    Report.outcome_ofExcept]
  constructor
  · rintro ⟨opened, hopened, message, hmessage, h⟩
    rw [SignedMessage.ofBytes_eq_ok_iff] at hmessage
    refine ⟨message, hmessage ▸ hopened, ?_⟩
    cases hkey : SortedMap.get? m.directory message.signer with
    | none => simp [hkey, Report.outcome_bind_eq_ok_iff] at h
    | some key =>
      simp only [hkey, Report.outcome_bind_eq_ok_iff, Report.outcome_ofExcept,
        Report.outcome_pure, Except.ok.injEq] at h
      obtain ⟨u, hverify, hpayload⟩ := h
      exact ⟨⟨key, rfl, hverify⟩, hpayload⟩
  · rintro ⟨message, hopened, ⟨key, hkey, hverify⟩, hpayload⟩
    refine ⟨_, hopened, message, SignedMessage.ofBytes_toBytes message, ?_⟩
    simp only [hkey, Report.outcome_bind_eq_ok_iff, Report.outcome_ofExcept, Report.outcome_pure,
      Except.ok.injEq]
    exact ⟨(), hverify, hpayload⟩

/-- What comes of a frame that holds a message depends on the key of the signer alone. -/
theorem outcome_unprotect_of_opened {m : SignerMaterial} {now : Instant} {frame topicKey : Bytes}
    {message : SignedMessage}
    (h : (Frame.unprotect now frame topicKey).outcome = .ok message.toBytes) :
    (m.unprotect now frame topicKey).outcome =
      match SortedMap.get? m.directory message.signer with
      | none => .error (.signerUnknown message.signer)
      | some key => (message.verify key).map fun _ => message.payload := by
  cases hkey : SortedMap.get? m.directory message.signer with
  | none => rw [unprotect_of_unknown h hkey]
  | some key => rw [unprotect_of_known h hkey, Report.outcome_ofExcept]

/-- **Acceptance of signed messages is exact.** Material opens a string to a payload if and only if
the string is the frame, at a second `stamp` with `stamp ≤ now ≤ stamp + 600 s`, of a version byte,
the identifier of a signer, a signature and the payload, the directory has a key for this very
identifier, and the key verifies the signature over the version byte, the identifier and the
payload. -/
theorem unprotect_iff_signed (m : SignerMaterial) (now : Instant) (hnow : 0 ≤ now.nanoseconds)
    (frame topicKey payload : Bytes) :
    (m.unprotect now frame topicKey).outcome = .ok payload ↔
      ∃ (stamp : UInt64) (id : Id) (signature : Octets 64),
        Fresh stamp now (600 * 1000000000) ∧
        Frame.protectAt (1 :: (id.octets.toList ++ signature.toList ++ payload)) topicKey stamp =
          .ok frame ∧
        ∃ key, m.directory.get? id = some key ∧
          key.verify (1 :: (id.octets.toList ++ payload)) signature = .ok () := by
  rw [outcome_unprotect_eq_ok_iff]
  constructor
  · rintro ⟨⟨id, signature, payload⟩, hopened, ⟨key, hkey, hverify⟩, rfl⟩
    obtain ⟨-, stamp, hfresh, hframe⟩ := (Frame.outcome_unprotect_iff_exists hnow).1 hopened
    exact ⟨stamp, id, signature, hfresh, hframe, key, hkey,
      SignedMessage.verify_eq_ok_iff.1 hverify⟩
  · rintro ⟨stamp, id, signature, hfresh, hframe, key, hkey, hverify⟩
    refine ⟨⟨id, signature, payload⟩, ?_, ⟨key, hkey, SignedMessage.verify_eq_ok_iff.2 hverify⟩, rfl⟩
    exact (Frame.outcome_unprotect_iff_exists hnow).2 ⟨List.cons_ne_nil _ _, stamp, hfresh, hframe⟩

/-- An empty message, signed and sealed at the epoch by a signer whom the directory knows. The inner
format takes 81 bytes. -/
theorem unprotect_iff_signed_empty :
    0 ≤ Instant.epoch.nanoseconds ∧
      (SignedMessage.make ⟨.zero 16⟩ ⟨.zero 32⟩ []).toBytes.length = 81 ∧
      ∃ frame,
        Frame.protectAt (SignedMessage.make ⟨.zero 16⟩ ⟨.zero 32⟩ []).toBytes
          (List.replicate 32 1) 0 = .ok frame ∧
        (SignerMaterial.unprotect
          ⟨⟨.zero 16⟩, ⟨.zero 32⟩, .fit 32 [9],
            SortedMap.insert .empty ⟨.zero 16⟩ (SecretKey.publicKey ⟨.zero 32⟩)⟩
          Instant.epoch frame (List.replicate 32 1)).outcome = .ok [] := by
  have hnow : 0 ≤ Instant.epoch.nanoseconds := by decide
  have hverified : ((SecretKey.publicKey ⟨.zero 32⟩).verify (1 :: ((Octets.zero 16).toList ++ []))
      (SignedMessage.make ⟨.zero 16⟩ ⟨.zero 32⟩ []).signature).toOption = some () := by
    decide +kernel
  obtain ⟨frame, hframe⟩ := (Frame.exists_protectAt_iff
    (SignedMessage.make ⟨.zero 16⟩ ⟨.zero 32⟩ []).toBytes (List.replicate 32 1) 0).2 ⟨rfl, by decide⟩
  refine ⟨hnow, SignedMessage.length_toBytes _, frame, hframe, ?_⟩
  exact (unprotect_iff_signed _ _ hnow frame _ []).2
    ⟨0, ⟨.zero 16⟩, _, by decide, hframe, _, by rw [SortedMap.get?_insert, if_pos rfl],
      Except.eq_ok_of_toOption hverified⟩

end SignerMaterial

end SealedMessaging
