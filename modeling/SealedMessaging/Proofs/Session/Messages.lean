import SealedMessaging.Proofs.Message
import SealedMessaging.Proofs.Session.Steps

/-!
# Messages between two signers

A message is opened by the key that the receiver has for the sender when it arrives. What has become
of the sender in the meantime, and what else happened to either, does not matter.

* `SignerMaterial.exists_protect`: a signer protects every payload under every valid topic key.
* `SignerMaterial.outcome_unprotect_of_protect`: what a receiver makes of it.
* `Session.message_flow`: the same for steps of a session, with any other steps around them.
-/

namespace SealedMessaging

namespace SignerMaterial

/-- **A signer protects every payload** under every valid topic key. -/
theorem exists_protect (m : SignerMaterial) (now : Instant) (payload : Bytes) {topicKey : Bytes}
    (htopic : topicKey.length = 32 ∧ ∃ b ∈ topicKey, b ≠ 0) :
    ∃ frame, m.protect now payload topicKey = .ok frame ∧
      Frame.protect now (SignedMessage.make m.id m.key payload).toBytes topicKey = .ok frame := by
  obtain ⟨frame, hframe⟩ :=
    (Frame.exists_protectAt_iff (SignedMessage.make m.id m.key payload).toBytes topicKey
      now.unixSeconds).2 ⟨htopic.1, Bytes.isZero_eq_false_iff.2 htopic.2⟩
  exact ⟨frame, Except.mapError_eq_ok_iff.2 hframe, hframe⟩

/-- **What a receiver makes of a message** of a signer depends on the key it has for the signer. -/
theorem outcome_unprotect_of_protect {m r : SignerMaterial} {sent now : Instant}
    {payload topicKey frame : Bytes} (hsent : 0 ≤ sent.nanoseconds) (htime : InTime sent now)
    (h : Frame.protect sent (SignedMessage.make m.id m.key payload).toBytes topicKey = .ok frame) :
    (r.unprotect now frame topicKey).outcome =
      match SortedMap.get? r.directory m.id with
      | none => .error (.signerUnknown m.id)
      | some key => ((SignedMessage.make m.id m.key payload).verify key).map fun _ => payload :=
  outcome_unprotect_of_opened (Frame.outcome_unprotect_of_protect hsent htime (List.cons_ne_nil _ _) h)

end SignerMaterial

/-- A public key that verifies the signature in the message that a signer makes of a payload. -/
def SignerMaterial.VerifiedBy (m : SignerMaterial) (payload : Bytes) (key : PublicKey) : Prop :=
  key.verify (SignedMessage.signedBytes m.id payload)
    (m.key.sign (SignedMessage.signedBytes m.id payload)) = .ok ()

/-- **What a receiver finds** in a message that a signer with material `m` has protected. -/
structure Received (m : SignerMaterial) (payload : Bytes) (r : SignerMaterial)
    (received : Except StepFault Answer) : Prop where
  /-- A signer without a key is unknown. -/
  unknown : SortedMap.get? r.directory m.id = none →
    received = .error (.use (.material (.signerUnknown m.id)))
  /-- The public key of the secret key with which the message was signed opens it. -/
  signed : SortedMap.get? r.directory m.id = some m.key.publicKey → received = .ok (.bytes payload)
  /-- So does any other that verifies its signature. -/
  verified : ∀ key, SortedMap.get? r.directory m.id = some key → m.VerifiedBy payload key →
    received = .ok (.bytes payload)
  /-- With all others the signature is bad. -/
  refused : ∀ key, SortedMap.get? r.directory m.id = some key → ¬ m.VerifiedBy payload key →
    received = .error (.use (.material .badSignature))

/-- What a receiver makes of the message is one of the four. -/
theorem received_of_protect {m r : SignerMaterial} {sent now : Instant}
    {payload topicKey frame : Bytes} (hsent : 0 ≤ sent.nanoseconds) (htime : InTime sent now)
    (hsigns : m.VerifiedBy payload m.key.publicKey)
    (h : Frame.protect sent (SignedMessage.make m.id m.key payload).toBytes topicKey = .ok frame) :
    Received m payload r (Session.bytesAnswer (r.unprotect now frame topicKey).outcome) := by
  rw [SignerMaterial.outcome_unprotect_of_protect hsent htime h]
  have hverify : ∀ key : PublicKey, (SignedMessage.make m.id m.key payload).verify key =
      (key.verify (SignedMessage.signedBytes m.id payload)
        (m.key.sign (SignedMessage.signedBytes m.id payload))).mapError fun _ => .badSignature :=
    fun _ => rfl
  have hopens : ∀ key, SortedMap.get? r.directory m.id = some key → m.VerifiedBy payload key →
      Session.bytesAnswer (match SortedMap.get? r.directory m.id with
        | none => .error (.signerUnknown m.id)
        | some key => ((SignedMessage.make m.id m.key payload).verify key).map fun _ => payload) =
        .ok (.bytes payload) := by
    intro key hkey hok
    rw [hkey]
    dsimp only
    rw [hverify, hok]
    rfl
  refine ⟨fun hkey => ?_, fun hkey => hopens _ hkey hsigns, hopens, fun key hkey hbad => ?_⟩
  · rw [hkey]
    rfl
  · rw [hkey]
    dsimp only
    rw [hverify]
    -- whatever is wrong with the signature, the receiver calls it bad
    cases hresult : key.verify (SignedMessage.signedBytes m.id payload)
        (m.key.sign (SignedMessage.signedBytes m.id payload)) with
    | ok u => exact absurd hresult hbad
    | error fault => rfl

namespace Session

/-- A step in which the material of a name protects a message at an instant. -/
def protectStep (name : String) (sent : Instant) (source : Option Bytes) (payload topicKey : Bytes) :
    Step :=
  ⟨name, some sent, source, .use (.protect payload topicKey)⟩

/-- A step in which the material of a name opens a message at an instant. -/
def unprotectStep (name : String) (now : Instant) (source : Option Bytes) (frame topicKey : Bytes) :
    Step :=
  ⟨name, some now, source, .use (.unprotect frame topicKey)⟩

/-- **Messages between two signers.** A signer protects any payload at one instant, and at another
within the window a receiver opens the frame, with any steps before and between. The receiver then
finds the signer unknown if it has no key for the signer's identifier. It finds the payload if it has
the public key of the secret key with which the message was signed, whatever key the signer holds by
then. With any other key it finds the payload if the key verifies the signature in the message, and a
bad signature if not. -/
theorem message_flow (s : Session) (sender receiver : String) (source source' : Option Bytes)
    (m : SignerMaterial) (payload topicKey : Bytes) (sent now : Instant)
    (hsender : s.material? sender = some (.signer m))
    (htopic : topicKey.length = 32 ∧ ∃ b ∈ topicKey, b ≠ 0)
    (hsent : 0 ≤ sent.nanoseconds) (htime : InTime sent now)
    (hsigns : m.VerifiedBy payload m.key.publicKey) :
    ∃ frame,
      (s.step (protectStep sender sent source payload topicKey)).2.outcome = .ok (.bytes frame) ∧
      ∀ (between : List Step) (arrival : Session) (r : SignerMaterial),
        arrival = (s.step (protectStep sender sent source payload topicKey)).1.after between →
        arrival.material? receiver = some (.signer r) →
          Received m payload r
            (arrival.step (unprotectStep receiver now source' frame topicKey)).2.outcome := by
  obtain ⟨frame, hprotect, hframe⟩ := m.exists_protect sent payload htopic
  refine ⟨frame, ?_, fun between arrival r _ hreceiver => ?_⟩
  · rw [outcome_step_tell rfl hsender rfl, Report.outcome_ofExcept]
    show bytesAnswer (m.protect sent payload topicKey) = _
    rw [hprotect]
    rfl
  · -- only what the receiver holds when the frame arrives counts, not how it came by it
    rw [outcome_step_tell rfl hreceiver rfl]
    exact received_of_protect hsent htime hsigns hframe

/-- A signer of the seed zero, and a receiver who has its public key. -/
def acquaintedSteps : List Step :=
  [⟨"sender", none, some (List.replicate 32 0),
      .create (.signerRandom (List.replicate 16 0) (List.replicate 32 2))⟩,
   ⟨"receiver", none, some (List.replicate 32 1),
      .create (.signerRandom (List.replicate 16 1) (List.replicate 32 2))⟩,
   ⟨"receiver", none, none,
      .use (.addPublicKey (List.replicate 16 0) (SecretKey.publicKey ⟨.zero 32⟩).toBytes)⟩]

/-- The signer protects an empty message. -/
def sendingStep : Step := protectStep "sender" .epoch none [] (List.replicate 32 7)

/-- The signer takes another key. -/
def rotatingStep : Step :=
  ⟨"sender", none, none, .use (.setKey (SecretKey.toBytes ⟨.fit 32 (List.replicate 32 5)⟩))⟩

/-- An empty message is opened in the last instant of the window, after its signer has taken another
key. -/
theorem message_flow_rotated :
    ∃ frame,
      (((start .epoch).after acquaintedSteps).step sendingStep).2.outcome = .ok (.bytes frame) ∧
      (((start .epoch).after (acquaintedSteps ++ [sendingStep, rotatingStep])).step
        (unprotectStep "receiver" ⟨600, ⟨0, by decide⟩⟩ none frame (List.replicate 32 7))).2.outcome =
          .ok (.bytes []) := by
  have hsender : ((start .epoch).after acquaintedSteps).material? "sender" =
      some (.signer ⟨⟨.zero 16⟩, ⟨.zero 32⟩, ⟨List.replicate 32 2, rfl⟩, .empty⟩) := by
    decide +kernel
  have hreceiver : ((start .epoch).after
      (acquaintedSteps ++ [sendingStep, rotatingStep])).material? "receiver" =
        some (.signer ⟨⟨⟨List.replicate 16 1, rfl⟩⟩, ⟨⟨List.replicate 32 1, rfl⟩⟩,
          ⟨List.replicate 32 2, rfl⟩,
          SortedMap.insert .empty ⟨.zero 16⟩ (SecretKey.publicKey ⟨.zero 32⟩)⟩) := by
    decide +kernel
  have hsigns : ((SecretKey.publicKey ⟨.zero 32⟩).verify (SignedMessage.signedBytes ⟨.zero 16⟩ [])
      (SecretKey.sign ⟨.zero 32⟩ (SignedMessage.signedBytes ⟨.zero 16⟩ []))).toOption =
        some () := by
    decide +kernel
  unfold sendingStep at hreceiver ⊢
  obtain ⟨frame, hsent, harrival⟩ := message_flow _ "sender" "receiver" none none _ []
    (List.replicate 32 7) .epoch ⟨600, ⟨0, by decide⟩⟩ hsender (by decide) (by decide) (by decide)
    (Except.eq_ok_of_toOption hsigns)
  refine ⟨frame, hsent, (harrival [rotatingStep] _ _ ?_ hreceiver).signed ?_⟩
  · rw [after_append, after_cons]
  · rw [SortedMap.get?_insert, if_pos rfl]

end Session

end SealedMessaging
