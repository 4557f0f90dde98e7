import SealedMessaging.Material.Use
import SealedMessaging.Proofs.Message

/-!
# What material opens

Opening a command takes a key first and then opens the frame under it. Shared material holds the key;
a signer derives it. The clock comes in only through the window of the frame, where a clock before
the epoch counts as one at the epoch.

* `Material.commandKey`: the key of commands.
* `Material.events_unprotect`, `Material.events_unprotectCommand`: what opening reports.
* `Material.step_eq_of_sinceEpoch`: what material does with the clock.
* `Frame.outcome_unprotect_of_early`: frames under a clock before the epoch.
* `Material.early_clock`: what such a clock lets through, and what it does not.
-/

namespace SealedMessaging

/-! ## The key of commands -/

/-- **The key under which material opens commands.** -/
def Material.commandKey : Material → Except MaterialFault SymmetricKey
  | .shared m => .ok m.key
  | .signer m => (SymmetricKey.ofShared (m.key.agree m.controller).toList).mapError .crypto

/-- Opening a command is opening its frame under the key of commands. -/
theorem Material.outcome_unprotectCommand (m : Material) (now : Instant) (frame : Bytes) :
    (m.unprotectCommand now frame).outcome = (do
      let key ← m.commandKey
      (Frame.unprotect now frame key.toBytes).outcome.mapError .crypto) := by
  cases m with
  | shared m =>
    rw [unprotectCommand, SharedMaterial.unprotectCommand, Report.outcome_mapError, commandKey]
    rfl
  | signer m =>
    rw [unprotectCommand, SignerMaterial.unprotectCommand, Report.outcome_bind,
      Report.outcome_ofExcept, commandKey]
    simp only [Report.outcome_mapError]

/-! ## What opening reports -/

/-- **The events on the way to a result of opening**: a refusal for the time stamp, with the stamp, and
an unknown signer, with the identifier. -/
def openingEvents (frame : Bytes) : Except MaterialFault Bytes → List Event
  | .error (.crypto (.window fault)) => [.frameRefused (Frame.stampOf frame) fault]
  | .error (.signerUnknown id) => [.signerUnknown id]
  | _ => []

/-- **The refusals of a frame for its time stamp are reported**, and nothing else. -/
theorem Frame.events_unprotect (now : Instant) (frame key : Bytes) :
    (unprotect now frame key).events =
      openingEvents frame ((unprotect now frame key).outcome.mapError .crypto) := by
  rcases Nat.lt_or_ge frame.length minLength with hlen | hlen
  · rw [unprotect_of_short hlen]
    rfl
  cases hwindow : checkWindow (stampOf frame) now frameDelay with
  | error fault =>
    rw [unprotect_of_window hlen hwindow]
    rfl
  | ok u =>
    rw [unprotect_of_fresh hlen hwindow, Report.outcome_ofExcept]
    have hnot := unsealBytes_ne_window key (frame.take stampLength) (frame.drop stampLength)
    cases hopen : unsealBytes key (frame.take stampLength) (frame.drop stampLength) with
    | ok payload => rfl
    | error fault =>
      cases fault with
      | window fault => exact absurd hopen (hnot fault)
      | _ => rfl

/-- **Those and the unknown signers of messages are reported**, and nothing else. -/
theorem SignerMaterial.events_unprotect (m : SignerMaterial) (now : Instant)
    (frame topicKey : Bytes) :
    (m.unprotect now frame topicKey).events =
      openingEvents frame (m.unprotect now frame topicKey).outcome := by
  cases hopened : (Frame.unprotect now frame topicKey).outcome with
  | error fault =>
    have hevents := Frame.events_unprotect now frame topicKey
    rw [hopened] at hevents
    rw [unprotect_of_refused hopened]
    exact hevents
  | ok opened =>
    rcases SignedMessage.ofBytes_cases opened with
      ⟨-, hread⟩ | ⟨first, rest, -, -, -, hread⟩ | ⟨message, rfl⟩
    · rw [unprotect_of_unreadable hopened hread]
      rfl
    · rw [unprotect_of_unreadable hopened hread]
      rfl
    · cases hkey : SortedMap.get? m.directory message.signer with
      | none =>
        rw [unprotect_of_unknown hopened hkey]
        rfl
      | some key =>
        rw [unprotect_of_known hopened hkey]
        unfold SignedMessage.verify
        cases key.verify (SignedMessage.signedBytes message.signer message.payload)
            message.signature <;> rfl

/-- What is wrong with an agreed key is no matter of the clock. -/
theorem SymmetricKey.ofShared_ne_window (secret : Bytes) (fault : WindowFault) :
    ofShared secret ≠ .error (.window fault) := by
  unfold ofShared ofBytes checked
  cases nonzeroOctetsOf .symmetricKey 32 (sha3 secret).toList with
  | error keyFault => exact fun h => absurd (Except.error.inj h) (by simp)
  | ok octets => exact nofun

namespace Material

theorem events_unprotect (m : Material) (now : Instant) (frame topicKey : Bytes) :
    (m.unprotect now frame topicKey).events =
      openingEvents frame (m.unprotect now frame topicKey).outcome := by
  cases m with
  | shared s => exact Frame.events_unprotect now frame topicKey
  | signer s => exact s.events_unprotect now frame topicKey

theorem events_unprotectCommand (m : Material) (now : Instant) (frame : Bytes) :
    (m.unprotectCommand now frame).events =
      openingEvents frame (m.unprotectCommand now frame).outcome := by
  cases m with
  | shared s => exact Frame.events_unprotect now frame s.key.toBytes
  | signer s =>
    unfold unprotectCommand SignerMaterial.unprotectCommand
    dsimp only
    cases hkey : SymmetricKey.ofShared (s.key.agree s.controller).toList with
    | error fault =>
      cases fault with
      | window fault => exact absurd hkey (SymmetricKey.ofShared_ne_window _ fault)
      | _ => rfl
    | ok key => exact Frame.events_unprotect now frame key.toBytes

end Material

/-! ## Clocks before the epoch -/

theorem Instant.sinceEpoch_of_neg {t : Instant} (h : t.nanoseconds < 0) :
    t.sinceEpoch = .ofSeconds 0 := by
  have hneg : t.seconds < 0 := by
    have hzero : (0 : Int64).toInt = 0 := rfl
    rw [Int64.lt_iff_toInt_lt, hzero]
    unfold nanoseconds at h
    omega
  exact if_pos hneg

/-- Before the epoch no time stamp is too old, and all but zero lie in the future. -/
theorem checkWindow_of_neg {now : Instant} (h : now.nanoseconds < 0) (stamp : UInt64) (delay : Nat) :
    checkWindow stamp now delay = if stamp = 0 then .ok () else .error .inFuture := by
  have hepoch : (Span.ofSeconds 0).nanoseconds = 0 := Span.nanoseconds_ofSeconds 0
  unfold checkWindow
  rw [Instant.sinceEpoch_of_neg h, checkFresh_eq, hepoch]
  by_cases hstamp : stamp = 0
  · subst hstamp
    rw [if_pos rfl]
    exact verdict_eq_ok_iff.2 ⟨Nat.le_refl 0, Nat.zero_le _⟩
  · have hpos : 0 < stamp.toNat := Nat.pos_of_ne_zero fun h => hstamp (UInt64.toNat_inj.1 h)
    rw [if_neg hstamp]
    exact verdict_eq_inFuture_iff.2 (Nat.mul_pos hpos (by decide))

namespace Frame

variable {now : Instant} {frame key : Bytes}

section SameTime

variable {t t' : Instant} (h : t.sinceEpoch = t'.sinceEpoch)

include h

theorem protect_eq_of_sinceEpoch (payload key : Bytes) :
    protect t payload key = protect t' payload key := by
  unfold protect Instant.unixSeconds
  rw [h]

theorem unprotect_eq_of_sinceEpoch (frame key : Bytes) :
    unprotect t frame key = unprotect t' frame key := by
  have hwindow : checkWindow (stampOf frame) t frameDelay =
      checkWindow (stampOf frame) t' frameDelay := by
    unfold checkWindow
    rw [h]
  unfold unprotect
  rw [hwindow]

end SameTime

/-- **A clock before the epoch stamps frames with zero.** -/
theorem protect_of_early (h : now.nanoseconds < 0) (payload key : Bytes) :
    protect now payload key = protectAt payload key 0 := by
  have hseconds : now.unixSeconds = 0 := by
    unfold Instant.unixSeconds
    rw [Instant.sinceEpoch_of_neg h]
    rfl
  rw [protect, hseconds]

/-- **A clock before the epoch opens what is stamped with zero**, without a window. -/
theorem outcome_unprotect_of_early (h : now.nanoseconds < 0) (hlen : minLength ≤ frame.length) :
    (unprotect now frame key).outcome =
      if stampOf frame = 0 then unsealBytes key (frame.take stampLength) (frame.drop stampLength)
      else .error (.window .inFuture) := by
  unfold unprotect
  rw [if_neg (Nat.not_lt.2 hlen), checkWindow_of_neg h]
  by_cases hstamp : stampOf frame = 0
  · rw [if_pos hstamp, if_pos hstamp]
    rfl
  · rw [if_neg hstamp, if_neg hstamp]
    rfl

end Frame

namespace Material

/-- **Of the clock only the time since the epoch counts**, for every use of material. -/
theorem step_eq_of_sinceEpoch {t t' : Instant} (h : t.sinceEpoch = t'.sinceEpoch) (m : Material)
    (use : Use) : m.step t use = m.step t' use := by
  have hunprotect := Frame.unprotect_eq_of_sinceEpoch h
  cases use with
  | protect payload topicKey =>
    have hprotect := Frame.protect_eq_of_sinceEpoch h
    cases m <;> simp only [step, protect, SignerMaterial.protect, hprotect]
  | unprotect frame topicKey =>
    cases m <;> simp only [step, unprotect, SignerMaterial.unprotect, hunprotect]
  | unprotectCommand frame =>
    cases m <;> simp only [step, unprotectCommand, SharedMaterial.unprotectCommand,
      SignerMaterial.unprotectCommand, hunprotect]
  | _ => rfl

variable {now : Instant} {frame : Bytes} {fault : CryptoFault}

/-- Messages of a frame that is refused under the topic key are refused for the same reason. -/
theorem outcome_unprotect_of_error {topicKey : Bytes}
    (h : (Frame.unprotect now frame topicKey).outcome = .error fault) (m : Material) :
    (m.unprotect now frame topicKey).outcome = .error (.crypto fault) := by
  cases m with
  | shared m =>
    show ((Frame.unprotect now frame topicKey).mapError MaterialFault.crypto).outcome = _
    rw [Report.outcome_mapError, h]
    rfl
  | signer m =>
    show (SignerMaterial.unprotect m now frame topicKey).outcome = _
    rw [SignerMaterial.unprotect_of_refused h]

/-- So are commands. -/
theorem outcome_unprotectCommand_of_error {m : Material} {key : SymmetricKey}
    (hkey : m.commandKey = .ok key)
    (h : (Frame.unprotect now frame key.toBytes).outcome = .error fault) :
    (m.unprotectCommand now frame).outcome = .error (.crypto fault) := by
  rw [outcome_unprotectCommand, hkey]
  show (Frame.unprotect now frame key.toBytes).outcome.mapError _ = _
  rw [h]
  rfl

/-- **A clock before the epoch** counts as a clock at the epoch, whatever is done with material. Of the
frames that are long enough it refuses as sent in the future those that are not stamped with zero: for
all keys and for all material, as far as there is a key of commands. What is stamped with zero opens
to the payload it was made for, and never expires: so does all that is protected under such a clock,
however long before. -/
theorem early_clock (now : Instant) (hnow : now.nanoseconds < 0) :
    (∀ (m : Material) (use : Use), m.step now use = m.step .epoch use) ∧
    ∀ frame : Bytes, 24 < frame.length →
      (Frame.stampOf frame ≠ 0 →
        (∀ key, (Frame.unprotect now frame key).outcome = .error (.window .inFuture)) ∧
        ∀ m : Material,
          (∀ topicKey, (m.unprotect now frame topicKey).outcome =
            .error (.crypto (.window .inFuture))) ∧
          ∀ key, m.commandKey = .ok key →
            (m.unprotectCommand now frame).outcome = .error (.crypto (.window .inFuture))) ∧
      (Frame.stampOf frame = 0 → ∀ key payload,
        ((Frame.unprotect now frame key).outcome = .ok payload ↔
          Frame.protectAt payload key 0 = .ok frame)) ∧
      ∀ sent payload key, sent.nanoseconds < 0 → Frame.protect sent payload key = .ok frame →
        (Frame.unprotect now frame key).outcome = .ok payload := by
  refine ⟨step_eq_of_sinceEpoch (Instant.sinceEpoch_of_neg hnow), fun frame hlen => ?_⟩
  have hopen : Frame.stampOf frame = 0 → ∀ key payload,
      ((Frame.unprotect now frame key).outcome = .ok payload ↔
        Frame.protectAt payload key 0 = .ok frame) := by
    intro hstamp key payload
    rw [Frame.outcome_unprotect_of_early hnow hlen, if_pos hstamp,
      Frame.unsealBytes_iff_protectAt hlen, hstamp]
  refine ⟨fun hstamp => ?_, hopen, fun sent payload key hsent hframe => ?_⟩
  · have hrefused : ∀ key, (Frame.unprotect now frame key).outcome = .error (.window .inFuture) := by
      intro key
      rw [Frame.outcome_unprotect_of_early hnow hlen, if_neg hstamp]
    exact ⟨hrefused, fun m => ⟨fun topicKey => outcome_unprotect_of_error (hrefused topicKey) m,
      fun key hkey => outcome_unprotectCommand_of_error hkey (hrefused key.toBytes)⟩⟩
  · rw [Frame.protect_of_early hsent] at hframe
    exact (hopen (Frame.stampOf_of_protectAt hframe) key payload).2 hframe

/-- An hour before the epoch. -/
def hourBefore : Instant := { Instant.epoch with seconds := -3600 }

/-- Two frames of 25 zeros, of which one has the time stamp one, at an hour before the epoch. -/
theorem early_clock_zeros :
    hourBefore.nanoseconds < 0 ∧
      (Material.unprotect (.shared ⟨⟨.zero 32⟩⟩) hourBefore (1 :: List.replicate 24 0) []).outcome =
        .error (.crypto (.window .inFuture)) ∧
      ((Frame.unprotect hourBefore (List.replicate 25 0) (List.replicate 32 1)).outcome = .ok [7] ↔
        Frame.protectAt [7] (List.replicate 32 1) 0 = .ok (List.replicate 25 0)) := by
  have hnow : hourBefore.nanoseconds < 0 := by decide
  obtain ⟨-, hframes⟩ := early_clock hourBefore hnow
  obtain ⟨hrefused, -, -⟩ := hframes (1 :: List.replicate 24 0) (by decide)
  obtain ⟨-, hopen, -⟩ := hframes (List.replicate 25 0) (by decide)
  exact ⟨hnow, ((hrefused (by decide)).2 (.shared ⟨⟨.zero 32⟩⟩)).1 [],
    hopen (by decide) (List.replicate 32 1) [7]⟩

/-- **A frame can get through under a clock before the epoch**: the one that protecting a byte under
such a clock writes. -/
theorem early_clock_lets_through :
    ∃ frame, Frame.protect hourBefore [7] (List.replicate 32 1) = .ok frame ∧ 24 < frame.length ∧
      (Frame.unprotect hourBefore frame (List.replicate 32 1)).outcome = .ok [7] := by
  have hnow : hourBefore.nanoseconds < 0 := by decide
  obtain ⟨frame, hframe⟩ :=
    (Frame.exists_protectAt_iff [7] (List.replicate 32 1) 0).2 ⟨rfl, by decide⟩
  have hlen : Frame.minLength ≤ frame.length := (Frame.minLength_le_iff hframe).2 (by decide)
  have hstamp := Frame.stampOf_of_protectAt hframe
  refine ⟨frame, (Frame.protect_of_early hnow _ _).trans hframe, hlen, ?_⟩
  rw [Frame.outcome_unprotect_of_early hnow hlen, if_pos hstamp,
    Frame.unsealBytes_iff_protectAt hlen, hstamp]
  exact hframe

end Material

end SealedMessaging
