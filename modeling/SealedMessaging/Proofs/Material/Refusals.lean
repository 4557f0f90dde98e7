import SealedMessaging.Proofs.Material.Opening

/-!
# What comes of frames and messages

Opening makes its checks in a fixed order and stops at the first that fails. Here each result is
stated with all that must hold for it, the checks before it included, so that a string is judged
without running the program.

* `Frame.Judged`, `SignerMaterial.Judged`: the results of opening and when they come.
* `reportedLines`: the lines that are reported on the way to a result.
* `Frame.outcome_unprotect_iff_judged`, `SignerMaterial.outcome_unprotect_iff_judged`: a string has
  the result it is judged to have, and no other.
* `SignerMaterial.refusals_in_order`: the results and the reported lines together.
-/

namespace SealedMessaging

/-! ## What is reported -/

/-- **The lines that are reported** on the way to a result: a refusal for the time stamp, with the
stamp, and an unknown signer, with the identifier. Nothing else is. -/
def reportedLines (frame : Bytes) : Except MaterialFault Bytes → List String
  | .error (.crypto (.window fault)) =>
    ["WARN rejecting protected frame with timestamp " ++ toString (Frame.stampOf frame).toNat ++
      ": " ++ fault.message]
  | .error (.signerUnknown id) => ["DEBUG no public key registered for signer " ++ id.toHex]
  | _ => []

theorem line_frameRefused (stamp : UInt64) (fault : WindowFault) :
    (Event.frameRefused stamp fault).line =
      "WARN rejecting protected frame with timestamp " ++ toString stamp.toNat ++ ": " ++
        fault.message := by
  unfold Event.line Event.message
  simp only [← String.append_assoc]
  rfl

theorem line_signerUnknown (id : Id) :
    (Event.signerUnknown id).line = "DEBUG no public key registered for signer " ++ id.toHex := by
  unfold Event.line Event.message
  simp only [← String.append_assoc]
  rfl

/-- The lines are those of the events. -/
theorem map_line_openingEvents (frame : Bytes) (result : Except MaterialFault Bytes) :
    (openingEvents frame result).map Event.line = reportedLines frame result := by
  unfold openingEvents
  split
  · exact congrArg (fun line => [line]) (line_frameRefused _ _)
  · exact congrArg (fun line => [line]) (line_signerUnknown _)
  · rename_i hwindow hunknown
    unfold reportedLines
    split
    · exact absurd rfl (hwindow _)
    · exact absurd rfl (hunknown _)
    · rfl

/-! ## Frames -/

namespace Frame

/-- **What comes of a frame**, by the first check that it does not pass. -/
inductive Judged (now : Instant) (frame key : Bytes) : Except CryptoFault Bytes → Prop where
  | tooShort (short : frame.length ≤ 24) :
      Judged now frame key (.error (.tooShort frame.length 25))
  | inFuture (long : 24 < frame.length)
      (early : now.nanoseconds < (stampOf frame).toNat * 1000000000) :
      Judged now frame key (.error (.window .inFuture))
  | tooOld (long : 24 < frame.length)
      (late : (stampOf frame).toNat * 1000000000 + 600 * 1000000000 < now.nanoseconds) :
      Judged now frame key (.error (.window .tooOld))
  | keyLength (long : 24 < frame.length) (fresh : Fresh (stampOf frame) now (600 * 1000000000))
      (wrong : key.length ≠ 32) :
      Judged now frame key (.error (.input (.wrongLength .symmetricKey 32 key.length)))
  | keyZero (long : 24 < frame.length) (fresh : Fresh (stampOf frame) now (600 * 1000000000))
      (length : key.length = 32) (zero : ∀ b ∈ key, b = 0) :
      Judged now frame key (.error (.input (.allZero .symmetricKey)))
  | unauthentic (long : 24 < frame.length)
      (fresh : Fresh (stampOf frame) now (600 * 1000000000))
      (length : key.length = 32) (nonzero : ∃ b ∈ key, b ≠ 0)
      (unmade : ∀ payload, protectAt payload key (stampOf frame) ≠ .ok frame) :
      Judged now frame key (.error .unauthentic)
  | opened {payload : Bytes} (long : 24 < frame.length)
      (fresh : Fresh (stampOf frame) now (600 * 1000000000))
      (made : protectAt payload key (stampOf frame) = .ok frame) :
      Judged now frame key (.ok payload)

variable {now : Instant} {frame key : Bytes} {result : Except CryptoFault Bytes}

theorem unseal_eq_unauthentic_iff (hlen : minLength ≤ frame.length)
    (hkey : key.length = 32 ∧ key.isZero = false) :
    unsealBytes key (frame.take stampLength) (frame.drop stampLength) = .error .unauthentic ↔
      ∀ payload, protectAt payload key (stampOf frame) ≠ .ok frame := by
  have htag : tagLength ≤ (frame.drop stampLength).length := by
    rw [List.length_drop]
    simp only [minLength, stampLength, tagLength] at hlen ⊢
    omega
  rw [unsealBytes_eq_unauthentic_iff hkey htag]
  simp only [ne_eq, ← unsealBytes_iff_protectAt hlen, unsealBytes_eq_ok_iff_seal]

/-- Every frame is judged to give what it gives. -/
theorem judged_outcome (hnow : 0 ≤ now.nanoseconds) (frame key : Bytes) :
    Judged now frame key (unprotect now frame key).outcome := by
  -- in the order of the checks: the length, the window, the key, the tag
  rcases Nat.lt_or_ge frame.length minLength with hlen | hlen
  · rw [unprotect_of_short hlen]
    exact .tooShort (Nat.le_of_lt_succ hlen)
  cases hwindow : checkWindow (stampOf frame) now frameDelay with
  | error fault =>
    rw [unprotect_of_window hlen hwindow]
    cases fault with
    | inFuture => exact .inFuture hlen ((checkWindow_eq_inFuture_iff hnow).1 hwindow)
    | tooOld => exact .tooOld hlen ((checkWindow_eq_tooOld_iff hnow).1 hwindow)
  | ok u =>
    have hfresh := (checkWindow_eq_ok_iff hnow).1 hwindow
    rw [unprotect_of_fresh hlen hwindow, Report.outcome_ofExcept]
    by_cases hkeyLength : key.length = 32
    · cases hzero : key.isZero with
      | true =>
        rw [unsealBytes_of_error (nonzeroOctetsOf_of_isZero _ hkeyLength hzero)]
        exact .keyZero hlen hfresh hkeyLength (Bytes.isZero_iff.1 hzero)
      | false =>
        have hkey : key.length = 32 ∧ key.isZero = false := ⟨hkeyLength, hzero⟩
        by_cases hmade : ∃ payload, protectAt payload key (stampOf frame) = .ok frame
        · obtain ⟨payload, hmade⟩ := hmade
          rw [(unsealBytes_iff_protectAt hlen).2 hmade]
          exact .opened hlen hfresh hmade
        · rw [(unseal_eq_unauthentic_iff hlen hkey).2 (not_exists.1 hmade)]
          exact .unauthentic hlen hfresh hkeyLength (Bytes.isZero_eq_false_iff.1 hzero)
            (not_exists.1 hmade)
    · rw [unsealBytes_of_error (nonzeroOctetsOf_of_length_ne _ hkeyLength)]
      exact .keyLength hlen hfresh hkeyLength

/-- **A frame gives what it is judged to give**, and nothing else. -/
theorem outcome_unprotect_iff_judged (hnow : 0 ≤ now.nanoseconds) :
    (unprotect now frame key).outcome = result ↔ Judged now frame key result := by
  refine ⟨fun h => h ▸ judged_outcome hnow frame key, fun h => ?_⟩
  -- inside the window, what remains is opening what the frame seals
  have hopen : ∀ {result : Except CryptoFault Bytes}, 24 < frame.length →
      Fresh (stampOf frame) now (600 * 1000000000) →
      unsealBytes key (frame.take stampLength) (frame.drop stampLength) = result →
      (unprotect now frame key).outcome = result := by
    intro result hlen hfresh hresult
    rw [unprotect_of_fresh hlen ((checkWindow_eq_ok_iff hnow).2 hfresh), ← hresult]
    rfl
  cases h with
  | tooShort short => rw [unprotect_of_short (Nat.lt_succ_of_le short)]; rfl
  | inFuture long early => rw [unprotect_of_window long ((checkWindow_eq_inFuture_iff hnow).2 early)]
  | tooOld long late => rw [unprotect_of_window long ((checkWindow_eq_tooOld_iff hnow).2 late)]
  | keyLength long fresh wrong =>
    exact hopen long fresh (unsealBytes_of_error (nonzeroOctetsOf_of_length_ne _ wrong) _ _)
  | keyZero long fresh length zero =>
    have hzero := Bytes.isZero_iff.2 zero
    exact hopen long fresh (unsealBytes_of_error (nonzeroOctetsOf_of_isZero _ length hzero) _ _)
  | unauthentic long fresh length nonzero unmade =>
    have hkey : key.length = 32 ∧ key.isZero = false :=
      ⟨length, Bytes.isZero_eq_false_iff.2 nonzero⟩
    exact hopen long fresh ((unseal_eq_unauthentic_iff long hkey).2 unmade)
  | opened long fresh made => exact hopen long fresh ((unsealBytes_iff_protectAt long).2 made)

/-- **The refusals for the time stamp are reported**, and nothing else. -/
theorem lines_unprotect (now : Instant) (frame key : Bytes) :
    (unprotect now frame key).events.map Event.line =
      reportedLines frame ((unprotect now frame key).outcome.mapError .crypto) := by
  rw [events_unprotect, map_line_openingEvents]

end Frame

/-! ## Messages -/

namespace SignerMaterial

/-- **What comes of a message**, by the first check that it does not pass. What is wrong with its
frame comes first; the checks after that are those of the opened string. -/
inductive Judged (m : SignerMaterial) (now : Instant) (frame topicKey : Bytes) :
    Except MaterialFault Bytes → Prop where
  | refused {fault : CryptoFault} (frameRefused : Frame.Judged now frame topicKey (.error fault)) :
      Judged m now frame topicKey (.error (.crypto fault))
  | tooShort {opened : Bytes} (frameOpened : Frame.Judged now frame topicKey (.ok opened))
      (short : opened.length < 81) :
      Judged m now frame topicKey (.error (.messageTooShort opened.length))
  | version {first : UInt8} {rest : Bytes}
      (frameOpened : Frame.Judged now frame topicKey (.ok (first :: rest)))
      (long : 81 ≤ (first :: rest).length) (wrong : first ≠ 1) :
      Judged m now frame topicKey (.error (.unsupportedVersion first))
  | signerUnknown {id : Id} {rest : Bytes}
      (frameOpened : Frame.Judged now frame topicKey (.ok (1 :: (id.octets.toList ++ rest))))
      (long : 64 ≤ rest.length) (unknown : m.directory.get? id = none) :
      Judged m now frame topicKey (.error (.signerUnknown id))
  | badSignature {id : Id} {signature : Octets 64} {payload : Bytes} {key : PublicKey}
      {fault : Signature.Fault}
      (frameOpened : Frame.Judged now frame topicKey
        (.ok (1 :: (id.octets.toList ++ signature.toList ++ payload))))
      (known : m.directory.get? id = some key)
      (wrong : key.verify (1 :: (id.octets.toList ++ payload)) signature = .error fault) :
      Judged m now frame topicKey (.error .badSignature)
  | opened {id : Id} {signature : Octets 64} {payload : Bytes} {key : PublicKey}
      (frameOpened : Frame.Judged now frame topicKey
        (.ok (1 :: (id.octets.toList ++ signature.toList ++ payload))))
      (known : m.directory.get? id = some key)
      (genuine : key.verify (1 :: (id.octets.toList ++ payload)) signature = .ok ()) :
      Judged m now frame topicKey (.ok payload)

variable {m : SignerMaterial} {now : Instant} {frame topicKey : Bytes}
variable {result : Except MaterialFault Bytes}

/-- Every message is judged to give what it gives. -/
theorem judged_outcome (hnow : 0 ≤ now.nanoseconds) (m : SignerMaterial) (frame topicKey : Bytes) :
    m.Judged now frame topicKey (m.unprotect now frame topicKey).outcome := by
  -- in the order of the checks: the frame, the form of what it opens to, the signer, the signature
  have hframe := Frame.judged_outcome hnow frame topicKey
  cases hopened : (Frame.unprotect now frame topicKey).outcome with
  | error fault =>
    rw [hopened] at hframe
    rw [unprotect_of_refused hopened]
    exact .refused hframe
  | ok opened =>
    rw [hopened] at hframe
    rcases SignedMessage.ofBytes_cases opened with
      ⟨hshort, hread⟩ | ⟨first, rest, rfl, hlong, hfirst, hread⟩ | ⟨message, rfl⟩
    · rw [unprotect_of_unreadable hopened hread]
      exact .tooShort hframe hshort
    · rw [unprotect_of_unreadable hopened hread]
      exact .version hframe hlong hfirst
    · cases hkey : SortedMap.get? m.directory message.signer with
      | none =>
        have hlong : 64 ≤ (message.signature.toList ++ message.payload).length := by
          rw [List.length_append, message.signature.length_toList]
          omega
        rw [unprotect_of_unknown hopened hkey]
        rw [SignedMessage.toBytes, List.append_assoc] at hframe
        exact .signerUnknown hframe hlong hkey
      | some key =>
        rw [unprotect_of_known hopened hkey, Report.outcome_ofExcept]
        unfold SignedMessage.verify
        cases hverify : key.verify (SignedMessage.signedBytes message.signer message.payload)
            message.signature with
        | error fault => exact .badSignature hframe hkey hverify
        | ok u => exact .opened hframe hkey hverify

/-- **A message gives what it is judged to give**, and nothing else. -/
theorem outcome_unprotect_iff_judged (hnow : 0 ≤ now.nanoseconds) :
    (m.unprotect now frame topicKey).outcome = result ↔ m.Judged now frame topicKey result := by
  refine ⟨fun h => h ▸ judged_outcome hnow m frame topicKey, fun h => ?_⟩
  cases h with
  | refused frameRefused =>
    rw [unprotect_of_refused ((Frame.outcome_unprotect_iff_judged hnow).2 frameRefused)]
  | tooShort frameOpened short =>
    have hopened := (Frame.outcome_unprotect_iff_judged hnow).2 frameOpened
    rw [unprotect_of_unreadable hopened (SignedMessage.ofBytes_of_short short)]
    rfl
  | version frameOpened long wrong =>
    have hopened := (Frame.outcome_unprotect_iff_judged hnow).2 frameOpened
    rw [unprotect_of_unreadable hopened (SignedMessage.ofBytes_of_version long wrong)]
    rfl
  | @signerUnknown id rest frameOpened long unknown =>
    obtain ⟨message, hmessage, hsigner⟩ := SignedMessage.exists_of_signer id long
    have hopened : (Frame.unprotect now frame topicKey).outcome = .ok message.toBytes :=
      ((Frame.outcome_unprotect_iff_judged hnow).2 frameOpened).trans (congrArg _ hmessage.symm)
    rw [unprotect_of_unknown hopened (hsigner.symm ▸ unknown), hsigner]
  | @badSignature id signature payload key fault frameOpened known wrong =>
    have hopened : _ = Except.ok (SignedMessage.toBytes ⟨id, signature, payload⟩) :=
      (Frame.outcome_unprotect_iff_judged hnow).2 frameOpened
    have hverify : SignedMessage.verify ⟨id, signature, payload⟩ key = .error .badSignature :=
      congrArg (Except.mapError _) wrong
    rw [unprotect_of_known hopened known, hverify]
    rfl
  | @opened id signature payload key frameOpened known genuine =>
    have hopened : _ = Except.ok (SignedMessage.toBytes ⟨id, signature, payload⟩) :=
      (Frame.outcome_unprotect_iff_judged hnow).2 frameOpened
    rw [unprotect_of_known hopened known, SignedMessage.verify_eq_ok_iff.2 genuine]
    rfl

/-- **The refusals for the time stamp and the unknown signers are reported**, and nothing else. -/
theorem lines_unprotect (m : SignerMaterial) (now : Instant) (frame topicKey : Bytes) :
    (m.unprotect now frame topicKey).events.map Event.line =
      reportedLines frame (m.unprotect now frame topicKey).outcome := by
  rw [events_unprotect, map_line_openingEvents]

/-- **Opening refuses in a fixed order and tells nothing more than its result.** A frame has the
result of the first check it does not pass: its length, its time stamp, which may lie in the future
or more than 600 s ago, the length of the key, that the key is not zero, and that some payload is
written as this frame. A message of a signer has the result of its frame or, from what the frame
holds, that of its own checks: its length, its version, its signer, whom the directory must know, and
its signature. Only the two refusals for the time stamp and that of the signer are reported, with the
stamp and with the identifier. -/
theorem refusals_in_order (now : Instant) (hnow : 0 ≤ now.nanoseconds) (frame topicKey : Bytes) :
    (∀ result, (Frame.unprotect now frame topicKey).outcome = result ↔
      Frame.Judged now frame topicKey result) ∧
    (Frame.unprotect now frame topicKey).events.map Event.line =
      reportedLines frame ((Frame.unprotect now frame topicKey).outcome.mapError .crypto) ∧
    ∀ m : SignerMaterial,
      (∀ result, (m.unprotect now frame topicKey).outcome = result ↔
        m.Judged now frame topicKey result) ∧
      (m.unprotect now frame topicKey).events.map Event.line =
        reportedLines frame (m.unprotect now frame topicKey).outcome :=
  ⟨fun _ => Frame.outcome_unprotect_iff_judged hnow, Frame.lines_unprotect now frame topicKey,
    fun m => ⟨fun _ => outcome_unprotect_iff_judged hnow, m.lines_unprotect now frame topicKey⟩⟩

/-- At the epoch, a frame of 25 bytes with the stamp of the second after it. The key, which has no
bytes, is not looked at. -/
theorem refusals_in_order_ahead :
    0 ≤ Instant.epoch.nanoseconds ∧
      (Frame.unprotect .epoch (1 :: List.replicate 24 0) []).outcome = .error (.window .inFuture) ∧
      (Frame.unprotect .epoch (1 :: List.replicate 24 0) []).events.map Event.line =
        ["WARN rejecting protected frame with timestamp 1: timestamp received is in the future"] := by
  have hnow : 0 ≤ Instant.epoch.nanoseconds := by decide
  obtain ⟨hjudged, hlines, -⟩ := refusals_in_order .epoch hnow (1 :: List.replicate 24 0) []
  have hrefused := (hjudged (.error (.window .inFuture))).2 (.inFuture (by decide) (by decide))
  refine ⟨hnow, hrefused, ?_⟩
  rw [hlines, hrefused]
  rfl

end SignerMaterial

end SealedMessaging
