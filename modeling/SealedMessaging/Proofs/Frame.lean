import SealedMessaging.Frame
import SealedMessaging.Proofs.Sealing
import SealedMessaging.Proofs.Window

/-!
# Frames are canonical

A frame opens to a payload exactly when it is the frame that protecting this payload writes, at a
second whose window holds the present instant. So there is at most one frame for a key, a second and
a payload, and opening accepts no other string.

* `Frame.stampOf_append`, `Frame.stampBytes_stampOf`: the time stamp in front of a frame.
* `Frame.unprotect_of_short`, `Frame.unprotect_of_window`, `Frame.unprotect_of_fresh`: the cases of
  opening.
* `Frame.outcome_unprotect_eq_ok_iff`: opening, as its three checks.
* `Frame.unprotect_iff_protectAt`: the frame format decodes exactly what it encodes.
-/

namespace SealedMessaging.Frame

/-! ## The time stamp -/

theorem length_stampBytes (stamp : UInt64) : (stampBytes stamp).length = stampLength :=
  Bytes.length_ofNat _ _

theorem take_stampBytes_append (stamp : UInt64) (bs : Bytes) :
    (stampBytes stamp ++ bs).take stampLength = stampBytes stamp :=
  List.take_left' (length_stampBytes stamp)

theorem stampOf_append (stamp : UInt64) (bs : Bytes) : stampOf (stampBytes stamp ++ bs) = stamp := by
  unfold stampOf
  rw [take_stampBytes_append]
  unfold stampBytes
  have hlt : stamp.toNat < Nat.pow 256 stampLength := stamp.toNat_lt
  rw [Bytes.toNat_ofNat, Nat.mod_eq_of_lt hlt, UInt64.ofNat_toNat]

theorem stampBytes_injective : Function.Injective stampBytes := by
  intro stamp stamp' h
  rw [← stampOf_append stamp [], h, stampOf_append]

theorem stampBytes_stampOf {frame : Bytes} (h : stampLength ≤ frame.length) :
    stampBytes (stampOf frame) = frame.take stampLength := by
  have hlen : (frame.take stampLength).length = stampLength := List.length_take_of_le h
  have hlt := Bytes.toNat_lt (frame.take stampLength)
  rw [hlen] at hlt
  have hstamp : (stampOf frame).toNat = Bytes.toNat (frame.take stampLength) := by
    unfold stampOf
    rw [UInt64.toNat_ofNat']
    exact Nat.mod_eq_of_lt hlt
  have hread := Bytes.ofNat_toNat (frame.take stampLength)
  rw [hlen] at hread
  rw [stampBytes, hstamp, hread]

/-! ## Protecting and opening -/

theorem protectAt_eq_ok_iff {payload key frame : Bytes} {stamp : UInt64} :
    protectAt payload key stamp = .ok frame ↔
      ∃ sealed, sealBytes key (stampBytes stamp) payload = .ok sealed ∧
        stampBytes stamp ++ sealed = frame := by
  unfold protectAt
  simp only [Except.bind_eq_ok_iff, Except.pure_eq_ok_iff]

/-- **Protecting succeeds for the keys that pass their check**, whatever the payload. -/
theorem exists_protectAt_iff (payload key : Bytes) (stamp : UInt64) :
    (∃ frame, protectAt payload key stamp = .ok frame) ↔ key.length = 32 ∧ key.isZero = false := by
  rw [← exists_sealBytes_iff key (stampBytes stamp) payload]
  constructor
  · rintro ⟨frame, h⟩
    obtain ⟨sealed, hs, -⟩ := protectAt_eq_ok_iff.1 h
    exact ⟨sealed, hs⟩
  · rintro ⟨sealed, hs⟩
    exact ⟨_, protectAt_eq_ok_iff.2 ⟨sealed, hs, rfl⟩⟩

/-- A frame is its time stamp and a sealed string of the length of the payload and a tag. -/
theorem exists_sealed_of_protectAt {payload key frame : Bytes} {stamp : UInt64}
    (h : protectAt payload key stamp = .ok frame) :
    ∃ sealed, frame = stampBytes stamp ++ sealed ∧ sealed.length = payload.length + 16 := by
  obtain ⟨sealed, hs, hframe⟩ := protectAt_eq_ok_iff.1 h
  exact ⟨sealed, hframe.symm, length_of_sealBytes hs⟩

/-- What is written has the length that is expected of it, so a check of this length never fails. -/
theorem length_of_protectAt {payload key frame : Bytes} {stamp : UInt64}
    (h : protectAt payload key stamp = .ok frame) :
    frame.length = stampLength + payload.length + tagLength := by
  obtain ⟨sealed, rfl, hlen⟩ := exists_sealed_of_protectAt h
  rw [List.length_append, length_stampBytes, hlen, Nat.add_assoc]
  rfl

theorem stampOf_of_protectAt {payload key frame : Bytes} {stamp : UInt64}
    (h : protectAt payload key stamp = .ok frame) : stampOf frame = stamp := by
  obtain ⟨sealed, rfl, -⟩ := exists_sealed_of_protectAt h
  exact stampOf_append stamp sealed

/-! ## The checks of opening -/

section Checks

variable {now : Instant} {frame key : Bytes}

theorem unprotect_of_short (hlen : frame.length < minLength) :
    unprotect now frame key = .fail (.tooShort frame.length minLength) :=
  if_pos hlen

theorem unprotect_of_window {fault : WindowFault} (hlen : minLength ≤ frame.length)
    (hwindow : checkWindow (stampOf frame) now frameDelay = .error fault) :
    unprotect now frame key = ⟨.error (.window fault), [.frameRefused (stampOf frame) fault]⟩ := by
  unfold unprotect
  rw [if_neg (Nat.not_lt.2 hlen), hwindow]
  rfl

/-- Inside its window a frame opens as what it seals does. -/
theorem unprotect_of_fresh (hlen : minLength ≤ frame.length)
    (hwindow : checkWindow (stampOf frame) now frameDelay = .ok ()) :
    unprotect now frame key =
      .ofExcept (unsealBytes key (frame.take stampLength) (frame.drop stampLength)) := by
  unfold unprotect
  rw [if_neg (Nat.not_lt.2 hlen), hwindow]

end Checks

/-- **Opening succeeds when its three checks pass**: the length, the window and the seal. -/
theorem outcome_unprotect_eq_ok_iff {now : Instant} {frame key payload : Bytes} :
    (unprotect now frame key).outcome = .ok payload ↔
      minLength ≤ frame.length ∧ checkWindow (stampOf frame) now frameDelay = .ok () ∧
        unsealBytes key (frame.take stampLength) (frame.drop stampLength) = .ok payload := by
  rcases Nat.lt_or_ge frame.length minLength with hlen | hlen
  · have hshort : ¬ minLength ≤ frame.length := Nat.not_le.2 hlen
    rw [unprotect_of_short hlen]
    simp [hshort]
  · cases hwindow : checkWindow (stampOf frame) now frameDelay with
    | error fault =>
      rw [unprotect_of_window hlen hwindow]
      simp
    | ok u =>
      rw [unprotect_of_fresh hlen hwindow, Report.outcome_ofExcept]
      simp [hlen]

/-- A frame in its window opens as what it seals does, if that is longer than a tag. -/
theorem outcome_unprotect_append {stamp : UInt64} {now : Instant} {sealed : Bytes}
    (hlen : 16 < sealed.length) (hfresh : Fresh stamp now (600 * 1000000000)) (key : Bytes) :
    (unprotect now (stampBytes stamp ++ sealed) key).outcome =
      unsealBytes key (stampBytes stamp) sealed := by
  have hlong : minLength ≤ (stampBytes stamp ++ sealed).length := by
    rw [List.length_append, length_stampBytes]
    simp only [minLength, stampLength, tagLength]
    omega
  have hwindow : checkWindow (stampOf (stampBytes stamp ++ sealed)) now frameDelay = .ok () := by
    rw [stampOf_append]
    exact (checkWindow_eq_ok_iff hfresh.nonneg).2 hfresh
  rw [unprotect_of_fresh hlong hwindow, Report.outcome_ofExcept, take_stampBytes_append,
    List.drop_left' (length_stampBytes stamp)]

/-- What opens is not reported. -/
theorem unprotect_of_opened {now : Instant} {frame key payload : Bytes}
    (h : (unprotect now frame key).outcome = .ok payload) :
    unprotect now frame key = .ofExcept (.ok payload) := by
  obtain ⟨hlen, hwindow, hopen⟩ := outcome_unprotect_eq_ok_iff.1 h
  rw [unprotect_of_fresh hlen hwindow, hopen]

/-- A key that passes its check is not what opening a frame fails for. -/
theorem outcome_unprotect_ne_input {now : Instant} {frame key : Bytes}
    (hkey : key.length = 32 ∧ key.isZero = false) (fault : InputFault) :
    (unprotect now frame key).outcome ≠ .error (.input fault) := by
  rcases Nat.lt_or_ge frame.length minLength with hlen | hlen
  · rw [unprotect_of_short hlen, Report.outcome_fail]
    exact nofun
  · cases hwindow : checkWindow (stampOf frame) now frameDelay with
    | error window =>
      rw [unprotect_of_window hlen hwindow]
      exact nofun
    | ok u =>
      rw [unprotect_of_fresh hlen hwindow, Report.outcome_ofExcept]
      exact unsealBytes_ne_input hkey fault

/-- A frame long enough opens, its window apart, when it is the frame of its payload at its own
time stamp. -/
theorem unsealBytes_iff_protectAt {frame key payload : Bytes} (hlen : minLength ≤ frame.length) :
    unsealBytes key (frame.take stampLength) (frame.drop stampLength) = .ok payload ↔
      protectAt payload key (stampOf frame) = .ok frame := by
  have hstamp : stampLength ≤ frame.length := Nat.le_trans (by decide) hlen
  have hbytes := stampBytes_stampOf hstamp
  rw [unsealBytes_eq_ok_iff_seal, protectAt_eq_ok_iff, hbytes]
  constructor
  · intro h
    exact ⟨_, h, List.take_append_drop _ _⟩
  · rintro ⟨sealed, hs, hframe⟩
    have hdrop : frame.drop stampLength = sealed :=
      List.append_cancel_left ((List.take_append_drop stampLength frame).trans hframe.symm)
    rw [hdrop]
    exact hs

theorem minLength_le_iff {payload key frame : Bytes} {stamp : UInt64}
    (h : protectAt payload key stamp = .ok frame) : minLength ≤ frame.length ↔ payload ≠ [] := by
  rw [length_of_protectAt h, ← List.length_pos_iff]
  simp only [minLength, stampLength, tagLength]
  omega

/-- **Opening accepts the frames that protecting writes**, inside their windows, and nothing else. -/
theorem outcome_unprotect_iff_exists {now : Instant} (hnow : 0 ≤ now.nanoseconds)
    {frame key payload : Bytes} :
    (unprotect now frame key).outcome = .ok payload ↔
      payload ≠ [] ∧ ∃ stamp : UInt64, Fresh stamp now (600 * 1000000000) ∧
        protectAt payload key stamp = .ok frame := by
  rw [outcome_unprotect_eq_ok_iff]
  constructor
  · rintro ⟨hlen, hwindow, hopen⟩
    have hframe := (unsealBytes_iff_protectAt hlen).1 hopen
    exact ⟨(minLength_le_iff hframe).1 hlen, stampOf frame,
      (checkWindow_eq_ok_iff hnow).1 hwindow, hframe⟩
  · rintro ⟨hne, stamp, hfresh, hframe⟩
    have hlen := (minLength_le_iff hframe).2 hne
    have hstamp := stampOf_of_protectAt hframe
    refine ⟨hlen, ?_, ?_⟩
    · rw [hstamp]
      exact (checkWindow_eq_ok_iff hnow).2 hfresh
    · rw [unsealBytes_iff_protectAt hlen, hstamp]
      exact hframe

/-- What is protected at an instant opens in time. -/
theorem outcome_unprotect_of_protect {sent now : Instant} (hsent : 0 ≤ sent.nanoseconds)
    (htime : InTime sent now) {payload key frame : Bytes} (hne : payload ≠ [])
    (h : protect sent payload key = .ok frame) : (unprotect now frame key).outcome = .ok payload := by
  obtain ⟨hnow, hfresh⟩ := htime.fresh hsent
  exact (outcome_unprotect_iff_exists hnow).2 ⟨hne, sent.unixSeconds, hfresh, h⟩

/-- **The frame format decodes exactly what it encodes.** A frame opens to a payload if and only if
the payload is not empty and the frame is what protecting the payload writes at some second `stamp`
with `stamp ≤ now ≤ stamp + 600 s`. Protecting, of an empty payload too, succeeds exactly for keys of
32 bytes that are not all zero, and writes the second in eight bytes, the lowest first, and then
sixteen bytes more than the payload has. -/
theorem unprotect_iff_protectAt (now : Instant) (hnow : 0 ≤ now.nanoseconds)
    (frame key payload : Bytes) :
    ((unprotect now frame key).outcome = .ok payload ↔
      payload ≠ [] ∧ ∃ stamp : UInt64, Fresh stamp now (600 * 1000000000) ∧
        protectAt payload key stamp = .ok frame) ∧
    ∀ stamp : UInt64,
      ((∃ written, protectAt payload key stamp = .ok written) ↔
        key.length = 32 ∧ ∃ b ∈ key, b ≠ 0) ∧
      ∀ written, protectAt payload key stamp = .ok written →
        ∃ sealed, written = Bytes.ofNat 8 stamp.toNat ++ sealed ∧
          sealed.length = payload.length + 16 := by
  refine ⟨outcome_unprotect_iff_exists hnow, fun stamp => ⟨?_, fun written h => ?_⟩⟩
  · rw [exists_protectAt_iff, Bytes.isZero_eq_false_iff]
  · exact exists_sealed_of_protectAt h

/-- A payload of one byte, protected and opened at the epoch. -/
theorem unprotect_iff_protectAt_epoch :
    0 ≤ Instant.epoch.nanoseconds ∧
      ∃ frame, protectAt [7] (List.replicate 32 1) 0 = .ok frame ∧
        (unprotect Instant.epoch frame (List.replicate 32 1)).outcome = .ok [7] := by
  have hnow : 0 ≤ Instant.epoch.nanoseconds := by decide
  obtain ⟨frame, hframe⟩ :=
    ((unprotect_iff_protectAt _ hnow [] (List.replicate 32 1) [7]).2 0).1.2 ⟨rfl, 1, by decide⟩
  refine ⟨hnow, frame, hframe, ?_⟩
  exact (unprotect_iff_protectAt _ hnow frame _ _).1.2 ⟨by decide, 0, by decide, hframe⟩

end SealedMessaging.Frame
