import SealedMessaging.Frame
import SealedMessaging.Proofs.Bytes

/-!
# The replay window in exact nanoseconds

The window check compares spans part by part, and subtracts with a borrow and a cut at zero. Here it is
compared with a window stated on whole numbers of nanoseconds, where nothing is cut off.

* `Span.nanoseconds`, `Instant.nanoseconds`, `Fresh`: spans and instants as whole numbers, and the
  window.
* `Span.lt_iff_nanoseconds`, `Span.nanoseconds_minus`: the order and the difference of spans are those
  of the numbers.
* `checkFresh_eq`: the check, on numbers.
* `checkWindow_eq_ok_iff`, `checkWindow_eq_inFuture_iff`, `checkWindow_eq_tooOld_iff`: the check of a
  frame passes exactly inside the window, and what it reports outside.
* `window_exact`: the verdict for every time stamp, clock and delay, and how it changes with them.
* `InTime`: the window of what is sent at an instant, by the instant itself.
-/

namespace SealedMessaging

/-! ## Spans as numbers -/

namespace Span

/-- The nanoseconds of a span. -/
def nanoseconds (a : Span) : Nat :=
  a.seconds.toNat * 1000000000 + a.nanos.val

theorem nanos_lt (a : Span) : a.nanos.val < 1000000000 := a.nanos.isLt

theorem nanoseconds_ofSeconds (seconds : UInt64) :
    (ofSeconds seconds).nanoseconds = seconds.toNat * 1000000000 :=
  Nat.add_zero _

/-- A number of nanoseconds that is not too large is that of a span. -/
theorem nanoseconds_ofNanos {n : Nat} (h : n < 18446744073709551616 * 1000000000) :
    (ofNanos n).nanoseconds = n := by
  have hseconds : n / 1000000000 < 18446744073709551616 := by omega
  unfold ofNanos nanoseconds nanosPerSecond
  dsimp only
  rw [UInt64.toNat_ofNat', Nat.mod_eq_of_lt hseconds]
  omega

/-- **Spans are ordered like their nanoseconds.** -/
theorem lt_iff_nanoseconds {a b : Span} : a < b ↔ a.nanoseconds < b.nanoseconds := by
  have hparts : a < b ↔ a.seconds.toNat < b.seconds.toNat ∨
      a.seconds.toNat = b.seconds.toNat ∧ a.nanos.val < b.nanos.val := by
    rw [UInt64.toNat_inj, ← UInt64.lt_iff_toNat_lt]
    exact Iff.rfl
  have ha := a.nanos_lt
  have hb := b.nanos_lt
  rw [hparts]
  unfold nanoseconds
  omega

/-- **The difference of spans is that of their nanoseconds**, with the borrow and the cut at zero. -/
theorem nanoseconds_minus (a b : Span) :
    (a.minus b).nanoseconds = a.nanoseconds - b.nanoseconds := by
  have ha := a.nanos_lt
  have hb := b.nanos_lt
  have hcut : (ofSeconds 0).nanoseconds = 0 := nanoseconds_ofSeconds 0
  unfold minus minus?
  by_cases hshort : a.seconds < b.seconds
  · rw [if_pos hshort, Option.getD_none, hcut]
    rw [UInt64.lt_iff_toNat_lt] at hshort
    unfold nanoseconds
    omega
  · rw [if_neg hshort]
    have hle : b.seconds ≤ a.seconds := UInt64.not_lt.1 hshort
    have hseconds : (a.seconds - b.seconds).toNat = a.seconds.toNat - b.seconds.toNat :=
      UInt64.toNat_sub_of_le _ _ hle
    rw [UInt64.le_iff_toNat_le] at hle
    by_cases hborrow : b.nanos ≤ a.nanos
    · have hnanos : b.nanos.val ≤ a.nanos.val := hborrow
      simp only [dif_pos hborrow, Option.getD_some, nanoseconds, hseconds]
      omega
    · have hnanos : a.nanos.val < b.nanos.val := Nat.not_le.1 hborrow
      by_cases hzero : a.seconds - b.seconds = 0
      · -- nothing can be borrowed, so the difference is cut off
        rw [hzero] at hseconds
        have hsame : a.seconds.toNat ≤ b.seconds.toNat := Nat.le_of_sub_eq_zero hseconds.symm
        simp only [dif_neg hborrow, if_pos hzero, Option.getD_none, hcut]
        unfold nanoseconds
        omega
      · have hpos : 1 ≤ (a.seconds - b.seconds).toNat :=
          Nat.one_le_iff_ne_zero.2 fun h => hzero (UInt64.toNat_inj.1 h)
        have hless : (a.seconds - b.seconds - 1).toNat = (a.seconds - b.seconds).toNat - 1 :=
          UInt64.toNat_sub_of_le _ _ (UInt64.le_iff_toNat_le.2 hpos)
        simp only [dif_neg hborrow, if_neg hzero, Option.getD_some, nanoseconds, hless, hseconds]
        unfold nanosPerSecond
        omega

end Span

/-! ## Instants as numbers -/

namespace Instant

/-- The nanoseconds from the epoch to an instant, negative before it. -/
def nanoseconds (t : Instant) : Int :=
  t.seconds.toInt * 1000000000 + t.nanos.val

/-- The span from the epoch is as long as it should be, cut off at zero. -/
theorem nanoseconds_sinceEpoch (t : Instant) :
    t.sinceEpoch.nanoseconds = t.nanoseconds.toNat := by
  have hnanos : t.nanos.val < 1000000000 := t.nanos.isLt
  unfold sinceEpoch nanoseconds
  by_cases hneg : t.seconds < 0
  · have hseconds : t.seconds.toInt < 0 := Int64.lt_iff_toInt_lt.1 hneg
    have hzero : (Span.ofSeconds 0).nanoseconds = 0 := Span.nanoseconds_ofSeconds 0
    rw [if_pos hneg, hzero]
    omega
  · have hseconds : 0 ≤ t.seconds.toInt := Int64.le_iff_toInt_le.1 (Int64.not_lt.1 hneg)
    have hword : t.seconds.toUInt64.toNat = t.seconds.toInt.toNat := by
      rw [Int64.toNat_toUInt64_of_le (Int64.not_lt.1 hneg), Int64.toNat_toInt]
    rw [if_neg hneg]
    simp only [Span.nanoseconds, hword]
    omega

theorem sinceEpoch_eq {t : Instant} (h : 0 ≤ t.nanoseconds) :
    (t.sinceEpoch.nanoseconds : Int) = t.nanoseconds := by
  rw [nanoseconds_sinceEpoch]
  exact Int.toNat_of_nonneg h

end Instant

/-! ## The window -/

/-- **The window of a time stamp**: an instant not before it and not later than the delay allows. -/
def Fresh (stamp : UInt64) (now : Instant) (delay : Nat) : Prop :=
  (stamp.toNat : Int) * 1000000000 ≤ now.nanoseconds ∧
    now.nanoseconds ≤ (stamp.toNat : Int) * 1000000000 + delay

instance (stamp : UInt64) (now : Instant) (delay : Nat) : Decidable (Fresh stamp now delay) :=
  inferInstanceAs (Decidable (_ ∧ _))

theorem Fresh.nonneg {stamp : UInt64} {now : Instant} {delay : Nat} (h : Fresh stamp now delay) :
    0 ≤ now.nanoseconds := by
  have hstamp : (0 : Int) ≤ stamp.toNat := Int.natCast_nonneg _
  have hfirst := h.1
  omega

/-- The verdict on a time stamp, from whole numbers of nanoseconds of any size. -/
def verdict (sent now delay : Nat) : Except WindowFault Unit :=
  if now < sent then .error .inFuture
  else if sent + delay < now then .error .tooOld
  else .ok ()

section Verdict

variable {sent now delay : Nat}

theorem verdict_eq_inFuture_iff : verdict sent now delay = .error .inFuture ↔ now < sent := by
  unfold verdict
  by_cases hfuture : now < sent
  · simp [hfuture]
  · by_cases hold : sent + delay < now <;> simp [hfuture, hold]

theorem verdict_eq_tooOld_iff : verdict sent now delay = .error .tooOld ↔ sent + delay < now := by
  unfold verdict
  by_cases hfuture : now < sent
  · have hnot : ¬ sent + delay < now := by omega
    simp [hfuture, hnot]
  · by_cases hold : sent + delay < now <;> simp [hfuture, hold]

theorem verdict_eq_ok_iff : verdict sent now delay = .ok () ↔ sent ≤ now ∧ now ≤ sent + delay := by
  unfold verdict
  by_cases hfuture : now < sent
  · have hnot : ¬ sent ≤ now := by omega
    simp [hfuture, hnot]
  · have hsent : sent ≤ now := by omega
    by_cases hold : sent + delay < now
    · simp [hfuture, hold]
    · simp [hfuture, hsent, Nat.not_lt.1 hold]

end Verdict

/-- **The check gives the verdict of the exact numbers**: no borrow, cut or wrap changes it. -/
theorem checkFresh_eq (stamp : UInt64) (now delay : Span) :
    checkFresh stamp now delay =
      verdict (stamp.toNat * 1000000000) now.nanoseconds delay.nanoseconds := by
  have hfuture : now < Span.ofSeconds stamp ↔ now.nanoseconds < stamp.toNat * 1000000000 := by
    rw [Span.lt_iff_nanoseconds, Span.nanoseconds_ofSeconds]
  have hold : Span.ofSeconds stamp < now.minus delay ↔
      stamp.toNat * 1000000000 + delay.nanoseconds < now.nanoseconds := by
    rw [Span.lt_iff_nanoseconds, Span.nanoseconds_ofSeconds, Span.nanoseconds_minus]
    omega
  unfold checkFresh verdict
  simp only [hfuture, hold]

theorem checkWindow_eq (stamp : UInt64) (now : Instant) {delay : Nat}
    (hdelay : delay < 18446744073709551616 * 1000000000) :
    checkWindow stamp now delay =
      verdict (stamp.toNat * 1000000000) now.nanoseconds.toNat delay := by
  unfold checkWindow
  rw [checkFresh_eq, Instant.nanoseconds_sinceEpoch, Span.nanoseconds_ofNanos hdelay]

/-! ## The window of a frame -/

section Frame

variable {stamp : UInt64} {now : Instant} (hnow : 0 ≤ now.nanoseconds)

include hnow

/-- **A frame passes exactly inside its window**, at every instant from the epoch on. -/
theorem checkWindow_eq_ok_iff :
    checkWindow stamp now frameDelay = .ok () ↔ Fresh stamp now (600 * 1000000000) := by
  rw [checkWindow_eq stamp now (by decide), verdict_eq_ok_iff]
  unfold Fresh frameDelay nanosPerSecond
  omega

/-- The check reports the future exactly for time stamps after the instant. -/
theorem checkWindow_eq_inFuture_iff :
    checkWindow stamp now frameDelay = .error .inFuture ↔
      now.nanoseconds < (stamp.toNat : Int) * 1000000000 := by
  rw [checkWindow_eq stamp now (by decide), verdict_eq_inFuture_iff]
  omega

/-- It reports old age exactly for those whose window has passed. -/
theorem checkWindow_eq_tooOld_iff :
    checkWindow stamp now frameDelay = .error .tooOld ↔
      (stamp.toNat : Int) * 1000000000 + 600 * 1000000000 < now.nanoseconds := by
  rw [checkWindow_eq stamp now (by decide), verdict_eq_tooOld_iff]
  unfold frameDelay nanosPerSecond
  omega

end Frame

/-! ## The verdict for every time stamp, clock and delay -/

/-- The time stamp of eight bytes is the number they write, the lowest byte first. -/
theorem Frame.toNat_stampOf (bytes : Octets 8) : (stampOf bytes.toList).toNat = bytes.toNat := by
  have hlt := Bytes.toNat_lt bytes.toList
  rw [bytes.length_toList] at hlt
  have hall : bytes.toList.take stampLength = bytes.toList :=
    List.take_of_length_le (Nat.le_of_eq bytes.length_toList)
  unfold stampOf
  rw [hall, UInt64.toNat_ofNat']
  exact Nat.mod_eq_of_lt hlt

/-- When each verdict is given on a time stamp of eight bytes. -/
theorem checkFresh_stampOf (bytes : Octets 8) (now delay : Span) :
    (checkFresh (Frame.stampOf bytes.toList) now delay = .error .inFuture ↔
      now.nanoseconds < bytes.toNat * 1000000000) ∧
    (checkFresh (Frame.stampOf bytes.toList) now delay = .error .tooOld ↔
      bytes.toNat * 1000000000 + delay.nanoseconds < now.nanoseconds) ∧
    (checkFresh (Frame.stampOf bytes.toList) now delay = .ok () ↔
      bytes.toNat * 1000000000 ≤ now.nanoseconds ∧
        now.nanoseconds ≤ bytes.toNat * 1000000000 + delay.nanoseconds) := by
  rw [checkFresh_eq, Frame.toNat_stampOf]
  exact ⟨verdict_eq_inFuture_iff, verdict_eq_tooOld_iff, verdict_eq_ok_iff⟩

/-- How far a clock has come, by the verdict: before a time stamp, in its window, or behind it. -/
def stage : Except WindowFault Unit → Nat
  | .error .inFuture => 0
  | .ok () => 1
  | .error .tooOld => 2

theorem stage_verdict_mono {sent now later delay : Nat} (h : now ≤ later) :
    stage (verdict sent now delay) ≤ stage (verdict sent later delay) := by
  rcases Nat.lt_or_ge now sent with hfuture | hsent
  · rw [verdict_eq_inFuture_iff.2 hfuture]
    exact Nat.zero_le _
  rcases Nat.lt_or_ge (sent + delay) later with hold | hfresh
  · rw [verdict_eq_tooOld_iff.2 hold]
    unfold stage
    split <;> decide
  · have hnow : verdict sent now delay = .ok () := verdict_eq_ok_iff.2 ⟨hsent, by omega⟩
    have hlater : verdict sent later delay = .ok () := verdict_eq_ok_iff.2 ⟨by omega, hfresh⟩
    exact Nat.le_of_eq (congrArg stage (hnow.trans hlater.symm))

theorem verdict_ok_mono {sent now delay longer : Nat} (h : delay ≤ longer)
    (hok : verdict sent now delay = .ok ()) : verdict sent now longer = .ok () := by
  obtain ⟨hsent, hfresh⟩ := verdict_eq_ok_iff.1 hok
  exact verdict_eq_ok_iff.2 ⟨hsent, by omega⟩

/-- **The replay window is exact.** For every time stamp of eight bytes and every delay of 64-bit
seconds and nanoseconds, at every instant from the epoch on: the stamp is in the future if and only if
it comes after the instant, it is too old if and only if the instant comes after the stamp and the
delay together, and it is fresh otherwise, all in whole nanoseconds without a bound. The same holds for
any span since the epoch up to the limit of 64-bit seconds, which no clock reaches. So a time stamp that
is fresh for one delay is fresh for every longer one, what is fresh for a frame is fresh around a change
of keys, and as the clock goes on the verdict goes from the future to the window to old age, and never
back. -/
theorem window_exact (bytes : Octets 8) (delay : Span) :
    (∀ now : Instant, 0 ≤ now.nanoseconds →
      (checkFresh (Frame.stampOf bytes.toList) now.sinceEpoch delay = .error .inFuture ↔
        now.nanoseconds < bytes.toNat * 1000000000) ∧
      (checkFresh (Frame.stampOf bytes.toList) now.sinceEpoch delay = .error .tooOld ↔
        bytes.toNat * 1000000000 + delay.nanoseconds < now.nanoseconds) ∧
      (checkFresh (Frame.stampOf bytes.toList) now.sinceEpoch delay = .ok () ↔
        bytes.toNat * 1000000000 ≤ now.nanoseconds ∧
          now.nanoseconds ≤ bytes.toNat * 1000000000 + delay.nanoseconds)) ∧
    (∀ now : Span,
      (checkFresh (Frame.stampOf bytes.toList) now delay = .error .inFuture ↔
        now.nanoseconds < bytes.toNat * 1000000000) ∧
      (checkFresh (Frame.stampOf bytes.toList) now delay = .error .tooOld ↔
        bytes.toNat * 1000000000 + delay.nanoseconds < now.nanoseconds) ∧
      (checkFresh (Frame.stampOf bytes.toList) now delay = .ok () ↔
        bytes.toNat * 1000000000 ≤ now.nanoseconds ∧
          now.nanoseconds ≤ bytes.toNat * 1000000000 + delay.nanoseconds)) ∧
    (∀ (now : Instant) (longer : Span), delay.nanoseconds ≤ longer.nanoseconds →
      checkFresh (Frame.stampOf bytes.toList) now.sinceEpoch delay = .ok () →
        checkFresh (Frame.stampOf bytes.toList) now.sinceEpoch longer = .ok ()) ∧
    (∀ now : Instant, checkWindow (Frame.stampOf bytes.toList) now frameDelay = .ok () →
      checkWindow (Frame.stampOf bytes.toList) now keyChangeDelay = .ok ()) ∧
    ∀ now later : Instant, now.nanoseconds ≤ later.nanoseconds →
      stage (checkFresh (Frame.stampOf bytes.toList) now.sinceEpoch delay) ≤
        stage (checkFresh (Frame.stampOf bytes.toList) later.sinceEpoch delay) := by
  refine ⟨fun now hnow => ?_, fun now => checkFresh_stampOf bytes now delay,
    fun now longer hlonger hok => ?_, fun now hok => ?_, fun now later hlater => ?_⟩
  · have hsince := Instant.sinceEpoch_eq hnow
    obtain ⟨hfuture, hold, hfresh⟩ := checkFresh_stampOf bytes now.sinceEpoch delay
    rw [hfuture, hold, hfresh]
    omega
  · rw [checkFresh_eq] at hok ⊢
    exact verdict_ok_mono hlonger hok
  · rw [checkWindow_eq _ now (by decide)] at hok ⊢
    exact verdict_ok_mono (by decide) hok
  · rw [checkFresh_eq, checkFresh_eq, Instant.nanoseconds_sinceEpoch,
      Instant.nanoseconds_sinceEpoch]
    exact stage_verdict_mono (Int.toNat_le_toNat hlater)

/-- The last nanosecond of a window of 2 seconds and a half, and the first one after it; the greatest
delay there is, which reaches back behind the epoch. -/
theorem window_exact_edges :
    checkFresh (Frame.stampOf (Octets.ofNat 8 7).toList)
        (Instant.sinceEpoch ⟨9, ⟨500000000, by decide⟩⟩) ⟨2, ⟨500000000, by decide⟩⟩ = .ok () ∧
      checkFresh (Frame.stampOf (Octets.ofNat 8 7).toList)
        (Instant.sinceEpoch ⟨9, ⟨500000001, by decide⟩⟩) ⟨2, ⟨500000000, by decide⟩⟩ =
          .error .tooOld ∧
      checkFresh (Frame.stampOf (Octets.ofNat 8 7).toList)
        (Instant.sinceEpoch ⟨9, ⟨0, by decide⟩⟩) ⟨0xFFFFFFFFFFFFFFFF, ⟨999999999, by decide⟩⟩ = .ok () := by
  obtain ⟨hexact, -, hlonger, -⟩ :=
    window_exact (Octets.ofNat 8 7) ⟨2, ⟨500000000, by decide⟩⟩
  have hearly : checkFresh (Frame.stampOf (Octets.ofNat 8 7).toList)
      (Instant.sinceEpoch ⟨9, ⟨0, by decide⟩⟩) ⟨2, ⟨500000000, by decide⟩⟩ = .ok () :=
    (hexact ⟨9, ⟨0, by decide⟩⟩ (by decide)).2.2.2 (by decide)
  exact ⟨(hexact ⟨9, ⟨500000000, by decide⟩⟩ (by decide)).2.2.2 (by decide),
    (hexact ⟨9, ⟨500000001, by decide⟩⟩ (by decide)).2.1.2 (by decide),
    hlonger ⟨9, ⟨0, by decide⟩⟩ ⟨0xFFFFFFFFFFFFFFFF, ⟨999999999, by decide⟩⟩ (by decide) hearly⟩

/-! ## Instants at which something was sent -/

/-- The whole seconds of an instant from the epoch on. -/
theorem Instant.toNat_unixSeconds {t : Instant} (h : 0 ≤ t.nanoseconds) :
    (t.unixSeconds.toNat : Int) = t.seconds.toInt := by
  have hsince := sinceEpoch_eq h
  have hspan := t.sinceEpoch.nanos_lt
  have hnanos : t.nanos.val < 1000000000 := t.nanos.isLt
  unfold Span.nanoseconds nanoseconds at hsince
  unfold unixSeconds
  omega

/-- **An instant in time for what was sent at another**: from the whole second of the other until 600
seconds after this second. -/
def InTime (sent now : Instant) : Prop :=
  sent.seconds.toInt * 1000000000 ≤ now.nanoseconds ∧
    now.nanoseconds ≤ (sent.seconds.toInt + 600) * 1000000000

instance (sent now : Instant) : Decidable (InTime sent now) :=
  inferInstanceAs (Decidable (_ ∧ _))

theorem InTime.fresh {sent now : Instant} (hsent : 0 ≤ sent.nanoseconds) (h : InTime sent now) :
    0 ≤ now.nanoseconds ∧ Fresh sent.unixSeconds now (600 * 1000000000) := by
  have hseconds := Instant.toNat_unixSeconds hsent
  have hlow : (0 : Int) ≤ (sent.unixSeconds.toNat : Int) := Int.natCast_nonneg _
  obtain ⟨hfirst, hlast⟩ := h
  unfold Fresh
  omega

end SealedMessaging
