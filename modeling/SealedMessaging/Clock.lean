import SealedMessaging.Bytes

/-!
# Instants, spans and the replay window

An instant is a number of seconds from the epoch, possibly negative, and a part of a second. A span is
a length of time: seconds of 64 bits and a part of a second. Windows are computed on spans.

* `Span.minus`: the difference of two spans, which borrows a second where it must and stops at zero.
* `Instant.sinceEpoch`: the span from the epoch to an instant, zero before it.
* `checkFresh`: whether a time stamp is neither in the future nor older than a given delay.
* `checkWindow`: the same check for a delay in nanoseconds.
-/

namespace SealedMessaging

/-- The nanoseconds in a second. -/
def nanosPerSecond : Nat := 1000000000

/-! ## Spans -/

/-- A length of time: whole seconds, and the nanoseconds after them. -/
structure Span where
  seconds : UInt64
  nanos : Fin nanosPerSecond
  deriving DecidableEq

namespace Span

/-- A number of seconds. -/
def ofSeconds (seconds : UInt64) : Span := ⟨seconds, ⟨0, by decide⟩⟩

/-- A number of nanoseconds. -/
def ofNanos (nanos : Nat) : Span :=
  ⟨UInt64.ofNat (nanos / nanosPerSecond), ⟨nanos % nanosPerSecond, Nat.mod_lt _ (by decide)⟩⟩

/-- The seconds are compared first. -/
instance : LT Span :=
  ⟨fun a b => a.seconds < b.seconds ∨ a.seconds = b.seconds ∧ a.nanos < b.nanos⟩

instance : DecidableLT Span := fun a b =>
  inferInstanceAs (Decidable (a.seconds < b.seconds ∨ a.seconds = b.seconds ∧ a.nanos < b.nanos))

/-- The difference of two spans, if the second is not longer. Where there are too few nanoseconds, a
second is borrowed. -/
def minus? (a b : Span) : Option Span :=
  if a.seconds < b.seconds then none
  else
    let seconds := a.seconds - b.seconds
    if hborrow : b.nanos ≤ a.nanos then some ⟨seconds, ⟨a.nanos - b.nanos, by omega⟩⟩
    else if seconds = 0 then none
    else some ⟨seconds - 1, ⟨a.nanos + nanosPerSecond - b.nanos, by omega⟩⟩

/-- **The difference of two spans**, zero if the second is longer. -/
def minus (a b : Span) : Span :=
  (a.minus? b).getD (.ofSeconds 0)

end Span

/-! ## Instants -/

/-- A point in time. -/
structure Instant where
  /-- Whole seconds from the epoch, rounded down. -/
  seconds : Int64
  /-- The nanoseconds after them. -/
  nanos : Fin nanosPerSecond
  deriving DecidableEq

namespace Instant

/-- The epoch. -/
def epoch : Instant := ⟨0, ⟨0, by decide⟩⟩

/-- **The span from the epoch**, zero for an instant before it. -/
def sinceEpoch (t : Instant) : Span :=
  if t.seconds < 0 then .ofSeconds 0 else ⟨t.seconds.toUInt64, t.nanos⟩

/-- The whole seconds from the epoch, zero for an instant before it. -/
def unixSeconds (t : Instant) : UInt64 :=
  t.sinceEpoch.seconds

end Instant

/-! ## The window -/

/-- Why a time stamp is not fresh. -/
inductive WindowFault where
  | inFuture
  | tooOld
  deriving DecidableEq, Repr

/-- The text of a fault. -/
def WindowFault.message : WindowFault → String
  | .inFuture => "timestamp received is in the future"
  | .tooOld => "timestamp too old"

/-- The delay allowed for a frame, in nanoseconds. -/
def frameDelay : Nat := 600 * nanosPerSecond

/-- The delay allowed around a change of keys, in nanoseconds. -/
def keyChangeDelay : Nat := 3600 * nanosPerSecond

/-- **Whether a time stamp in seconds is fresh** when a given span has passed since the epoch. -/
def checkFresh (stamp : UInt64) (now delay : Span) : Except WindowFault Unit :=
  let sent := Span.ofSeconds stamp
  if now < sent then .error .inFuture
  else if sent < now.minus delay then .error .tooOld
  else .ok ()

/-- Whether a time stamp in seconds is fresh at an instant, for a delay in nanoseconds. -/
def checkWindow (stamp : UInt64) (now : Instant) (delay : Nat) : Except WindowFault Unit :=
  checkFresh stamp now.sinceEpoch (.ofNanos delay)

end SealedMessaging
