import SealedMessaging.Clock
import SealedMessaging.Identity

/-!
# Events and reports

Some operations tell what happened next to their result. A report is a result together with the
events on the way to it, which stay when the operation fails.

* `Event`, `Event.level`, `Event.message`: the events and their texts.
* `Report`: a monad that stops at the first fault and keeps the events in order.
-/

namespace SealedMessaging

/-- How much an event matters. -/
inductive Level where
  | debug
  | info
  | warn
  deriving DecidableEq, Repr

/-- How a level is called. -/
def Level.label : Level → String
  | .debug => "DEBUG"
  | .info => "INFO"
  | .warn => "WARN"

/-- What happened during an operation. No event holds a key or a payload. -/
inductive Event where
  /-- A signer's key was registered for the first time. -/
  | keyAdded (id : Id)
  /-- A signer's key took the place of another. -/
  | keyReplaced (id : Id)
  | keyRemoved (id : Id)
  | keysCleared (count : Nat)
  /-- A message came from a signer without a registered key. -/
  | signerUnknown (id : Id)
  /-- A frame was refused for its time stamp. -/
  | frameRefused (stamp : UInt64) (fault : WindowFault)
  | commandKeyRotated
  | privateKeyRotated (id : Id)
  deriving DecidableEq

/-- The level of an event. -/
def Event.level : Event → Level
  | .keyAdded _ | .keyReplaced _ | .keyRemoved _ | .keysCleared _ | .signerUnknown _ => .debug
  | .commandKeyRotated | .privateKeyRotated _ => .info
  | .frameRefused .. => .warn

/-- The text of an event. -/
def Event.message : Event → String
  | .keyAdded id => "added public key for " ++ id.toHex
  | .keyReplaced id => "replaced public key for " ++ id.toHex
  | .keyRemoved id => "removed public key for " ++ id.toHex
  | .keysCleared count => "clearing " ++ toString count ++ " public keys"
  | .signerUnknown id => "no public key registered for signer " ++ id.toHex
  | .frameRefused stamp fault =>
    "rejecting protected frame with timestamp " ++ toString stamp.toNat ++ ": " ++ fault.message
  | .commandKeyRotated => "rotated symmetric command key"
  | .privateKeyRotated id => "rotated private key of signer " ++ id.toHex

/-- The line an event is reported as. -/
def Event.line (event : Event) : String :=
  event.level.label ++ " " ++ event.message

/-- A result with the events on the way to it. -/
structure Report (ε α : Type) where
  outcome : Except ε α
  events : List Event

namespace Report

variable {ε ε' α β : Type}

/-- A result without events. -/
def ofExcept (outcome : Except ε α) : Report ε α := ⟨outcome, []⟩

/-- A fault without events. -/
def fail (fault : ε) : Report ε α := ⟨.error fault, []⟩

/-- One event. -/
def log (event : Event) : Report ε Unit := ⟨.ok (), [event]⟩

/-- Goes on after a success and puts the later events after the earlier ones. -/
def bind (r : Report ε α) (next : α → Report ε β) : Report ε β :=
  match r.outcome with
  | .error fault => ⟨.error fault, r.events⟩
  | .ok a => ⟨(next a).outcome, r.events ++ (next a).events⟩

instance : Monad (Report ε) where
  pure a := ⟨.ok a, []⟩
  bind := bind

/-- The report with its fault seen as another kind of fault. -/
def mapError (f : ε → ε') (r : Report ε α) : Report ε' α :=
  ⟨r.outcome.mapError f, r.events⟩

end Report

end SealedMessaging
