import SealedMessaging.Key.Symmetric
import SealedMessaging.Curve.Montgomery
import SealedMessaging.Report
import SealedMessaging.Sealing

/-!
# Frames

A frame is a time stamp of eight bytes, least significant first, followed by a payload sealed with
the time stamp as associated data.

* `Frame.protectAt`, `Frame.protect`: a frame with a given or the current time.
* `Frame.unprotect`: the payload of a frame. The length comes first, then the window, then the seal.
* `Frame.protectCommand`: a frame for the holder of a key to agree with.
-/

namespace SealedMessaging.Frame

/-- The length of a time stamp. -/
def stampLength : Nat := 8

/-- The least length of a frame: a time stamp, a tag and one byte. -/
def minLength : Nat := stampLength + tagLength + 1

/-- The bytes of a time stamp. -/
def stampBytes (stamp : UInt64) : Bytes :=
  Bytes.ofNat stampLength stamp.toNat

/-- The time stamp at the front of a frame. -/
def stampOf (frame : Bytes) : UInt64 :=
  UInt64.ofNat (Bytes.toNat (frame.take stampLength))

/-- **The frame of a payload** at a given time in seconds. -/
def protectAt (payload key : Bytes) (stamp : UInt64) : Except CryptoFault Bytes := do
  return stampBytes stamp ++ (← sealBytes key (stampBytes stamp) payload)

/-- The frame of a payload at the current time. -/
def protect (now : Instant) (payload key : Bytes) : Except CryptoFault Bytes :=
  protectAt payload key now.unixSeconds

/-- **The payload of a frame.** A frame outside the window is refused before its key is looked at,
and the refusal is reported. -/
def unprotect (now : Instant) (frame key : Bytes) : Report CryptoFault Bytes :=
  if frame.length < minLength then .fail (.tooShort frame.length minLength)
  else match checkWindow (stampOf frame) now frameDelay with
    | .error fault => do
      Report.log (.frameRefused (stampOf frame) fault)
      Report.fail (.window fault)
    | .ok () => .ofExcept (unsealBytes key (frame.take stampLength) (frame.drop stampLength))

/-- The frame of a command under the key agreed between a secret and a client's public key. -/
def protectCommand (now : Instant) (command : Bytes) (clientKey secret : Octets 32) :
    Except CryptoFault Bytes := do
  let key ← SymmetricKey.ofShared (x25519 secret clientKey).toList
  protect now command key.toBytes

end SealedMessaging.Frame
