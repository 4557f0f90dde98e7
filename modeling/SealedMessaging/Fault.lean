import SealedMessaging.Bytes.Hex
import SealedMessaging.Clock
import SealedMessaging.Validation

/-!
# Faults of keys, sealing and frames

`CryptoFault` gathers what can go wrong when keys are read and when strings are sealed and opened,
each cause with its text. A failed authentication does not say whether the key was wrong or the
string was altered.
-/

namespace SealedMessaging

/-- Why a seed and a public key are no key pair. -/
inductive KeyPairFault where
  /-- The public key is no point of the curve. -/
  | notPoint
  /-- The public key is not that of the seed. -/
  | mismatch
  deriving DecidableEq, Repr

/-- The text of a fault. -/
def KeyPairFault.message : KeyPairFault → String
  | .notPoint => "signature error: Cannot decompress Edwards point"
  | .mismatch => "signature error: Mismatched Keypair detected"

/-- What goes wrong with keys, sealed strings and frames. -/
inductive CryptoFault where
  /-- A value does not pass its check. -/
  | input (fault : InputFault)
  /-- A time stamp is not fresh. -/
  | window (fault : WindowFault)
  /-- A sealed string or a frame is shorter than it can be. -/
  | tooShort (got needed : Nat)
  /-- A sealed string was not made with this key and this associated data. -/
  | unauthentic
  /-- A public key is no point of the curve. -/
  | notPoint
  /-- A text is not the hex form of a public key. -/
  | keyText (fault : Hex.Fault)
  /-- The two halves of a private key do not belong together. -/
  | keyPair (fault : KeyPairFault)
  deriving DecidableEq, Repr

/-- The text of a fault. -/
def CryptoFault.message : CryptoFault → String
  | .input fault => fault.message
  | .window fault => fault.message
  | .tooShort got needed =>
    "ciphertext too short: got " ++ toString got ++ " bytes, need at least " ++ toString needed
  | .unauthentic => "message authentication failed"
  | .notPoint => "public key is not a valid edwards point"
  | .keyText fault => "crypto error: public key hex decode error: " ++ fault.message
  | .keyPair fault => "crypto error: invalid ed25519 keypair: " ++ fault.message

/-- The result of a check, as one of the faults of this module. -/
def checked {α : Type} (result : Except InputFault α) : Except CryptoFault α :=
  result.mapError .input

end SealedMessaging
