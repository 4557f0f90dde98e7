import SealedMessaging.Bytes.Utf8

/-!
# Checks of values that come from outside

* `InputFault`: what can be wrong with a value, with its text.
* `Subject.check`: the check of each kind of byte string. The length comes first, then the content;
  for text, being UTF-8 comes before the length.
* `checkTopic`: the check of a topic.
-/

namespace SealedMessaging

/-- What a byte string is meant to be. -/
inductive Subject where
  /-- A key of the cipher. -/
  | symmetricKey
  /-- A seed followed by its public key. -/
  | privateKey
  /-- A signing key of a peer. -/
  | publicKey
  | agreementKey
  | id
  | topicHash
  | name
  | password
  deriving DecidableEq, Repr

/-- How a subject is called in messages. -/
def Subject.label : Subject → String
  | .symmetricKey => "symmetric key"
  | .privateKey => "private key"
  | .publicKey => "public key"
  | .agreementKey => "curve25519 public key"
  | .id => "ID"
  | .topicHash => "topic hash"
  | .name => "name"
  | .password => "password"

/-- What is wrong with a value. -/
inductive InputFault where
  | wrongLength (what : Subject) (expected got : Nat)
  | allZero (what : Subject)
  | notUtf8 (what : Subject)
  /-- A name is empty or too long. -/
  | nameLength (got : Nat)
  | emptyTopic
  | topicTooLong (got : Nat)
  | passwordTooShort
  deriving DecidableEq, Repr

/-- The least and the greatest number of bytes of a name. -/
def nameLengths : Nat × Nat := (1, 255)

/-- The greatest number of bytes of a topic. -/
def maxTopicLength : Nat := 256

/-- The least number of bytes of a password. -/
def minPasswordLength : Nat := 16

/-- The text of a fault. -/
def InputFault.message : InputFault → String
  | .wrongLength what expected got =>
    "invalid " ++ what.label ++ " length, expected " ++ toString expected ++ ", got " ++ toString got
  | .allZero what => "invalid " ++ what.label ++ ", all zeros"
  | .notUtf8 what => what.label ++ " is not a valid UTF-8 string"
  | .nameLength got =>
    "name length is invalid, names are between " ++ toString nameLengths.1 ++ " and " ++
      toString nameLengths.2 ++ " characters, got " ++ toString got
  | .emptyTopic => "topic cannot be empty"
  | .topicTooLong got =>
    "topic too long, expected " ++ toString maxTopicLength ++ " chars maximum, got " ++ toString got
  | .passwordTooShort =>
    "password must be at least " ++ toString minPasswordLength ++ " characters"

/-- The string as octets, if it has their length. -/
def octetsOf (what : Subject) (n : Nat) (bs : Bytes) : Except InputFault (Octets n) :=
  if h : bs.length = n then .ok ⟨bs, h⟩ else .error (.wrongLength what n bs.length)

/-- The string as octets that are not all zero. A wrong length is found first. -/
def nonzeroOctetsOf (what : Subject) (n : Nat) (bs : Bytes) : Except InputFault (Octets n) := do
  let octets ← octetsOf what n bs
  if bs.isZero then .error (.allZero what) else .ok octets

/-- Checks a name. -/
def checkName (bs : Bytes) : Except InputFault Unit :=
  if !isUtf8 bs then .error (.notUtf8 .name)
  else if bs.length < nameLengths.1 ∨ nameLengths.2 < bs.length then
    .error (.nameLength bs.length)
  else .ok ()

/-- Checks a password. -/
def checkPassword (bs : Bytes) : Except InputFault Unit :=
  if !isUtf8 bs then .error (.notUtf8 .password)
  else if bs.length < minPasswordLength then .error .passwordTooShort
  else .ok ()

/-- **The check of a byte string** that is meant to be a given thing. -/
def Subject.check : Subject → Bytes → Except InputFault Unit
  | .symmetricKey, bs => discard (nonzeroOctetsOf .symmetricKey 32 bs)
  | .privateKey, bs => discard (nonzeroOctetsOf .privateKey 64 bs)
  | .publicKey, bs => discard (nonzeroOctetsOf .publicKey 32 bs)
  | .agreementKey, bs => discard (nonzeroOctetsOf .agreementKey 32 bs)
  | .id, bs => discard (octetsOf .id 16 bs)
  | .topicHash, bs => discard (octetsOf .topicHash 16 bs)
  | .name, bs => checkName bs
  | .password, bs => checkPassword bs

/-- **The check of a topic**, whose length counts bytes. -/
def checkTopic (topic : String) : Except InputFault Unit :=
  let length := (utf8 topic).length
  if length = 0 then .error .emptyTopic
  else if maxTopicLength < length then .error (.topicTooLong length)
  else .ok ()

end SealedMessaging
