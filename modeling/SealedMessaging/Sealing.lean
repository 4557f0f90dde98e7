import SealedMessaging.Cipher.Siv
import SealedMessaging.Fault

/-!
# Sealing byte strings

A string is sealed under a key of 32 bytes together with associated data that is not part of the
result. The same key feeds both halves of the cipher.

* `sealBytes`: a tag of sixteen bytes, then the ciphertext.
* `unsealBytes`: the string again, if key and associated data are those it was sealed with.
-/

namespace SealedMessaging

/-- The length of a tag. -/
def tagLength : Nat := 16

/-- The cipher of a key that has passed its check. -/
def sealingCipher (key : Octets 32) : Block → Block :=
  let keys := Aes.roundKeys key
  fun block => Aes.encryptWith keys block

/-- **Seals a string** under a key, which is checked first. -/
def sealBytes (key associated plaintext : Bytes) : Except CryptoFault Bytes := do
  let key ← checked (nonzeroOctetsOf .symmetricKey 32 key)
  return Siv.encrypt (sealingCipher key) associated plaintext

/-- **Opens a sealed string.** The key is checked first, then the length, then the tag. -/
def unsealBytes (key associated sealed : Bytes) : Except CryptoFault Bytes := do
  let key ← checked (nonzeroOctetsOf .symmetricKey 32 key)
  if sealed.length < tagLength then .error (.tooShort sealed.length tagLength)
  else match Siv.decrypt (sealingCipher key) associated sealed with
    | none => .error .unauthentic
    | some plaintext => .ok plaintext

end SealedMessaging
