import SealedMessaging.Cipher.Cmac

/-!
# Deterministic authenticated encryption

SIV mode with one header: the tag is computed from the header and the plaintext, and the plaintext
is then encrypted under a counter that starts from the tag. One cipher serves for both.

* `Siv.tag`: the synthetic initial value of a header and a plaintext.
* `Siv.keystream`: the bytes the plaintext is combined with.
* `Siv.encrypt`, `Siv.decrypt`: tag first, then ciphertext; decryption computes the tag again and
  compares.
-/

namespace SealedMessaging.Siv

/-- Combines a block with the last sixteen bytes of a string that has at least as many. -/
def xorEnd (bs : Bytes) (block : Block) : Bytes :=
  let cut := bs.length - 16
  bs.take cut ++ Bytes.xor (bs.drop cut) block.toList

/-- **The tag of a header and a plaintext.** -/
def tag (E : Block → Block) (header plaintext : Bytes) : Block :=
  let d := Block.double (cmac E (List.replicate 16 0)) ^^^ cmac E header
  if plaintext.length < 16 then
    cmac E (Block.double d ^^^ Block.padded plaintext).toList
  else cmac E (xorEnd plaintext d)

/-- The first value of the counter: the tag with the top bits of its bytes 8 and 12 cleared. -/
def firstCounter (t : Block) : Block :=
  Octets.ofFn fun i => if i.val = 8 ∨ i.val = 12 then t.get i &&& 0x7f else t.get i

/-- The counter `n` steps after the first. -/
def counter (t : Block) (n : Nat) : Block :=
  Octets.ofNatBig 16 ((firstCounter t).toNatBig + n)

/-- The keystream of a tag, long enough for `length` bytes. -/
def keystream (E : Block → Block) (t : Block) (length : Nat) : Bytes :=
  (List.range ((length + 15) / 16)).flatMap fun n => (E (counter t n)).toList

/-- Combines a string with the keystream of a tag. -/
def applyKeystream (E : Block → Block) (t : Block) (bs : Bytes) : Bytes :=
  Bytes.xor bs (keystream E t bs.length)

/-- **Encryption**: the tag, then the plaintext combined with the tag's keystream. -/
def encrypt (E : Block → Block) (header plaintext : Bytes) : Bytes :=
  let t := tag E header plaintext
  t.toList ++ applyKeystream E t plaintext

/-- **Decryption** of a string of at least sixteen bytes: `none` unless the tag in front is that
of the header and the plaintext found. -/
def decrypt (E : Block → Block) (header sealed : Bytes) : Option Bytes :=
  let t : Block := Octets.fit 16 (sealed.take 16)
  let plaintext := applyKeystream E t (sealed.drop 16)
  if tag E header plaintext = t then some plaintext else none

end SealedMessaging.Siv
