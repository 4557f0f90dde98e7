import SealedMessaging.Bytes

/-!
# AES with a 256-bit key

A block is sixteen octets in columns of four: the byte in row `r` of column `c` stands at position
`r + 4 * c`.

* `Aes.encryptBlock`: the cipher.
* `Aes.decryptBlock`: its inverse, with the steps of the cipher undone one by one.
-/

namespace SealedMessaging

/-- A block of the cipher. -/
abbrev Block := Octets 16

namespace Aes

set_option maxRecDepth 2048 in
/-- The substitution of bytes. -/
def sbox : Vector UInt8 256 :=
  #v[0x63, 0x7c, 0x77, 0x7b, 0xf2, 0x6b, 0x6f, 0xc5, 0x30, 0x01, 0x67, 0x2b, 0xfe, 0xd7, 0xab, 0x76,
    0xca, 0x82, 0xc9, 0x7d, 0xfa, 0x59, 0x47, 0xf0, 0xad, 0xd4, 0xa2, 0xaf, 0x9c, 0xa4, 0x72, 0xc0,
    0xb7, 0xfd, 0x93, 0x26, 0x36, 0x3f, 0xf7, 0xcc, 0x34, 0xa5, 0xe5, 0xf1, 0x71, 0xd8, 0x31, 0x15,
    0x04, 0xc7, 0x23, 0xc3, 0x18, 0x96, 0x05, 0x9a, 0x07, 0x12, 0x80, 0xe2, 0xeb, 0x27, 0xb2, 0x75,
    0x09, 0x83, 0x2c, 0x1a, 0x1b, 0x6e, 0x5a, 0xa0, 0x52, 0x3b, 0xd6, 0xb3, 0x29, 0xe3, 0x2f, 0x84,
    0x53, 0xd1, 0x00, 0xed, 0x20, 0xfc, 0xb1, 0x5b, 0x6a, 0xcb, 0xbe, 0x39, 0x4a, 0x4c, 0x58, 0xcf,
    0xd0, 0xef, 0xaa, 0xfb, 0x43, 0x4d, 0x33, 0x85, 0x45, 0xf9, 0x02, 0x7f, 0x50, 0x3c, 0x9f, 0xa8,
    0x51, 0xa3, 0x40, 0x8f, 0x92, 0x9d, 0x38, 0xf5, 0xbc, 0xb6, 0xda, 0x21, 0x10, 0xff, 0xf3, 0xd2,
    0xcd, 0x0c, 0x13, 0xec, 0x5f, 0x97, 0x44, 0x17, 0xc4, 0xa7, 0x7e, 0x3d, 0x64, 0x5d, 0x19, 0x73,
    0x60, 0x81, 0x4f, 0xdc, 0x22, 0x2a, 0x90, 0x88, 0x46, 0xee, 0xb8, 0x14, 0xde, 0x5e, 0x0b, 0xdb,
    0xe0, 0x32, 0x3a, 0x0a, 0x49, 0x06, 0x24, 0x5c, 0xc2, 0xd3, 0xac, 0x62, 0x91, 0x95, 0xe4, 0x79,
    0xe7, 0xc8, 0x37, 0x6d, 0x8d, 0xd5, 0x4e, 0xa9, 0x6c, 0x56, 0xf4, 0xea, 0x65, 0x7a, 0xae, 0x08,
    0xba, 0x78, 0x25, 0x2e, 0x1c, 0xa6, 0xb4, 0xc6, 0xe8, 0xdd, 0x74, 0x1f, 0x4b, 0xbd, 0x8b, 0x8a,
    0x70, 0x3e, 0xb5, 0x66, 0x48, 0x03, 0xf6, 0x0e, 0x61, 0x35, 0x57, 0xb9, 0x86, 0xc1, 0x1d, 0x9e,
    0xe1, 0xf8, 0x98, 0x11, 0x69, 0xd9, 0x8e, 0x94, 0x9b, 0x1e, 0x87, 0xe9, 0xce, 0x55, 0x28, 0xdf,
    0x8c, 0xa1, 0x89, 0x0d, 0xbf, 0xe6, 0x42, 0x68, 0x41, 0x99, 0x2d, 0x0f, 0xb0, 0x54, 0xbb, 0x16]

set_option maxRecDepth 2048 in
/-- The substitution that undoes `sbox`. -/
def inverseSbox : Vector UInt8 256 :=
  #v[0x52, 0x09, 0x6a, 0xd5, 0x30, 0x36, 0xa5, 0x38, 0xbf, 0x40, 0xa3, 0x9e, 0x81, 0xf3, 0xd7, 0xfb,
    0x7c, 0xe3, 0x39, 0x82, 0x9b, 0x2f, 0xff, 0x87, 0x34, 0x8e, 0x43, 0x44, 0xc4, 0xde, 0xe9, 0xcb,
    0x54, 0x7b, 0x94, 0x32, 0xa6, 0xc2, 0x23, 0x3d, 0xee, 0x4c, 0x95, 0x0b, 0x42, 0xfa, 0xc3, 0x4e,
    0x08, 0x2e, 0xa1, 0x66, 0x28, 0xd9, 0x24, 0xb2, 0x76, 0x5b, 0xa2, 0x49, 0x6d, 0x8b, 0xd1, 0x25,
    0x72, 0xf8, 0xf6, 0x64, 0x86, 0x68, 0x98, 0x16, 0xd4, 0xa4, 0x5c, 0xcc, 0x5d, 0x65, 0xb6, 0x92,
    0x6c, 0x70, 0x48, 0x50, 0xfd, 0xed, 0xb9, 0xda, 0x5e, 0x15, 0x46, 0x57, 0xa7, 0x8d, 0x9d, 0x84,
    0x90, 0xd8, 0xab, 0x00, 0x8c, 0xbc, 0xd3, 0x0a, 0xf7, 0xe4, 0x58, 0x05, 0xb8, 0xb3, 0x45, 0x06,
    0xd0, 0x2c, 0x1e, 0x8f, 0xca, 0x3f, 0x0f, 0x02, 0xc1, 0xaf, 0xbd, 0x03, 0x01, 0x13, 0x8a, 0x6b,
    0x3a, 0x91, 0x11, 0x41, 0x4f, 0x67, 0xdc, 0xea, 0x97, 0xf2, 0xcf, 0xce, 0xf0, 0xb4, 0xe6, 0x73,
    0x96, 0xac, 0x74, 0x22, 0xe7, 0xad, 0x35, 0x85, 0xe2, 0xf9, 0x37, 0xe8, 0x1c, 0x75, 0xdf, 0x6e,
    0x47, 0xf1, 0x1a, 0x71, 0x1d, 0x29, 0xc5, 0x89, 0x6f, 0xb7, 0x62, 0x0e, 0xaa, 0x18, 0xbe, 0x1b,
    0xfc, 0x56, 0x3e, 0x4b, 0xc6, 0xd2, 0x79, 0x20, 0x9a, 0xdb, 0xc0, 0xfe, 0x78, 0xcd, 0x5a, 0xf4,
    0x1f, 0xdd, 0xa8, 0x33, 0x88, 0x07, 0xc7, 0x31, 0xb1, 0x12, 0x10, 0x59, 0x27, 0x80, 0xec, 0x5f,
    0x60, 0x51, 0x7f, 0xa9, 0x19, 0xb5, 0x4a, 0x0d, 0x2d, 0xe5, 0x7a, 0x9f, 0x93, 0xc9, 0x9c, 0xef,
    0xa0, 0xe0, 0x3b, 0x4d, 0xae, 0x2a, 0xf5, 0xb0, 0xc8, 0xeb, 0xbb, 0x3c, 0x83, 0x53, 0x99, 0x61,
    0x17, 0x2b, 0x04, 0x7e, 0xba, 0x77, 0xd6, 0x26, 0xe1, 0x69, 0x14, 0x63, 0x55, 0x21, 0x0c, 0x7d]

/-- The substitute of a byte. -/
def substitute (b : UInt8) : UInt8 :=
  sbox[b.toFin]

/-- The byte whose substitute is given. -/
def unsubstitute (b : UInt8) : UInt8 :=
  inverseSbox[b.toFin]

/-- Twice a byte, as a polynomial modulo `x^8 + x^4 + x^3 + x + 1`. -/
def double (b : UInt8) : UInt8 :=
  (b <<< 1) ^^^ (if b &&& 0x80 = 0 then 0 else 0x1b)

/-- The product of a byte by a factor below sixteen, as polynomials. -/
def times (factor : Nat) (b : UInt8) : UInt8 :=
  let b2 := double b
  let b4 := double b2
  let b8 := double b4
  (if factor.testBit 0 then b else 0) ^^^ (if factor.testBit 1 then b2 else 0) ^^^
    (if factor.testBit 2 then b4 else 0) ^^^ (if factor.testBit 3 then b8 else 0)

/-- Substitutes every byte. -/
def subBytes (s : Block) : Block :=
  Octets.ofFn fun i => substitute (s.get i)

/-- Undoes `subBytes`. -/
def unsubBytes (s : Block) : Block :=
  Octets.ofFn fun i => unsubstitute (s.get i)

/-- Turns row `r` left by `r` places. -/
def shiftRows (s : Block) : Block :=
  Octets.ofFn fun i => s.get (Fin.ofNat 16 (i.val + 4 * (i.val % 4)))

/-- Turns row `r` right by `r` places. -/
def unshiftRows (s : Block) : Block :=
  Octets.ofFn fun i => s.get (Fin.ofNat 16 (i.val + 12 * (i.val % 4)))

/-- Multiplies every column by the circulant matrix with a given first row. -/
def mixWith (k0 k1 k2 k3 : Nat) (s : Block) : Block :=
  Octets.ofFn fun i =>
    let column := 4 * (i.val / 4)
    let entry := fun (k : Nat) => s.get (Fin.ofNat 16 (column + (i.val + k) % 4))
    times k0 (entry 0) ^^^ times k1 (entry 1) ^^^ times k2 (entry 2) ^^^ times k3 (entry 3)

/-- Mixes the bytes of each column. -/
def mixColumns (s : Block) : Block :=
  mixWith 2 3 1 1 s

/-- Undoes `mixColumns`. -/
def unmixColumns (s : Block) : Block :=
  mixWith 14 11 13 9 s

/-! ## The key schedule -/

/-- Four bytes of the key schedule. -/
abbrev Word := Octets 4

/-- Turns a word left by one byte. -/
def Word.rotate (w : Word) : Word :=
  Octets.ofFn fun i => w.get (Fin.ofNat 4 (i.val + 1))

/-- Substitutes every byte of a word. -/
def Word.substitute (w : Word) : Word :=
  Octets.ofFn fun i => Aes.substitute (w.get i)

/-- The word of the schedule that follows, from its position, the constant of its group of eight,
the word before it and the word eight places before it. -/
def nextWord (position : Nat) (constant : UInt8) (previous eighth : Word) : Word :=
  let mixed :=
    if position % 8 = 0 then
      (Word.rotate previous).substitute ^^^ Octets.fit 4 [constant]
    else if position % 8 = 4 then Word.substitute previous
    else previous
  eighth ^^^ mixed

/-- The next `count` words of the schedule, from the eight before them, oldest first. -/
def scheduleFrom : (count position : Nat) → (constant : UInt8) → (window : List Word) → List Word
  | 0, _, _, _ => []
  | count + 1, position, constant, window =>
    let word := nextWord position constant
      (window.getD 7 (Octets.zero 4)) (window.getD 0 (Octets.zero 4))
    word :: scheduleFrom count (position + 1)
      (if position % 8 = 0 then double constant else constant) (window.drop 1 ++ [word])

/-- The fifteen round keys of a 256-bit key. -/
def roundKeys (key : Octets 32) : List Block :=
  let start := (Bytes.chunks 4 key.toList).map (Octets.fit 4)
  let words := start ++ scheduleFrom 52 8 1 start
  (Bytes.chunks 16 (words.flatMap Octets.toList)).map (Octets.fit 16)

/-! ## The cipher -/

/-- A middle round. -/
def round (s key : Block) : Block :=
  mixColumns (shiftRows (subBytes s)) ^^^ key

/-- Undoes `round`. -/
def unround (s key : Block) : Block :=
  unsubBytes (unshiftRows (unmixColumns (s ^^^ key)))

/-- The last round, which mixes no columns. -/
def lastRound (s key : Block) : Block :=
  shiftRows (subBytes s) ^^^ key

/-- Undoes `lastRound`. -/
def unlastRound (s key : Block) : Block :=
  unsubBytes (unshiftRows (s ^^^ key))

/-- The cipher under a list of round keys. -/
def encryptWith (keys : List Block) (s : Block) : Block :=
  lastRound (((keys.drop 1).take 13).foldl round (s ^^^ keys.getD 0 (Octets.zero 16)))
    (keys.getD 14 (Octets.zero 16))

/-- The inverse cipher under a list of round keys. -/
def decryptWith (keys : List Block) (s : Block) : Block :=
  ((keys.drop 1).take 13).foldr (fun key s => unround s key)
    (unlastRound s (keys.getD 14 (Octets.zero 16))) ^^^ keys.getD 0 (Octets.zero 16)

/-- **The cipher.** -/
def encryptBlock (key : Octets 32) (s : Block) : Block :=
  encryptWith (roundKeys key) s

/-- **The inverse cipher.** -/
def decryptBlock (key : Octets 32) (s : Block) : Block :=
  decryptWith (roundKeys key) s

end Aes

end SealedMessaging
