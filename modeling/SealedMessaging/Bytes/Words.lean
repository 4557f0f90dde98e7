import SealedMessaging.Bytes

/-!
# 64-bit words in byte strings

Digests work on 64-bit words. This module reads them from byte strings and writes them back, in
both byte orders, and rotates them.
-/

namespace SealedMessaging

namespace Word

/-- Rotation towards the high bits. -/
def rotateLeft (w k : UInt64) : UInt64 :=
  (w <<< k) ||| (w >>> (64 - k))

/-- Rotation towards the low bits. -/
@[inline] def rotateRight (w k : UInt64) : UInt64 :=
  (w >>> k) ||| (w <<< (64 - k))

/-- The word whose bytes are given, least significant first. -/
def ofLittle (bs : Bytes) : UInt64 :=
  UInt64.ofNat (Bytes.toNat bs)

/-- The eight bytes of a word, least significant first. -/
def toLittle (w : UInt64) : Bytes :=
  Bytes.ofNat 8 w.toNat

/-- The word whose bytes are given, most significant first. -/
def ofBig (bs : Bytes) : UInt64 :=
  ofLittle bs.reverse

/-- The eight bytes of a word, most significant first. -/
def toBig (w : UInt64) : Bytes :=
  (toLittle w).reverse

end Word

/-- The words of a byte string, each least significant byte first. -/
def Bytes.littleWords (bs : Bytes) : List UInt64 :=
  (bs.chunks 8).map Word.ofLittle

/-- The words of a byte string, each most significant byte first. -/
def Bytes.bigWords (bs : Bytes) : List UInt64 :=
  (bs.chunks 8).map Word.ofBig

end SealedMessaging
