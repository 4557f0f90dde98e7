import SealedMessaging.Cipher.Aes

/-!
# CMAC

A tag of one block for a byte string of any length, over any permutation of blocks `E`.

* `Block.double`: the doubling of a block that derives the two masks.
* `cmac`: the tag. The last block, padded if it is short, is masked, and the blocks are chained.
-/

namespace SealedMessaging

namespace Block

/-- Twice a block, as a polynomial modulo `x^128 + x^7 + x^2 + x + 1`. -/
def double (b : Block) : Block :=
  let value := 2 * b.toNatBig
  Octets.ofNatBig 16 (if value < Nat.pow 2 128 then value else value ^^^ 0x87)

/-- A string of fewer than sixteen bytes, a one bit after it and zeros up to a block. -/
def padded (bs : Bytes) : Block :=
  Octets.fit 16 (bs ++ [0x80])

end Block

namespace Cmac

/-- The last block of a message, masked: the first mask on a whole block, the second on a block
that had to be padded. -/
def lastBlock (E : Block → Block) (piece : Bytes) : Block :=
  let mask := Block.double (E (Octets.zero 16))
  if piece.length = 16 then Octets.fit 16 piece ^^^ mask
  else Block.padded piece ^^^ Block.double mask

/-- Chains the pieces of a message; the last one goes in masked. -/
def chain (E : Block → Block) (state : Block) : List Bytes → Block
  | [] => E (state ^^^ lastBlock E [])
  | [piece] => E (state ^^^ lastBlock E piece)
  | piece :: rest => chain E (E (state ^^^ Octets.fit 16 piece)) rest

end Cmac

/-- **The CMAC tag** of a byte string. -/
def cmac (E : Block → Block) (message : Bytes) : Block :=
  Cmac.chain E (Octets.zero 16) (Bytes.chunks 16 message)

end SealedMessaging
