import SealedMessaging.Bytes.Words

/-!
# BLAKE2b

The unkeyed digest with a length of up to 64 bytes.

* `Blake2b.compress`: one block of 128 bytes worked into the chaining value.
* `blake2b`: the digest of a given length.
-/

namespace SealedMessaging

namespace Blake2b

/-- The sixteen words a block is mixed in. -/
abbrev Words := List UInt64

/-- The starting words, which are those of SHA-512. -/
def initial : Words :=
  [0x6a09e667f3bcc908, 0xbb67ae8584caa73b, 0x3c6ef372fe94f82b, 0xa54ff53a5f1d36f1,
   0x510e527fade682d1, 0x9b05688c2b3e6c1f, 0x1f83d9abfb41bd6b, 0x5be0cd19137e2179]

/-- The order in which each round takes the words of the message. -/
def orders : List (List Nat) :=
  [[0, 1, 2, 3, 4, 5, 6, 7, 8, 9, 10, 11, 12, 13, 14, 15],
   [14, 10, 4, 8, 9, 15, 13, 6, 1, 12, 0, 2, 11, 7, 5, 3],
   [11, 8, 12, 0, 5, 2, 15, 13, 10, 14, 3, 6, 7, 1, 9, 4],
   [7, 9, 3, 1, 13, 12, 11, 14, 2, 6, 5, 10, 4, 0, 15, 8],
   [9, 0, 5, 7, 2, 4, 10, 15, 14, 1, 11, 12, 6, 8, 3, 13],
   [2, 12, 6, 10, 0, 11, 8, 3, 4, 13, 7, 5, 15, 14, 1, 9],
   [12, 5, 1, 15, 14, 13, 4, 10, 0, 7, 6, 3, 9, 2, 8, 11],
   [13, 11, 7, 14, 12, 1, 3, 9, 5, 0, 15, 4, 8, 6, 2, 10],
   [6, 15, 14, 9, 11, 3, 0, 8, 12, 2, 13, 7, 1, 4, 10, 5],
   [10, 2, 8, 4, 7, 6, 1, 5, 15, 11, 9, 14, 3, 12, 13, 0]]

/-- Mixes two words of the message into the four words at the given places. -/
def mix (v : Words) (i j k l : Nat) (x y : UInt64) : Words :=
  let a := v.getD i 0
  let b := v.getD j 0
  let c := v.getD k 0
  let d := v.getD l 0
  let a := a + b + x
  let d := Word.rotateRight (d ^^^ a) 32
  let c := c + d
  let b := Word.rotateRight (b ^^^ c) 24
  let a := a + b + y
  let d := Word.rotateRight (d ^^^ a) 16
  let c := c + d
  let b := Word.rotateRight (b ^^^ c) 63
  (((v.set i a).set j b).set k c).set l d

/-- The places of the eight mixes of a round: the columns, then the diagonals. -/
def places : List (Nat × Nat × Nat × Nat) :=
  [(0, 4, 8, 12), (1, 5, 9, 13), (2, 6, 10, 14), (3, 7, 11, 15),
   (0, 5, 10, 15), (1, 6, 11, 12), (2, 7, 8, 13), (3, 4, 9, 14)]

/-- One round over the words of the message. -/
def round (message : Words) (v : Words) (order : List Nat) : Words :=
  (List.range 8).foldl (fun v n =>
    let (i, j, k, l) := places.getD n (0, 0, 0, 0)
    let word := fun p => message.getD (order.getD p 0) 0
    mix v i j k l (word (2 * n)) (word (2 * n + 1))) v

/-- Works one block into the chaining value. `count` is the number of message bytes up to the end
of this block. -/
def compress (h : Words) (block : Bytes) (count : Nat) (last : Bool) : Words :=
  let mask := fun (i : Nat) (w : UInt64) =>
    if i = 4 then w ^^^ UInt64.ofNat count
    else if i = 6 ∧ last then ~~~ w
    else w
  let start := h ++ initial.zipIdx.map fun (w, i) => mask i w
  let message := (block ++ List.replicate (128 - block.length) 0).littleWords
  let rounds := orders ++ orders.take 2
  let v := rounds.foldl (round message) start
  List.zipWith (· ^^^ ·) h (List.zipWith (· ^^^ ·) (v.take 8) (v.drop 8))

/-- Works all blocks in; `count` is the number of message bytes already worked in. -/
def absorb (h : Words) (count : Nat) : List Bytes → Words
  | [] => h
  | [block] => compress h block (count + block.length) true
  | block :: rest => absorb (compress h block (count + block.length) false) (count + 128) rest

end Blake2b

/-- **BLAKE2b** of a byte string, without a key, with a digest of `size` bytes. -/
def blake2b (size : Nat) (message : Bytes) : Bytes :=
  let start := match Blake2b.initial with
    | [] => []
    | w :: rest => (w ^^^ 0x01010000 ^^^ UInt64.ofNat size) :: rest
  let blocks := match message.chunks 128 with
    | [] => [[]]
    | blocks => blocks
  ((Blake2b.absorb start 0 blocks).flatMap Word.toLittle).take size

end SealedMessaging
