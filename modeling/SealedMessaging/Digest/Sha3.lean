import SealedMessaging.Bytes.Words

/-!
# SHA3-256

The sponge over the permutation Keccak-f[1600]. A state is a list of 25 lanes; the lane at column
`x` and row `y` stands at position `x + 5 * y`.

* `Keccak.permute`: the 24 rounds.
* `sha3`: the 32-byte digest.
-/

namespace SealedMessaging

namespace Keccak

/-- The lanes of a state. -/
abbrev Lanes := List UInt64

/-- The lane at a column and a row, both taken modulo five. -/
def lane (a : Lanes) (x y : Nat) : UInt64 :=
  a.getD (x % 5 + 5 * (y % 5)) 0

/-- The state with a given lane at each column and row. -/
def tabulate (f : (x y : Nat) → UInt64) : Lanes :=
  (List.range 25).map fun i => f (i % 5) (i / 5)

/-- The parity of a column. -/
def parity (a : Lanes) (x : Nat) : UInt64 :=
  lane a x 0 ^^^ lane a x 1 ^^^ lane a x 2 ^^^ lane a x 3 ^^^ lane a x 4

/-- Adds to each lane the parities of two neighbouring columns. -/
def theta (a : Lanes) : Lanes :=
  let c := (List.range 5).map (parity a)
  let d := (List.range 5).map fun x =>
    c.getD ((x + 4) % 5) 0 ^^^ Word.rotateLeft (c.getD ((x + 1) % 5) 0) 1
  tabulate fun x y => lane a x y ^^^ d.getD x 0

/-- How far each lane is rotated. -/
def rotations : List UInt64 :=
  [0, 1, 62, 28, 27, 36, 44, 6, 55, 20, 3, 10, 43,
   25, 39, 41, 45, 15, 21, 8, 18, 2, 61, 56, 14]

/-- Rotates each lane and moves it to its new place. -/
def rhoPi (a : Lanes) : Lanes :=
  tabulate fun x y =>
    let column := (x + 3 * y) % 5
    Word.rotateLeft (lane a column x) (rotations.getD (column + 5 * x) 0)

/-- Mixes each row. -/
def chi (a : Lanes) : Lanes :=
  tabulate fun x y => lane a x y ^^^ (~~~ lane a (x + 1) y &&& lane a (x + 2) y)

/-- The constants of the 24 rounds. -/
def roundConstants : List UInt64 :=
  [0x0000000000000001, 0x0000000000008082, 0x800000000000808a, 0x8000000080008000,
   0x000000000000808b, 0x0000000080000001, 0x8000000080008081, 0x8000000000008009,
   0x000000000000008a, 0x0000000000000088, 0x0000000080008009, 0x000000008000000a,
   0x000000008000808b, 0x800000000000008b, 0x8000000000008089, 0x8000000000008003,
   0x8000000000008002, 0x8000000000000080, 0x000000000000800a, 0x800000008000000a,
   0x8000000080008081, 0x8000000000008080, 0x0000000080000001, 0x8000000080008008]

/-- Adds a round's constant to the first lane. -/
def iota (a : Lanes) (constant : UInt64) : Lanes :=
  match a with
  | [] => []
  | first :: rest => (first ^^^ constant) :: rest

/-- One round. -/
def round (a : Lanes) (constant : UInt64) : Lanes :=
  iota (chi (rhoPi (theta a))) constant

/-- **The permutation**: all rounds in order. -/
def permute (a : Lanes) : Lanes :=
  roundConstants.foldl round a

/-- The state of zeros. -/
def initial : Lanes :=
  List.replicate 25 0

/-- Adds the words of a block to the first lanes and permutes. -/
def absorb (a : Lanes) (block : Bytes) : Lanes :=
  let words := block.littleWords
  permute (List.zipWith (· ^^^ ·) (words ++ List.replicate (25 - words.length) 0) a)

/-- The padding that fills a message up to a whole number of blocks of `rate` bytes: a byte that
marks the kind of digest, zeros, and the top bit of the last byte. -/
def padding (rate length : Nat) (mark : UInt8) : Bytes :=
  let room := rate - length % rate
  if room = 1 then [mark ||| 0x80]
  else mark :: (List.replicate (room - 2) 0 ++ [0x80])

end Keccak

/-- **SHA3-256** of a byte string. -/
def sha3 (message : Bytes) : Octets 32 :=
  let padded := message ++ Keccak.padding 136 message.length 0x06
  let final := (padded.chunks 136).foldl Keccak.absorb Keccak.initial
  Octets.fit 32 (final.flatMap Word.toLittle)

end SealedMessaging
