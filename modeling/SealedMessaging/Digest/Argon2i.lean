import SealedMessaging.Digest.Argon2i.Block
import SealedMessaging.Digest.Blake2b

/-!
# Argon2i

The memory-hard digest of a password, version 19, in one pass with data-independent addressing. The
memory is a square of lanes by columns; each lane is cut into four slices, which are filled slice by
slice.

* `Argon2i.Cost`: the sizes.
* `Argon2i.referenceColumn`: which earlier block a new one depends on.
* `Argon2i.fill`: the memory.
* `argon2i`: the 32-byte digest.
-/

namespace SealedMessaging.Argon2i

/-- The sizes of a computation. -/
structure Cost where
  lanes : Nat
  /-- The number of blocks of a slice of a lane. -/
  sliceLength : Nat

namespace Cost

/-- The number of slices of a lane. -/
def slices : Nat := 4

/-- The number of blocks of a lane. -/
def laneLength (cost : Cost) : Nat := slices * cost.sliceLength

/-- The number of blocks. -/
def size (cost : Cost) : Nat := cost.lanes * cost.laneLength

end Cost

/-- Four bytes of a number, least significant first. -/
def bytes4 (n : Nat) : Bytes := Bytes.ofNat 4 n

/-- The chain of digests behind a long digest: 32 bytes of each but the last, which has 64. -/
def stretch : (count : Nat) → (previous : Bytes) → Bytes
  | 0, previous => previous
  | count + 1, previous => previous.take 32 ++ stretch count (blake2b 64 previous)

/-- A digest of `size` bytes, for a `size` that is 32 or a greater multiple of it. -/
def longDigest (size : Nat) (input : Bytes) : Bytes :=
  if size ≤ 64 then blake2b size (bytes4 size ++ input)
  else stretch (size / 32 - 2) (blake2b 64 (bytes4 size ++ input))

/-- The digest of all inputs, from which the first blocks are made. -/
def seed (cost : Cost) (password salt : Bytes) : Bytes :=
  blake2b 64 (bytes4 cost.lanes ++ bytes4 32 ++ bytes4 cost.size ++ bytes4 1 ++ bytes4 19 ++
    bytes4 1 ++ bytes4 password.length ++ password ++ bytes4 salt.length ++ salt ++
    bytes4 0 ++ bytes4 0)

/-- One of the first two blocks of a lane. -/
def firstBlock (seed : Bytes) (lane column : Nat) : Block :=
  Block.ofList (longDigest 1024 (seed ++ bytes4 column ++ bytes4 lane)).littleWords

/-- The block of 128 addresses for a slice of a lane. -/
def addresses (cost : Cost) (lane slice count : Nat) : Block :=
  let input := Block.ofList (([0, lane, slice, cost.size, 1, 1, count] : List Nat).map UInt64.ofNat)
  Block.compress .zero (Block.compress .zero input)

/-- The lane a new block refers to. In the first slice it is the block's own. -/
def referenceLane (cost : Cost) (lane slice : Nat) (address : UInt64) : Nat :=
  if slice = 0 then lane else (address >>> 32).toNat % cost.lanes

/-- How many blocks of a lane a new block may refer to: those of earlier slices, in its own lane
also those of this slice before its predecessor. -/
def referenceCount (cost : Cost) (slice index : Nat) (sameLane : Bool) : Nat :=
  let before := slice * cost.sliceLength
  if sameLane then before + index - 1
  else if index = 0 then before - 1
  else before

/-- **The column a new block refers to**, from the lower half of its address. Later columns are
more likely. -/
def referenceColumn (count : Nat) (address : UInt64) : Nat :=
  let j := (address &&& 0xffffffff).toNat
  let x := j * j / Nat.pow 2 32
  count - 1 - count * x / Nat.pow 2 32

/-- A block in a square of lanes kept row by row. -/
def blockAt (cost : Cost) (memory : Array Block) (lane column : Nat) : Block :=
  memory[lane * cost.laneLength + column]?.getD .zero

/-- Fills the block at a place of a slice. -/
def fillBlock (cost : Cost) (lane slice index : Nat) (address : UInt64) (memory : Array Block) :
    Array Block :=
  let column := slice * cost.sliceLength + index
  let fromLane := referenceLane cost lane slice address
  let count := referenceCount cost slice index (fromLane == lane)
  let reference := blockAt cost memory fromLane (referenceColumn count address)
  let previous := blockAt cost memory lane (column - 1)
  memory.setIfInBounds (lane * cost.laneLength + column) (Block.compress previous reference)

/-- Fills the blocks at the places `start, start + 1, …` of a slice, one for each address. -/
def fillRun (cost : Cost) (lane slice : Nat) : (start : Nat) → List UInt64 → Array Block → Array Block
  | _, [], memory => memory
  | start, address :: rest, memory =>
    fillRun cost lane slice (start + 1) rest (fillBlock cost lane slice start address memory)

/-- Fills one slice of a lane, 128 blocks for each block of addresses. The first two blocks of a
lane are there already. -/
def fillSlice (cost : Cost) (memory : Array Block) (slice lane : Nat) : Array Block :=
  (List.range ((cost.sliceLength + 127) / 128)).foldl (fun memory group =>
    let run := (addresses cost lane slice (group + 1)).toList.take (cost.sliceLength - 128 * group)
    let skipped := if slice = 0 ∧ group = 0 then 2 else 0
    fillRun cost lane slice (128 * group + skipped) (run.drop skipped) memory) memory

/-- The memory with the first two blocks of each lane in place. -/
def start (cost : Cost) (seed : Bytes) : Array Block :=
  (List.range cost.lanes).foldl (fun memory lane =>
    (memory.setIfInBounds (lane * cost.laneLength) (firstBlock seed lane 0)).setIfInBounds
      (lane * cost.laneLength + 1) (firstBlock seed lane 1))
    (Array.replicate cost.size Block.zero)

/-- **The memory**: slice after slice, in each slice lane after lane. -/
def fill (cost : Cost) (seed : Bytes) : Array Block :=
  (List.range Cost.slices).foldl (fun memory slice =>
    (List.range cost.lanes).foldl (fun memory lane => fillSlice cost memory slice lane) memory)
    (start cost seed)

/-- The combination of the last blocks of all lanes. -/
def lastColumn (cost : Cost) (memory : Array Block) : Block :=
  (List.range cost.lanes).foldl (fun sum lane =>
    sum.xor (blockAt cost memory lane (cost.laneLength - 1))) .zero

end SealedMessaging.Argon2i

namespace SealedMessaging

/-- **Argon2i** in one pass, with a digest of 32 bytes. -/
def argon2i (cost : Argon2i.Cost) (password salt : Bytes) : Octets 32 :=
  let memory := Argon2i.fill cost (Argon2i.seed cost password salt)
  Octets.fit 32 (Argon2i.longDigest 32 ((Argon2i.lastColumn cost memory).toList.flatMap Word.toLittle))

end SealedMessaging
