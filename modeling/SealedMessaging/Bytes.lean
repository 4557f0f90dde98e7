/-!
# Byte strings

Byte strings are lists of `UInt8`; `Octets n` are those of length `n`.

* `Octets.fit`: the first `n` bytes of a string, zeros after its end.
* `Octets.ofBytes?`: a string of length `n` and nothing else.
* `Bytes.ofNat`, `Bytes.toNat`: little-endian numbers of a given width.
* `Bytes.chunks`: a string cut into pieces of `n` bytes, the last one possibly shorter.
-/

namespace SealedMessaging

/-- A byte string of any length. -/
abbrev Bytes := List UInt8

namespace Bytes

/-- The lowest `width` bytes of `n`, least significant first. -/
def ofNat : (width : Nat) → (n : Nat) → Bytes
  | 0, _ => []
  | width + 1, n => UInt8.ofNat n :: ofNat width (n / 256)

/-- The number whose bytes are given, least significant first. -/
def toNat : Bytes → Nat
  | [] => 0
  | b :: rest => b.toNat + 256 * toNat rest

/-- Byte by byte exclusive or, as long as the shorter string. -/
def xor (a b : Bytes) : Bytes :=
  List.zipWith (· ^^^ ·) a b

/-- Whether every byte is zero. -/
def isZero (bs : Bytes) : Bool :=
  bs.all (· == 0)

/-- `chunks` with a bound on the number of pieces. -/
def chunksUpTo (n : Nat) : (pieces : Nat) → Bytes → List Bytes
  | 0, _ => []
  | _ + 1, [] => []
  | pieces + 1, bs => bs.take n :: chunksUpTo n pieces (bs.drop n)

/-- **The string cut into pieces of `n` bytes**; the last piece holds what is left over. -/
def chunks (n : Nat) (bs : Bytes) : List Bytes :=
  chunksUpTo n bs.length bs

theorem length_ofNat (width n : Nat) : (ofNat width n).length = width := by
  induction width generalizing n with
  | zero => rfl
  | succ width ih => simp [ofNat, ih]

end Bytes

/-- Byte strings of length `n`. -/
structure Octets (n : Nat) where
  toList : Bytes
  length_toList : toList.length = n
  deriving DecidableEq

namespace Octets

variable {n : Nat}

@[ext] theorem ext {a b : Octets n} (h : a.toList = b.toList) : a = b := by
  cases a; cases b; cases h; rfl

/-- The first `n` bytes of a string, with zeros after its end. -/
def fit (n : Nat) (bs : Bytes) : Octets n :=
  ⟨(bs ++ List.replicate n 0).take n, by simp⟩

/-- The string itself, if it has length `n`. -/
def ofBytes? (n : Nat) (bs : Bytes) : Option (Octets n) :=
  if h : bs.length = n then some ⟨bs, h⟩ else none

/-- The octets with a given byte at each position. -/
def ofFn (f : Fin n → UInt8) : Octets n :=
  ⟨List.ofFn f, List.length_ofFn⟩

/-- The byte at a position. -/
def get (a : Octets n) (i : Fin n) : UInt8 :=
  a.toList.get (i.cast a.length_toList.symm)

/-- All bytes zero. -/
def zero (n : Nat) : Octets n :=
  ⟨List.replicate n 0, List.length_replicate⟩

/-- Byte by byte exclusive or. -/
def xor (a b : Octets n) : Octets n :=
  ⟨Bytes.xor a.toList b.toList, by simp [Bytes.xor, a.length_toList, b.length_toList]⟩

instance : XorOp (Octets n) := ⟨xor⟩

/-- The number written most significant byte first. -/
def toNatBig (a : Octets n) : Nat :=
  Bytes.toNat a.toList.reverse

/-- A number modulo `256 ^ n`, most significant byte first. -/
def ofNatBig (n : Nat) (value : Nat) : Octets n :=
  ⟨(Bytes.ofNat n value).reverse, by simp [Bytes.length_ofNat]⟩

/-- The number written least significant byte first. -/
def toNat (a : Octets n) : Nat :=
  Bytes.toNat a.toList

/-- A number modulo `256 ^ n`, least significant byte first. -/
def ofNat (n : Nat) (value : Nat) : Octets n :=
  ⟨Bytes.ofNat n value, Bytes.length_ofNat n value⟩

theorem toList_fit {bs : Bytes} (h : bs.length = n) : (fit n bs).toList = bs := by
  simp [fit, h]

theorem get_ofFn (f : Fin n → UInt8) (i : Fin n) : (ofFn f).get i = f i := by
  simp only [get, ofFn, List.get_eq_getElem, List.getElem_ofFn]
  rfl

end Octets

end SealedMessaging
