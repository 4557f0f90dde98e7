import SealedMessaging.Bytes.Words

/-!
# The blocks of Argon2i

A block is 1024 bytes, eight rows of sixteen words. The words of a row stand in eight cells of two,
so a block is also a square of eight by eight cells.

* `Row.permute`: the mixing of a row, one round of BLAKE2b with multiplications added.
* `Block.transpose`: the square with rows and columns exchanged.
* `Block.compress`: two blocks worked into one.
-/

namespace SealedMessaging.Argon2i

/-- Four words. -/
structure Quad where
  (a b c d : UInt64)

/-- Sixteen words. -/
structure Row where
  (w0 w1 w2 w3 : UInt64)
  (w4 w5 w6 w7 : UInt64)
  (w8 w9 w10 w11 : UInt64)
  (w12 w13 w14 w15 : UInt64)
  deriving DecidableEq

/-- The sum of two words and twice the product of their lower halves. -/
@[inline] def addMultiply (a b : UInt64) : UInt64 :=
  a + b + 2 * (a &&& 0xffffffff) * (b &&& 0xffffffff)

/-- Mixes four words. -/
@[inline] def mix (a b c d : UInt64) : Quad :=
  let a := addMultiply a b
  let d := Word.rotateRight (d ^^^ a) 32
  let c := addMultiply c d
  let b := Word.rotateRight (b ^^^ c) 24
  let a := addMultiply a b
  let d := Word.rotateRight (d ^^^ a) 16
  let c := addMultiply c d
  let b := Word.rotateRight (b ^^^ c) 63
  ⟨a, b, c, d⟩

namespace Row

/-- The row of zeros. -/
def zero : Row :=
  ⟨0, 0, 0, 0, 0, 0, 0, 0, 0, 0, 0, 0, 0, 0, 0, 0⟩

/-- Word by word exclusive or. -/
def xor (a b : Row) : Row :=
  ⟨a.w0 ^^^ b.w0, a.w1 ^^^ b.w1, a.w2 ^^^ b.w2, a.w3 ^^^ b.w3, a.w4 ^^^ b.w4, a.w5 ^^^ b.w5,
    a.w6 ^^^ b.w6, a.w7 ^^^ b.w7, a.w8 ^^^ b.w8, a.w9 ^^^ b.w9, a.w10 ^^^ b.w10, a.w11 ^^^ b.w11,
    a.w12 ^^^ b.w12, a.w13 ^^^ b.w13, a.w14 ^^^ b.w14, a.w15 ^^^ b.w15⟩

/-- **The mixing of a row**, as a square of four by four words: the columns, then the diagonals. -/
def permute (r : Row) : Row :=
  let ⟨a0, b0, c0, d0⟩ := mix r.w0 r.w4 r.w8 r.w12
  let ⟨a1, b1, c1, d1⟩ := mix r.w1 r.w5 r.w9 r.w13
  let ⟨a2, b2, c2, d2⟩ := mix r.w2 r.w6 r.w10 r.w14
  let ⟨a3, b3, c3, d3⟩ := mix r.w3 r.w7 r.w11 r.w15
  let ⟨a0, b1, c2, d3⟩ := mix a0 b1 c2 d3
  let ⟨a1, b2, c3, d0⟩ := mix a1 b2 c3 d0
  let ⟨a2, b3, c0, d1⟩ := mix a2 b3 c0 d1
  let ⟨a3, b0, c1, d2⟩ := mix a3 b0 c1 d2
  ⟨a0, a1, a2, a3, b0, b1, b2, b3, c0, c1, c2, c3, d0, d1, d2, d3⟩

/-- The words in order. -/
def toList (r : Row) : List UInt64 :=
  [r.w0, r.w1, r.w2, r.w3, r.w4, r.w5, r.w6, r.w7, r.w8, r.w9, r.w10, r.w11, r.w12, r.w13, r.w14,
   r.w15]

/-- The row of the first sixteen words of a list, zeros after its end. -/
def ofList (words : List UInt64) : Row :=
  let w := fun i => words.getD i 0
  ⟨w 0, w 1, w 2, w 3, w 4, w 5, w 6, w 7, w 8, w 9, w 10, w 11, w 12, w 13, w 14, w 15⟩

end Row

/-- Eight rows. -/
structure Block where
  (r0 r1 r2 r3 r4 r5 r6 r7 : Row)
  deriving DecidableEq

namespace Block

/-- The block of zeros. -/
def zero : Block :=
  ⟨.zero, .zero, .zero, .zero, .zero, .zero, .zero, .zero⟩

instance : Inhabited Block := ⟨zero⟩

/-- Word by word exclusive or. -/
def xor (a b : Block) : Block :=
  ⟨a.r0.xor b.r0, a.r1.xor b.r1, a.r2.xor b.r2, a.r3.xor b.r3,
   a.r4.xor b.r4, a.r5.xor b.r5, a.r6.xor b.r6, a.r7.xor b.r7⟩

/-- Mixes every row. -/
def permuteRows (b : Block) : Block :=
  ⟨b.r0.permute, b.r1.permute, b.r2.permute, b.r3.permute,
   b.r4.permute, b.r5.permute, b.r6.permute, b.r7.permute⟩

/-- The square with rows and columns of cells exchanged. -/
def transpose (b : Block) : Block :=
  ⟨
    ⟨b.r0.w0, b.r0.w1, b.r1.w0, b.r1.w1, b.r2.w0, b.r2.w1, b.r3.w0, b.r3.w1, b.r4.w0, b.r4.w1,
     b.r5.w0, b.r5.w1, b.r6.w0, b.r6.w1, b.r7.w0, b.r7.w1⟩,
    ⟨b.r0.w2, b.r0.w3, b.r1.w2, b.r1.w3, b.r2.w2, b.r2.w3, b.r3.w2, b.r3.w3, b.r4.w2, b.r4.w3,
     b.r5.w2, b.r5.w3, b.r6.w2, b.r6.w3, b.r7.w2, b.r7.w3⟩,
    ⟨b.r0.w4, b.r0.w5, b.r1.w4, b.r1.w5, b.r2.w4, b.r2.w5, b.r3.w4, b.r3.w5, b.r4.w4, b.r4.w5,
     b.r5.w4, b.r5.w5, b.r6.w4, b.r6.w5, b.r7.w4, b.r7.w5⟩,
    ⟨b.r0.w6, b.r0.w7, b.r1.w6, b.r1.w7, b.r2.w6, b.r2.w7, b.r3.w6, b.r3.w7, b.r4.w6, b.r4.w7,
     b.r5.w6, b.r5.w7, b.r6.w6, b.r6.w7, b.r7.w6, b.r7.w7⟩,
    ⟨b.r0.w8, b.r0.w9, b.r1.w8, b.r1.w9, b.r2.w8, b.r2.w9, b.r3.w8, b.r3.w9, b.r4.w8, b.r4.w9,
     b.r5.w8, b.r5.w9, b.r6.w8, b.r6.w9, b.r7.w8, b.r7.w9⟩,
    ⟨b.r0.w10, b.r0.w11, b.r1.w10, b.r1.w11, b.r2.w10, b.r2.w11, b.r3.w10, b.r3.w11, b.r4.w10,
     b.r4.w11, b.r5.w10, b.r5.w11, b.r6.w10, b.r6.w11, b.r7.w10, b.r7.w11⟩,
    ⟨b.r0.w12, b.r0.w13, b.r1.w12, b.r1.w13, b.r2.w12, b.r2.w13, b.r3.w12, b.r3.w13, b.r4.w12,
     b.r4.w13, b.r5.w12, b.r5.w13, b.r6.w12, b.r6.w13, b.r7.w12, b.r7.w13⟩,
    ⟨b.r0.w14, b.r0.w15, b.r1.w14, b.r1.w15, b.r2.w14, b.r2.w15, b.r3.w14, b.r3.w15, b.r4.w14,
     b.r4.w15, b.r5.w14, b.r5.w15, b.r6.w14, b.r6.w15, b.r7.w14, b.r7.w15⟩⟩

/-- **Two blocks worked into one**: their combination, mixed by rows and by columns, and added
again. -/
def compress (x y : Block) : Block :=
  let sum := x.xor y
  sum.xor (transpose (permuteRows (transpose (permuteRows sum))))

/-- The 128 words in order. -/
def toList (b : Block) : List UInt64 :=
  b.r0.toList ++ b.r1.toList ++ b.r2.toList ++ b.r3.toList ++
    b.r4.toList ++ b.r5.toList ++ b.r6.toList ++ b.r7.toList

/-- The block of the first 128 words of a list, zeros after its end. -/
def ofList (words : List UInt64) : Block :=
  let row := fun (i : Nat) => Row.ofList (words.drop (16 * i))
  ⟨row 0, row 1, row 2, row 3, row 4, row 5, row 6, row 7⟩

end Block

end SealedMessaging.Argon2i
