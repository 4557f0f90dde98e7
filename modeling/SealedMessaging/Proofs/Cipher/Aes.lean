import SealedMessaging.Cipher.Aes
import SealedMessaging.Proofs.Bytes

/-!
# The cipher permutes blocks

Every step of a round is undone by a step of its own: the substitution by the inverse table, the
turned rows by turning them back, the mixed columns by the inverse matrix. What is left is a chain of
rounds, which the inverse cipher undoes from its end.

* `Aes.times_xor`: multiplication by a factor is linear.
* `Aes.unmixColumns_mixColumns`: the two matrices are inverse.
* `Aes.unround_round`, `Aes.unlastRound_lastRound`: a round is undone.
* `Aes.decryptWith_encryptWith`, `Aes.encryptWith_injective`: the cipher is a permutation.
* `Aes.decryptBlock_encryptBlock`: the same under a key, with a known answer.
-/

namespace SealedMessaging.Aes

/-! ## Bytes -/

/-- What holds for the 256 bytes holds for every byte. -/
theorem forall_byte {P : UInt8 → Prop} (h : ∀ i : Fin 256, P (UInt8.ofFin i)) (b : UInt8) : P b :=
  h b.toFin

theorem unsubstitute_substitute (b : UInt8) : unsubstitute (substitute b) = b :=
  forall_byte (P := fun b => unsubstitute (substitute b) = b) (by decide +kernel) b

theorem topBit_cases (b : UInt8) : b &&& 0x80 = 0 ∨ b &&& 0x80 = 0x80 :=
  forall_byte (P := fun b => b &&& 0x80 = 0 ∨ b &&& 0x80 = 0x80) (by decide +kernel) b

theorem xor_and (a b c : UInt8) : (a ^^^ b) &&& c = (a &&& c) ^^^ (b &&& c) := by
  apply UInt8.toBitVec_inj.1
  rw [UInt8.toBitVec_and, UInt8.toBitVec_xor, UInt8.toBitVec_xor, UInt8.toBitVec_and,
    UInt8.toBitVec_and]
  refine BitVec.eq_of_getLsbD_eq fun i _ => ?_
  simp only [BitVec.getLsbD_and, BitVec.getLsbD_xor]
  exact Bool.and_xor_distrib_right _ _ _

/-- Doubling is linear, and so is the reduction in it. -/
theorem double_xor (a b : UInt8) : double (a ^^^ b) = double a ^^^ double b := by
  have hreduced : (if (a ^^^ b) &&& 0x80 = 0 then (0 : UInt8) else 0x1b) =
      (if a &&& 0x80 = 0 then 0 else 0x1b) ^^^ (if b &&& 0x80 = 0 then 0 else 0x1b) := by
    rw [xor_and]
    rcases topBit_cases a with ha | ha <;> rcases topBit_cases b with hb | hb <;> rw [ha, hb] <;>
      decide
  unfold double
  rw [UInt8.shiftLeft_xor, hreduced]
  ac_rfl

/-- **Multiplication by a factor is linear.** -/
theorem times_xor (factor : Nat) (a b : UInt8) :
    times factor (a ^^^ b) = times factor a ^^^ times factor b := by
  have hpart : ∀ (c : Bool) (x y : UInt8),
      (if c then x ^^^ y else 0) = (if c then x else 0) ^^^ (if c then y else 0) := by
    intro c x y
    cases c <;> simp
  unfold times
  simp only [double_xor, hpart]
  ac_rfl

/-! ## The steps of a round -/

theorem unsubBytes_subBytes (s : Block) : unsubBytes (subBytes s) = s := by
  refine Octets.ext_get fun i => ?_
  unfold unsubBytes subBytes
  rw [Octets.get_ofFn, Octets.get_ofFn, unsubstitute_substitute]

theorem unshiftRows_shiftRows (s : Block) : unshiftRows (shiftRows s) = s := by
  have hback : ∀ i : Fin 16, Fin.ofNat 16 ((Fin.ofNat 16 (i.val + 12 * (i.val % 4))).val +
      4 * ((Fin.ofNat 16 (i.val + 12 * (i.val % 4))).val % 4)) = i := by decide
  refine Octets.ext_get fun i => ?_
  unfold unshiftRows shiftRows
  rw [Octets.get_ofFn, Octets.get_ofFn, hback]

/-- The position `k` rows below a position, in the same column. -/
def below (i : Fin 16) (k : Nat) : Fin 16 :=
  ⟨(4 * (i.val / 4) + (i.val + k) % 4) % 16, Nat.mod_lt _ (by decide)⟩

theorem get_mixWith (k0 k1 k2 k3 : Nat) (s : Block) (i : Fin 16) :
    (mixWith k0 k1 k2 k3 s).get i =
      times k0 (s.get (below i 0)) ^^^ times k1 (s.get (below i 1)) ^^^
        times k2 (s.get (below i 2)) ^^^ times k3 (s.get (below i 3)) :=
  Octets.get_ofFn _ _

theorem below_zero (i : Fin 16) : below i 0 = i := by
  revert i
  decide

theorem below_below (i : Fin 16) (j k : Nat) : below (below i j) k = below i ((j + k) % 4) := by
  have hval : (below i j).val = 4 * (i.val / 4) + (i.val + j) % 4 :=
    Nat.mod_eq_of_lt (by omega)
  have hcolumn : 4 * ((below i j).val / 4) = 4 * (i.val / 4) := by omega
  have hrow : ((below i j).val + k) % 4 = (i.val + (j + k) % 4) % 4 := by omega
  apply Fin.ext
  show (4 * ((below i j).val / 4) + ((below i j).val + k) % 4) % 16 =
    (4 * (i.val / 4) + (i.val + (j + k) % 4) % 4) % 16
  rw [hcolumn, hrow]

/-- **The two matrices are inverse.** The four products with the bytes of a column add up to the first
byte itself and to nothing from the other three. -/
theorem unmix_mix (a b c d : UInt8) :
    times 14 (times 2 a ^^^ times 3 b ^^^ times 1 c ^^^ times 1 d) ^^^
      times 11 (times 2 b ^^^ times 3 c ^^^ times 1 d ^^^ times 1 a) ^^^
      times 13 (times 2 c ^^^ times 3 d ^^^ times 1 a ^^^ times 1 b) ^^^
      times 9 (times 2 d ^^^ times 3 a ^^^ times 1 b ^^^ times 1 c) = a := by
  have hsame : times 14 (times 2 a) ^^^ times 11 (times 1 a) ^^^ times 13 (times 1 a) ^^^
      times 9 (times 3 a) = a :=
    forall_byte (P := fun a => times 14 (times 2 a) ^^^ times 11 (times 1 a) ^^^
      times 13 (times 1 a) ^^^ times 9 (times 3 a) = a) (by decide +kernel) a
  have hfirst : times 14 (times 3 b) ^^^ times 11 (times 2 b) ^^^ times 13 (times 1 b) ^^^
      times 9 (times 1 b) = 0 :=
    forall_byte (P := fun b => times 14 (times 3 b) ^^^ times 11 (times 2 b) ^^^
      times 13 (times 1 b) ^^^ times 9 (times 1 b) = 0) (by decide +kernel) b
  have hsecond : times 14 (times 1 c) ^^^ times 11 (times 3 c) ^^^ times 13 (times 2 c) ^^^
      times 9 (times 1 c) = 0 :=
    forall_byte (P := fun c => times 14 (times 1 c) ^^^ times 11 (times 3 c) ^^^
      times 13 (times 2 c) ^^^ times 9 (times 1 c) = 0) (by decide +kernel) c
  have hthird : times 14 (times 1 d) ^^^ times 11 (times 1 d) ^^^ times 13 (times 3 d) ^^^
      times 9 (times 2 d) = 0 :=
    forall_byte (P := fun d => times 14 (times 1 d) ^^^ times 11 (times 1 d) ^^^
      times 13 (times 3 d) ^^^ times 9 (times 2 d) = 0) (by decide +kernel) d
  simp only [times_xor]
  calc _ = (times 14 (times 2 a) ^^^ times 11 (times 1 a) ^^^ times 13 (times 1 a) ^^^
          times 9 (times 3 a)) ^^^
        (times 14 (times 3 b) ^^^ times 11 (times 2 b) ^^^ times 13 (times 1 b) ^^^
          times 9 (times 1 b)) ^^^
        (times 14 (times 1 c) ^^^ times 11 (times 3 c) ^^^ times 13 (times 2 c) ^^^
          times 9 (times 1 c)) ^^^
        (times 14 (times 1 d) ^^^ times 11 (times 1 d) ^^^ times 13 (times 3 d) ^^^
          times 9 (times 2 d)) := by ac_rfl
    _ = a := by rw [hsame, hfirst, hsecond, hthird, UInt8.xor_zero, UInt8.xor_zero, UInt8.xor_zero]

theorem unmixColumns_mixColumns (s : Block) : unmixColumns (mixColumns s) = s := by
  refine Octets.ext_get fun i => ?_
  unfold unmixColumns mixColumns
  simp only [get_mixWith, below_below, Nat.reduceAdd, Nat.reduceMod]
  rw [unmix_mix, below_zero]

/-! ## Rounds -/

theorem unround_round (s key : Block) : unround (round s key) key = s := by
  unfold unround round
  rw [Octets.xor_xor_cancel, unmixColumns_mixColumns, unshiftRows_shiftRows, unsubBytes_subBytes]

theorem unlastRound_lastRound (s key : Block) : unlastRound (lastRound s key) key = s := by
  unfold unlastRound lastRound
  rw [Octets.xor_xor_cancel, unshiftRows_shiftRows, unsubBytes_subBytes]

/-- The rounds of a list of keys are undone from the last key to the first. -/
theorem foldr_unround_foldl_round (keys : List Block) (s : Block) :
    keys.foldr (fun key s => unround s key) (keys.foldl round s) = s := by
  induction keys generalizing s with
  | nil => rfl
  | cons key keys ih => rw [List.foldl_cons, List.foldr_cons, ih, unround_round]

/-- **The inverse cipher undoes the cipher**, under all round keys. -/
theorem decryptWith_encryptWith (keys : List Block) (s : Block) :
    decryptWith keys (encryptWith keys s) = s := by
  unfold decryptWith encryptWith
  rw [unlastRound_lastRound, foldr_unround_foldl_round, Octets.xor_xor_cancel]

theorem encryptWith_injective (keys : List Block) : Function.Injective (encryptWith keys) :=
  Function.LeftInverse.injective (decryptWith_encryptWith keys)

/-- **The inverse cipher undoes the cipher** under a key. -/
theorem decryptBlock_encryptBlock (key : Octets 32) (s : Block) :
    decryptBlock key (encryptBlock key s) = s :=
  decryptWith_encryptWith (roundKeys key) s

/-- The known answer for the key `00 01 .. 1f` and the block `00 11 .. ff`. -/
example : encryptBlock (.ofFn fun i => .ofNat i) (.ofFn fun i => .ofNat (17 * i)) =
    .fit 16 [0x8e, 0xa2, 0xb7, 0xca, 0x51, 0x67, 0x45, 0xbf, 0xea, 0xfc, 0x49, 0x90, 0x4b, 0x49,
      0x60, 0x89] := by
  decide +kernel

end SealedMessaging.Aes
