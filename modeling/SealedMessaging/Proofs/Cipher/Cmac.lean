import Mathlib.Data.Nat.Bitwise
import SealedMessaging.Cipher.Cmac
import SealedMessaging.Proofs.Bytes

/-!
# Tags of messages that differ in one block

Over a permutation, a chain of blocks is injective in every block and in its state: a difference that
goes in is never lost again. So messages of one length that differ in a single block have different
tags. Nothing is said of messages that differ in more blocks, where one difference may undo another.

* `Block.double_injective`, `Block.padded_inj`: how the masks and the last block are made.
* `Cmac.chain_state_inj`, `Cmac.chain_piece_inj`: the chain keeps differences.
* `AgreeOutside`, `cmac_ne_of_agreeOutside`: messages that differ in one aligned block.
-/

namespace SealedMessaging

namespace Block

/-- **Doubling is injective.** What is reduced comes out odd, and what is not comes out even. -/
theorem double_injective : Function.Injective double := by
  have hodd : ∀ v : Nat, (2 * v ^^^ 0x87) % 2 ^ 128 % 2 = 1 := by
    intro v
    have hparity : (2 * v ^^^ 0x87) % 2 = 1 := Nat.xor_mod_two_eq_one.2 (by omega)
    omega
  intro a b h
  have ha : a.toNatBig < 2 ^ 128 := a.toNatBig_lt
  have hb : b.toNatBig < 2 ^ 128 := b.toNatBig_lt
  have hodda := hodd a.toNatBig
  have hoddb := hodd b.toNatBig
  have hsize : Nat.pow 256 16 = 2 ^ 128 := rfl
  have hvalue := congrArg Octets.toNatBig h
  simp only [double, Octets.toNatBig_ofNatBig, hsize] at hvalue
  apply Octets.toNatBig_injective
  split at hvalue <;> split at hvalue
  · omega
  · omega
  · omega
  · rw [Nat.xor_mod_two_pow, Nat.xor_mod_two_pow, Nat.xor_left_inj] at hvalue
    omega

theorem padded_inj {x y : Bytes} (hlen : x.length = y.length) (hshort : x.length < 16)
    (h : padded x = padded y) : x = y := by
  have hsame : (x ++ [0x80]).length = (y ++ [0x80]).length := by
    rw [List.length_append, List.length_append, hlen]
  have hfit : (x ++ [0x80]).length ≤ 16 := by
    rw [List.length_append, List.length_singleton]
    omega
  exact List.append_cancel_right (Octets.fit_inj hsame hfit h)

end Block

namespace Cmac

variable {E : Block → Block}

theorem lastBlock_inj {x y : Bytes} (hlen : x.length = y.length) (hfit : x.length ≤ 16)
    (h : lastBlock E x = lastBlock E y) : x = y := by
  unfold lastBlock at h
  by_cases hwhole : x.length = 16
  · rw [if_pos hwhole, if_pos (hlen ▸ hwhole)] at h
    exact Octets.fit_inj hlen hfit (Octets.xor_left_inj.1 h)
  · rw [if_neg hwhole, if_neg (hlen ▸ hwhole)] at h
    exact Block.padded_inj hlen (by omega) (Octets.xor_left_inj.1 h)

theorem chain_of_ne_nil (state : Block) (piece : Bytes) {rest : List Bytes} (h : rest ≠ []) :
    chain E state (piece :: rest) = chain E (E (state ^^^ Octets.fit 16 piece)) rest := by
  cases rest with
  | nil => exact absurd rfl h
  | cons next rest => rfl

variable (hE : Function.Injective E)

include hE

/-- **The chain keeps a difference of its state.** -/
theorem chain_state_inj {pieces : List Bytes} {s s' : Block}
    (h : chain E s pieces = chain E s' pieces) : s = s' := by
  induction pieces generalizing s s' with
  | nil => exact Octets.xor_left_inj.1 (hE h)
  | cons piece rest ih =>
    cases rest with
    | nil => exact Octets.xor_left_inj.1 (hE h)
    | cons next rest => exact Octets.xor_left_inj.1 (hE (ih h))

/-- **It keeps a difference of one piece**, wherever it stands. -/
theorem chain_piece_inj {front rest : List Bytes} {x y : Bytes} {s : Block}
    (hlen : x.length = y.length) (hfit : x.length ≤ 16)
    (h : chain E s (front ++ x :: rest) = chain E s (front ++ y :: rest)) : x = y := by
  induction front generalizing s with
  | nil =>
    cases rest with
    | nil => exact lastBlock_inj hlen hfit (Octets.xor_right_inj.1 (hE h))
    | cons next rest =>
      have hstate := hE (chain_state_inj hE h)
      exact Octets.fit_inj hlen hfit (Octets.xor_right_inj.1 hstate)
  | cons piece front ih =>
    rw [List.cons_append, List.cons_append, chain_of_ne_nil s piece (by simp),
      chain_of_ne_nil s piece (by simp)] at h
    exact ih h

end Cmac

/-! ## Messages -/

namespace Bytes

/-- The pieces before an aligned block, the block, and the pieces after it. -/
theorem chunks_eq_around {m : Bytes} {i : Nat} (h : 16 * i < m.length) :
    chunks 16 m = chunks 16 (m.take (16 * i)) ++
      (m.drop (16 * i)).take 16 :: chunks 16 (m.drop (16 * i + 16)) := by
  have hfront : (m.take (16 * i)).length = 16 * i := List.length_take_of_le (Nat.le_of_lt h)
  have hrest : m.drop (16 * i) ≠ [] := by
    rw [ne_eq, List.drop_eq_nil_iff]
    omega
  have hpieces := chunks_append (n := 16) (by decide) (hfront ▸ Nat.dvd_mul_right 16 i)
    (m.drop (16 * i))
  rw [List.take_append_drop, chunks_of_ne_nil (by decide) hrest, List.drop_drop] at hpieces
  exact hpieces

theorem eq_around (m : Bytes) (i : Nat) :
    m = m.take (16 * i) ++ ((m.drop (16 * i)).take 16 ++ m.drop (16 * i + 16)) := by
  rw [← List.drop_drop, List.take_append_drop, List.take_append_drop]

end Bytes

/-- Two strings have the same bytes outside a range of positions. -/
def AgreeOutside (first last : Nat) (a b : Bytes) : Prop :=
  ∀ n, n < first ∨ last ≤ n → a[n]? = b[n]?

theorem AgreeOutside.take_eq {first last : Nat} {a b : Bytes} (h : AgreeOutside first last a b) :
    a.take first = b.take first := by
  refine List.ext_getElem? fun n => ?_
  rw [List.getElem?_take, List.getElem?_take]
  split
  · exact h n (Or.inl ‹_›)
  · rfl

theorem AgreeOutside.drop_eq {first last : Nat} {a b : Bytes} (h : AgreeOutside first last a b) :
    a.drop last = b.drop last := by
  refine List.ext_getElem? fun n => ?_
  rw [List.getElem?_drop, List.getElem?_drop]
  exact h _ (Or.inr (Nat.le_add_right last n))

section Messages

variable {E : Block → Block} (hE : Function.Injective E) {a b : Bytes}

include hE

/-- **Messages of one length that differ in one aligned block have different tags.** -/
theorem cmac_inj_of_agreeOutside (hlen : a.length = b.length) {i : Nat}
    (hagree : AgreeOutside (16 * i) (16 * i + 16) a b) (h : cmac E a = cmac E b) : a = b := by
  rcases Nat.lt_or_ge (16 * i) a.length with hinside | houtside
  · have hpieceLength : ((a.drop (16 * i)).take 16).length = ((b.drop (16 * i)).take 16).length := by
      rw [List.length_take, List.length_take, List.length_drop, List.length_drop, hlen]
    have hinside' : 16 * i < b.length := hlen ▸ hinside
    unfold cmac at h
    rw [Bytes.chunks_eq_around hinside, Bytes.chunks_eq_around hinside', hagree.take_eq,
      hagree.drop_eq] at h
    have hpiece := Cmac.chain_piece_inj hE hpieceLength (List.length_take_le 16 _) h
    rw [Bytes.eq_around a i, Bytes.eq_around b i, hagree.take_eq, hagree.drop_eq, hpiece]
  · have htake := hagree.take_eq
    rwa [List.take_of_length_le houtside, List.take_of_length_le (hlen ▸ houtside)] at htake

/-- Short messages of one length have different tags. -/
theorem cmac_inj_of_length_le (hlen : a.length = b.length) (hshort : a.length ≤ 16)
    (h : cmac E a = cmac E b) : a = b := by
  refine cmac_inj_of_agreeOutside hE hlen (i := 0) (fun n hn => ?_) h
  rcases hn with hn | hn
  · omega
  · rw [List.getElem?_eq_none (by omega), List.getElem?_eq_none (by omega)]

end Messages

end SealedMessaging
