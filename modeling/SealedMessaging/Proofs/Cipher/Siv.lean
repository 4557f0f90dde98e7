import SealedMessaging.Proofs.Cipher.Cmac
import SealedMessaging.Proofs.Sealing

/-!
# Tags of a header and a plaintext

The header comes into the tag through a mask, which goes over the end of a long plaintext and over
the padded form of a short one. Combining with the mask, as with the keystream, keeps every byte at
its place, so strings that differ in one aligned block still do so afterwards.

* `Siv.mask`, `Siv.masked`: what the header contributes, and the plaintext with it.
* `Siv.tag_inj_of_agreeOutside`: plaintexts that differ in one aligned block have different tags.
* `Siv.tag_header_inj`: so have different headers, if the mask meets the plaintext in one block.
* `Siv.decrypt_append`: decryption of a tag and a ciphertext.
-/

namespace SealedMessaging

/-- Strings that agree outside a range still do so combined with the same bytes. -/
theorem AgreeOutside.xor {first last : Nat} {a b : Bytes} (h : AgreeOutside first last a b)
    (k : Bytes) : AgreeOutside first last (Bytes.xor a k) (Bytes.xor b k) := by
  intro n hn
  unfold Bytes.xor
  rw [List.getElem?_zipWith, List.getElem?_zipWith, h n hn]

namespace Siv

variable {E : Block → Block}

/-! ## The mask of a header -/

/-- **What a header contributes** to the tag. -/
def mask (E : Block → Block) (header : Bytes) : Block :=
  Block.double (cmac E (List.replicate 16 0)) ^^^ cmac E header

/-- The plaintext with the mask of the header over its end. -/
def masked (E : Block → Block) (header plaintext : Bytes) : Bytes :=
  xorEnd plaintext (mask E header)

theorem tag_of_short {header plaintext : Bytes} (h : plaintext.length < 16) :
    tag E header plaintext =
      cmac E (Block.double (mask E header) ^^^ Block.padded plaintext).toList :=
  if_pos h

theorem tag_of_long {header plaintext : Bytes} (h : 16 ≤ plaintext.length) :
    tag E header plaintext = cmac E (masked E header plaintext) :=
  if_neg (Nat.not_lt.2 h)

/-! ## The mask over the end of a plaintext -/

/-- A block at the end of a string of zeros. -/
def atEnd (length : Nat) (d : Block) : Bytes :=
  List.replicate (length - 16) 0 ++ d.toList

theorem length_atEnd {length : Nat} (h : 16 ≤ length) (d : Block) :
    (atEnd length d).length = length := by
  unfold atEnd
  rw [List.length_append, List.length_replicate, d.length_toList]
  omega

theorem xorEnd_eq (p : Bytes) (d : Block) :
    xorEnd p d = Bytes.xor p (atEnd p.length d) := by
  have hfront : (p.take (p.length - 16)).length = p.length - 16 :=
    List.length_take_of_le (Nat.sub_le _ _)
  have hzeros := Bytes.xor_zeros (p.take (p.length - 16))
  rw [hfront] at hzeros
  have hsplit : Bytes.xor (p.take (p.length - 16) ++ p.drop (p.length - 16)) (atEnd p.length d) =
      Bytes.xor (p.take (p.length - 16)) (List.replicate (p.length - 16) 0) ++
        Bytes.xor (p.drop (p.length - 16)) d.toList :=
    List.zipWith_append (by rw [hfront, List.length_replicate])
  rw [List.take_append_drop, hzeros] at hsplit
  exact hsplit.symm

theorem length_xorEnd {p : Bytes} (h : 16 ≤ p.length) (d : Block) :
    (xorEnd p d).length = p.length := by
  rw [xorEnd_eq, Bytes.length_xor, length_atEnd h, Nat.min_self]

theorem length_masked {header p : Bytes} (h : 16 ≤ p.length) : (masked E header p).length = p.length :=
  length_xorEnd h _

/-- Different masks make different strings of a plaintext, which agree up to its last 16 bytes. -/
theorem xorEnd_mask_inj {p : Bytes} (h : 16 ≤ p.length) {d d' : Block}
    (heq : xorEnd p d = xorEnd p d') : d = d' := by
  rw [xorEnd_eq, xorEnd_eq, Bytes.xor_comm p, Bytes.xor_comm p] at heq
  have hends := Bytes.xor_inj (by rw [length_atEnd h]) (by rw [length_atEnd h]) heq
  exact Octets.ext (List.append_cancel_left hends)

theorem agreeOutside_xorEnd {p : Bytes} (h : 16 ≤ p.length) (d d' : Block) :
    AgreeOutside (p.length - 16) p.length (xorEnd p d) (xorEnd p d') := by
  intro n hn
  rcases hn with hn | hn
  · unfold xorEnd
    have hfront : n < (p.take (p.length - 16)).length := by
      rw [List.length_take]
      omega
    rw [List.getElem?_append_left hfront, List.getElem?_append_left hfront]
  · rw [List.getElem?_eq_none (by rw [length_xorEnd h]; exact hn),
      List.getElem?_eq_none (by rw [length_xorEnd h]; exact hn)]

/-! ## Tags -/

section Tags

variable (hE : Function.Injective E)

include hE

/-- Different short headers of one length have different masks. -/
theorem mask_inj {header header' : Bytes} (hlen : header.length = header'.length)
    (hshort : header.length ≤ 16) (h : mask E header = mask E header') : header = header' :=
  cmac_inj_of_length_le hE hlen hshort (Octets.xor_right_inj.1 h)

/-- The tag of a block is injective. -/
theorem cmac_block_inj {x y : Block} (h : cmac E x.toList = cmac E y.toList) : x = y := by
  have hlen : x.toList.length = y.toList.length := x.length_toList.trans y.length_toList.symm
  exact Octets.ext (cmac_inj_of_length_le hE hlen (Nat.le_of_eq x.length_toList) h)

/-- **Plaintexts that differ in one aligned block have different tags**, whatever the header. -/
theorem tag_inj_of_agreeOutside {header p q : Bytes} (hlen : p.length = q.length) {i : Nat}
    (hagree : AgreeOutside (16 * i) (16 * i + 16) p q) (h : tag E header p = tag E header q) :
    p = q := by
  rcases Nat.lt_or_ge p.length 16 with hshort | hlong
  · rw [tag_of_short hshort, tag_of_short (hlen ▸ hshort)] at h
    exact Block.padded_inj hlen hshort (Octets.xor_right_inj.1 (cmac_block_inj hE h))
  · have hlong' : 16 ≤ q.length := hlen ▸ hlong
    have hsame : (masked E header p).length = (masked E header q).length := by
      rw [length_masked hlong, length_masked hlong', hlen]
    rw [tag_of_long hlong, tag_of_long hlong'] at h
    unfold masked at hsame h
    rw [xorEnd_eq, xorEnd_eq, ← hlen] at hsame h
    have hxor := cmac_inj_of_agreeOutside hE hsame (hagree.xor _) h
    exact Bytes.xor_inj (by rw [length_atEnd hlong]) (by rw [length_atEnd hlong, hlen]) hxor

/-- Different short headers of one length mask a long plaintext differently. -/
theorem masked_header_inj {header header' p : Bytes} (hlen : header.length = header'.length)
    (hshort : header.length ≤ 16) (hlong : 16 ≤ p.length)
    (h : masked E header p = masked E header' p) : header = header' :=
  mask_inj hE hlen hshort (xorEnd_mask_inj hlong h)

/-- **Different headers have different tags** for a plaintext whose last block the mask meets: a short
one, or one of whole blocks. -/
theorem tag_header_inj {header header' p : Bytes} (hlen : header.length = header'.length)
    (hheader : header.length ≤ 16) (hp : p.length < 16 ∨ 16 ∣ p.length)
    (h : tag E header p = tag E header' p) : header = header' := by
  rcases Nat.lt_or_ge p.length 16 with hshort | hlong
  · rw [tag_of_short hshort, tag_of_short hshort] at h
    have hdouble := Octets.xor_left_inj.1 (cmac_block_inj hE h)
    exact mask_inj hE hlen hheader (Block.double_injective hdouble)
  · obtain ⟨n, hn⟩ := hp.resolve_left (Nat.not_lt.2 hlong)
    have hsame : (masked E header p).length = (masked E header' p).length := by
      rw [length_masked hlong, length_masked hlong]
    have hagree := agreeOutside_xorEnd hlong (mask E header) (mask E header')
    have hfirst : p.length - 16 = 16 * (n - 1) := by omega
    have hlast : p.length = 16 * (n - 1) + 16 := by omega
    rw [hfirst, hlast] at hagree
    rw [tag_of_long hlong, tag_of_long hlong] at h
    exact masked_header_inj hE hlen hheader hlong (cmac_inj_of_agreeOutside hE hsame hagree h)

end Tags

/-! ## Decryption -/

/-- Decryption of a tag and a ciphertext: the tag of what is found must be the one in front. -/
theorem decrypt_append (header : Bytes) (t : Block) (ciphertext : Bytes) :
    decrypt E header (t.toList ++ ciphertext) =
      if tag E header (applyKeystream E t ciphertext) = t then
        some (applyKeystream E t ciphertext)
      else none := by
  unfold decrypt
  simp only [Octets.fit_take_append, Octets.drop_append_toList]

/-- Ciphertexts that agree outside a range give plaintexts that do. -/
theorem agreeOutside_applyKeystream {a b : Bytes} (hlen : a.length = b.length) {first last : Nat}
    (hagree : AgreeOutside first last a b) (t : Block) :
    AgreeOutside first last (applyKeystream E t a) (applyKeystream E t b) := by
  unfold applyKeystream
  rw [hlen]
  exact hagree.xor _

theorem applyKeystream_injective (t : Block) : Function.Injective (applyKeystream E t) :=
  Function.LeftInverse.injective (applyKeystream_applyKeystream E t)

/-- The keystream does not depend on the bits that the counter ignores. -/
theorem applyKeystream_eq_of_firstCounter {t t' : Block} (h : firstCounter t = firstCounter t')
    (bs : Bytes) : applyKeystream E t bs = applyKeystream E t' bs := by
  unfold applyKeystream keystream counter
  rw [h]

end Siv

end SealedMessaging
