import SealedMessaging.Bytes

/-!
# Numbers, exclusive or and pieces of byte strings

* `Bytes.toNat_ofNat`, `Bytes.ofNat_toNat`: little-endian writing and reading undo each other.
* `Bytes.xor_xor_cancel`: combining twice with the same bytes changes nothing.
* `Bytes.chunks_of_ne_nil`, `Bytes.chunks_append`: the pieces of a string.
* `Octets.fit_toList`, `Octets.fit_take_append`: octets found again at the front of a string.
* `Octets.ext_get`, `Octets.get_xor`: octets byte by byte.
-/

namespace SealedMessaging

namespace Bytes

theorem toNat_ofNat (width n : Nat) : toNat (ofNat width n) = n % Nat.pow 256 width := by
  induction width generalizing n with
  | zero => simp [ofNat, toNat, Nat.mod_one]
  | succ width ih =>
    have hpow : Nat.pow 256 (width + 1) = 256 * Nat.pow 256 width := Nat.mul_comm _ _
    have hbyte : (UInt8.ofNat n).toNat = n % 256 := UInt8.toNat_ofNat'
    rw [ofNat, toNat, ih, hbyte, hpow, Nat.mod_mul]

theorem toNat_lt (bs : Bytes) : toNat bs < Nat.pow 256 bs.length := by
  induction bs with
  | nil => exact Nat.one_pos
  | cons b rest ih =>
    have hpow : Nat.pow 256 (rest.length + 1) = Nat.pow 256 rest.length * 256 := rfl
    have hb : b.toNat < 256 := b.toNat_lt
    rw [toNat, List.length_cons, hpow]
    omega

theorem ofNat_toNat (bs : Bytes) : ofNat bs.length (toNat bs) = bs := by
  induction bs with
  | nil => rfl
  | cons b rest ih =>
    have hb : b.toNat < 256 := b.toNat_lt
    have hlow : UInt8.ofNat (b.toNat + 256 * toNat rest) = b := by
      apply UInt8.toNat.inj
      rw [UInt8.toNat_ofNat']
      omega
    have hhigh : (b.toNat + 256 * toNat rest) / 256 = toNat rest := by omega
    rw [toNat, List.length_cons, ofNat, hlow, hhigh, ih]

theorem length_xor (a b : Bytes) : (xor a b).length = min a.length b.length :=
  List.length_zipWith

/-- **Combining twice with the same bytes changes nothing**, if there are enough of them. -/
theorem xor_xor_cancel {a b : Bytes} (h : a.length ≤ b.length) : xor (xor a b) b = a := by
  induction a generalizing b with
  | nil => rfl
  | cons x xs ih =>
    cases b with
    | nil => simp at h
    | cons y ys =>
      have hxy : x ^^^ y ^^^ y = x := by rw [UInt8.xor_assoc, UInt8.xor_self, UInt8.xor_zero]
      have htail := ih (b := ys) (by simpa using h)
      simp only [xor, List.zipWith_cons_cons] at htail ⊢
      rw [hxy, htail]

/-- Different strings stay different when they are combined with a string that is long enough. -/
theorem xor_inj {a b k : Bytes} (ha : a.length ≤ k.length) (hb : b.length ≤ k.length)
    (h : xor a k = xor b k) : a = b := by
  rw [← xor_xor_cancel ha, h, xor_xor_cancel hb]

theorem xor_comm (a b : Bytes) : xor a b = xor b a :=
  List.zipWith_comm_of_comm UInt8.xor_comm

/-- Combining with zeros changes nothing. -/
theorem xor_zeros (a : Bytes) : xor a (List.replicate a.length 0) = a := by
  induction a with
  | nil => rfl
  | cons x xs ih =>
    have hx : x ^^^ 0 = x := UInt8.xor_zero
    rw [List.length_cons, List.replicate_succ]
    unfold xor at ih ⊢
    rw [List.zipWith_cons_cons, ih, hx]

/-- Flipping bits of a byte changes a string. -/
theorem modify_xor_ne {bs : Bytes} {n : Nat} (hn : n < bs.length) {bits : UInt8}
    (hbits : bits ≠ 0) : bs.modify n (· ^^^ bits) ≠ bs := by
  intro h
  have hget := congrArg (fun bs => bs[n]?) h
  simp only [List.getElem?_modify_eq, List.getElem?_eq_getElem hn] at hget
  have hbyte : bs[n] ^^^ bits = bs[n] := Option.some.inj hget
  exact hbits ((UInt8.xor_right_inj bs[n]).1 (hbyte.trans UInt8.xor_zero.symm))

theorem isZero_iff {bs : Bytes} : bs.isZero = true ↔ ∀ b ∈ bs, b = 0 := by
  simp [isZero]

theorem isZero_eq_false_iff {bs : Bytes} : bs.isZero = false ↔ ∃ b ∈ bs, b ≠ 0 := by
  simp [isZero]

/-! ## Pieces -/

section Pieces

variable {n : Nat} (hn : 0 < n)

include hn

theorem chunksUpTo_eq {p q : Nat} {bs : Bytes} (hp : bs.length ≤ p) (hq : bs.length ≤ q) :
    chunksUpTo n p bs = chunksUpTo n q bs := by
  induction p generalizing q bs with
  | zero =>
    obtain rfl := List.length_eq_zero_iff.1 (Nat.le_zero.1 hp)
    cases q <;> rfl
  | succ p ih =>
    cases bs with
    | nil => cases q <;> rfl
    | cons b rest =>
      cases q with
      | zero => exact absurd hq (Nat.not_succ_le_zero _)
      | succ q =>
        have hdrop : ((b :: rest).drop n).length ≤ rest.length := by
          rw [List.length_drop, List.length_cons]
          omega
        rw [List.length_cons] at hp hq
        exact congrArg _ (ih (by omega) (by omega))

theorem chunks_of_ne_nil {bs : Bytes} (h : bs ≠ []) :
    chunks n bs = bs.take n :: chunks n (bs.drop n) := by
  cases bs with
  | nil => exact absurd rfl h
  | cons b rest =>
    have hdrop : ((b :: rest).drop n).length ≤ rest.length := by
      rw [List.length_drop, List.length_cons]
      omega
    exact congrArg _ (chunksUpTo_eq hn hdrop (Nat.le_refl _))

/-- Whole pieces in front are cut off on their own. -/
theorem chunks_append {front : Bytes} (hfront : n ∣ front.length) (bs : Bytes) :
    chunks n (front ++ bs) = chunks n front ++ chunks n bs := by
  obtain ⟨k, hk⟩ := hfront
  induction k generalizing front with
  | zero =>
    obtain rfl := List.length_eq_zero_iff.1 hk
    rfl
  | succ k ih =>
    have hlen : n ≤ front.length := by rw [hk]; exact Nat.le_mul_of_pos_right n (Nat.succ_pos k)
    have hne : front ≠ [] := List.ne_nil_of_length_pos (Nat.lt_of_lt_of_le hn hlen)
    have hrest : (front.drop n).length = n * k := by rw [List.length_drop, hk, Nat.mul_succ]; omega
    rw [chunks_of_ne_nil hn hne, chunks_of_ne_nil hn (List.append_ne_nil_of_left_ne_nil hne bs),
      List.take_append_of_le_length hlen, List.drop_append_of_le_length hlen, ih hrest,
      List.cons_append]

end Pieces

end Bytes

namespace Octets

variable {n : Nat}

@[simp] theorem fit_toList (a : Octets n) : fit n a.toList = a :=
  ext (toList_fit a.length_toList)

theorem take_append_toList (a : Octets n) (bs : Bytes) : (a.toList ++ bs).take n = a.toList :=
  List.take_left' a.length_toList

theorem drop_append_toList (a : Octets n) (bs : Bytes) : (a.toList ++ bs).drop n = bs :=
  List.drop_left' a.length_toList

/-- The first `n` bytes of a string that has as many. -/
theorem toList_fit_take {bs : Bytes} (h : n ≤ bs.length) :
    (fit n (bs.take n)).toList = bs.take n :=
  toList_fit (List.length_take_of_le h)

theorem fit_take_append (a : Octets n) (bs : Bytes) : fit n ((a.toList ++ bs).take n) = a := by
  rw [take_append_toList, fit_toList]

theorem getElem?_append (t : Octets n) (bs : Bytes) (i : Fin n) :
    (t.toList ++ bs)[i.val]? = some (t.get i) := by
  have hi : i.val < t.toList.length := t.length_toList.symm ▸ i.isLt
  rw [List.getElem?_append_left hi, List.getElem?_eq_getElem hi]
  rfl

theorem exists_append {bs : Bytes} (h : n ≤ bs.length) :
    ∃ (t : Octets n) (rest : Bytes), t.toList ++ rest = bs :=
  ⟨⟨bs.take n, List.length_take_of_le h⟩, bs.drop n, List.take_append_drop n bs⟩

theorem ofNatBig_toNatBig (a : Octets n) : ofNatBig n a.toNatBig = a := by
  have hlen : a.toList.reverse.length = n := List.length_reverse.trans a.length_toList
  have hread := Bytes.ofNat_toNat a.toList.reverse
  rw [hlen] at hread
  apply ext
  show (Bytes.ofNat n (Bytes.toNat a.toList.reverse)).reverse = a.toList
  rw [hread, List.reverse_reverse]

theorem toNatBig_ofNatBig (value : Nat) : (ofNatBig n value).toNatBig = value % Nat.pow 256 n := by
  unfold ofNatBig toNatBig
  rw [List.reverse_reverse, Bytes.toNat_ofNat]

theorem toNatBig_lt (a : Octets n) : a.toNatBig < Nat.pow 256 n := by
  have hlt := Bytes.toNat_lt a.toList.reverse
  rwa [List.length_reverse, a.length_toList] at hlt

theorem toNatBig_injective : Function.Injective (toNatBig (n := n)) :=
  Function.LeftInverse.injective ofNatBig_toNatBig

/-- Strings of one length that fit are told apart by what they are fitted to. -/
theorem fit_inj {a b : Bytes} (hlen : a.length = b.length) (hfit : a.length ≤ n)
    (h : fit n a = fit n b) : a = b := by
  have hfront : ∀ bs : Bytes, bs.length ≤ n → (fit n bs).toList.take bs.length = bs := by
    intro bs hbs
    unfold fit
    rw [List.take_take, Nat.min_eq_left hbs, List.take_left]
  rw [← hfront a hfit, ← hfront b (hlen ▸ hfit), h, hlen]

/-! ## Exclusive or of octets -/

theorem ext_get {a b : Octets n} (h : ∀ i, a.get i = b.get i) : a = b := by
  refine ext (List.ext_getElem (a.length_toList.trans b.length_toList.symm) fun i ha hb => ?_)
  exact h ⟨i, a.length_toList ▸ ha⟩

theorem get_xor (a b : Octets n) (i : Fin n) : (a ^^^ b).get i = a.get i ^^^ b.get i := by
  simp only [get, List.get_eq_getElem]
  exact List.getElem_zipWith

theorem xor_xor_cancel (a b : Octets n) : a ^^^ b ^^^ b = a := by
  refine ext_get fun i => ?_
  rw [get_xor, get_xor, UInt8.xor_assoc, UInt8.xor_self, UInt8.xor_zero]

theorem xor_comm (a b : Octets n) : a ^^^ b = b ^^^ a := by
  refine ext_get fun i => ?_
  rw [get_xor, get_xor, UInt8.xor_comm]

theorem xor_left_inj {a b c : Octets n} : a ^^^ c = b ^^^ c ↔ a = b :=
  ⟨fun h => by rw [← xor_xor_cancel a c, h, xor_xor_cancel], fun h => h ▸ rfl⟩

theorem xor_right_inj {a b c : Octets n} : c ^^^ a = c ^^^ b ↔ a = b := by
  rw [xor_comm c a, xor_comm c b, xor_left_inj]

end Octets

end SealedMessaging
