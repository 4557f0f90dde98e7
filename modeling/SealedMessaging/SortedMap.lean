/-!
# Finite maps in ascending order

A map is the list of its entries, in strictly ascending order of their keys, so two maps with the
same entries are equal.

* `insertEntry`, `eraseEntry`: the two changes, on lists of entries.
* `SortedMap`: the lists in order, with `get?`, `insert` and `erase`.
* `SortedMap.get?_insert`, `SortedMap.get?_erase`: what is found after a change.
-/

namespace SealedMessaging

universe u v

variable {κ : Type u} {ν : Type v} [LT κ] [DecidableLT κ] [DecidableEq κ]

/-- Puts an entry in its place, instead of one with the same key. -/
def insertEntry (k : κ) (v : ν) : List (κ × ν) → List (κ × ν)
  | [] => [(k, v)]
  | (k', v') :: rest =>
    if k < k' then (k, v) :: (k', v') :: rest
    else if k = k' then (k, v) :: rest
    else (k', v') :: insertEntry k v rest

/-- Drops the entry with a key. -/
def eraseEntry (k : κ) (entries : List (κ × ν)) : List (κ × ν) :=
  entries.filter fun entry => entry.1 ≠ k

/-- Strictly ascending keys. -/
def Ascending (entries : List (κ × ν)) : Prop :=
  entries.Pairwise fun a b => a.1 < b.1

theorem mem_insertEntry {k : κ} {v : ν} {entry : κ × ν} {entries : List (κ × ν)}
    (h : entry ∈ insertEntry k v entries) : entry = (k, v) ∨ entry ∈ entries := by
  induction entries with
  | nil => simpa [insertEntry] using h
  | cons head rest ih =>
    rw [insertEntry] at h
    split at h
    · simpa using h
    · split at h
      · simp only [List.mem_cons] at h ⊢
        exact h.imp_right Or.inr
      · simp only [List.mem_cons] at h ⊢
        rcases h with h | h
        · exact Or.inr (Or.inl h)
        · exact (ih h).imp_right Or.inr

omit [LT κ] [DecidableLT κ] in
theorem lookup_entry_cons (k a : κ) (b : ν) (rest : List (κ × ν)) :
    ((a, b) :: rest).lookup k = if k = a then some b else rest.lookup k := by
  rw [List.lookup_cons]
  by_cases h : k = a
  · simp [h]
  · simp [beq_eq_false_iff_ne.mpr h, h]

theorem lookup_insertEntry (k k' : κ) (v : ν) (entries : List (κ × ν)) :
    (insertEntry k v entries).lookup k' = if k' = k then some v else entries.lookup k' := by
  induction entries with
  | nil => rw [insertEntry, lookup_entry_cons]
  | cons head rest ih =>
    obtain ⟨a, b⟩ := head
    rw [insertEntry]
    split
    · rw [lookup_entry_cons]
    · split
      · rename_i hk
        subst hk
        rw [lookup_entry_cons, lookup_entry_cons]
        split <;> rfl
      · rename_i hne
        rw [lookup_entry_cons, lookup_entry_cons, ih]
        by_cases ha : k' = a
        · subst ha
          simp [Ne.symm hne]
        · simp [ha]

omit [LT κ] [DecidableLT κ] in
theorem lookup_eraseEntry (k k' : κ) (entries : List (κ × ν)) :
    (eraseEntry k entries).lookup k' = if k' = k then none else entries.lookup k' := by
  induction entries with
  | nil => simp [eraseEntry]
  | cons head rest ih =>
    obtain ⟨a, b⟩ := head
    rw [eraseEntry] at ih ⊢
    by_cases ha : a = k
    · subst ha
      rw [List.filter_cons_of_neg (by simp), ih, lookup_entry_cons]
      split <;> rfl
    · rw [List.filter_cons_of_pos (by simpa using ha), lookup_entry_cons, lookup_entry_cons, ih]
      by_cases h : k' = a
      · subst h
        simp [ha]
      · simp [h]

section Order

variable [Trans (α := κ) (· < ·) (· < ·) (· < ·)] [Std.Trichotomous (α := κ) (· < ·)]

theorem Ascending.insertEntry {entries : List (κ × ν)} (h : Ascending entries) (k : κ) (v : ν) :
    Ascending (insertEntry k v entries) := by
  induction entries with
  | nil => simp [SealedMessaging.insertEntry, Ascending]
  | cons head rest ih =>
    obtain ⟨a, b⟩ := head
    have hrest := (List.pairwise_cons.mp h).2
    have hhead := (List.pairwise_cons.mp h).1
    rw [SealedMessaging.insertEntry]
    split
    · rename_i hlt
      refine List.pairwise_cons.mpr ⟨fun e he => ?_, h⟩
      rcases List.mem_cons.mp he with rfl | he
      · exact hlt
      · exact Trans.trans hlt (hhead e he)
    · split
      · rename_i heq
        subst heq
        exact List.pairwise_cons.mpr ⟨hhead, hrest⟩
      · rename_i hnlt hne
        refine List.pairwise_cons.mpr ⟨fun e he => ?_, ih hrest⟩
        rcases mem_insertEntry he with rfl | he
        · exact Classical.byContradiction fun hk =>
            hne (Std.Trichotomous.trichotomous (r := fun (x y : κ) => x < y) _ _ hnlt hk)
        · exact hhead e he

end Order

/-! ## Texts as keys -/

instance transText : Trans (α := String) (β := String) (γ := String) (· < ·) (· < ·) (· < ·) :=
  ⟨String.lt_trans⟩

instance trichotomousText : Std.Trichotomous (α := String) (· < ·) :=
  ⟨fun _ _ h k => String.le_antisymm (String.not_lt.mp k) (String.not_lt.mp h)⟩

/-! ## Maps -/

/-- A finite map, as its entries in ascending order of their keys. -/
structure SortedMap (κ : Type u) (ν : Type v) [LT κ] where
  entries : List (κ × ν)
  ascending : Ascending entries

namespace SortedMap

instance [DecidableEq ν] : DecidableEq (SortedMap κ ν) := fun a b =>
  if h : a.entries = b.entries then
    .isTrue (by cases a; cases b; cases h; rfl)
  else .isFalse fun e => h (e ▸ rfl)

omit [DecidableLT κ] [DecidableEq κ] in
@[ext] theorem ext {a b : SortedMap κ ν} (h : a.entries = b.entries) : a = b := by
  cases a; cases b; cases h; rfl

/-- The map without entries. -/
def empty : SortedMap κ ν := ⟨[], List.Pairwise.nil⟩

/-- What a key is mapped to. -/
def get? (m : SortedMap κ ν) (k : κ) : Option ν :=
  m.entries.lookup k

/-- The number of entries. -/
def size (m : SortedMap κ ν) : Nat :=
  m.entries.length

/-- The map without the entry of a key. -/
def erase (m : SortedMap κ ν) (k : κ) : SortedMap κ ν :=
  ⟨eraseEntry k m.entries, List.Pairwise.filter _ m.ascending⟩

variable [Trans (α := κ) (· < ·) (· < ·) (· < ·)] [Std.Trichotomous (α := κ) (· < ·)]

/-- The map in which a key is mapped to a value. -/
def insert (m : SortedMap κ ν) (k : κ) (v : ν) : SortedMap κ ν :=
  ⟨insertEntry k v m.entries, m.ascending.insertEntry k v⟩

omit [DecidableLT κ] [Trans (α := κ) (· < ·) (· < ·) (· < ·)]
  [Std.Trichotomous (α := κ) (· < ·)] in
theorem get?_empty (k : κ) : (empty : SortedMap κ ν).get? k = none := rfl

theorem get?_insert (m : SortedMap κ ν) (k k' : κ) (v : ν) :
    (m.insert k v).get? k' = if k' = k then some v else m.get? k' :=
  lookup_insertEntry k k' v m.entries

omit [DecidableLT κ] [Trans (α := κ) (· < ·) (· < ·) (· < ·)]
  [Std.Trichotomous (α := κ) (· < ·)] in
theorem get?_erase (m : SortedMap κ ν) (k k' : κ) :
    (m.erase k).get? k' = if k' = k then none else m.get? k' :=
  lookup_eraseEntry k k' m.entries

end SortedMap

end SealedMessaging
