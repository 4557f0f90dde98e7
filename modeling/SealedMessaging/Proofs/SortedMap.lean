import SealedMessaging.SortedMap

/-!
# Entries in ascending order are determined by what is found

* `lookup_eq_some_iff`: if no key comes twice, what is found for a key is what stands there.
* `foldl_insertEntry`: inserting ascending entries one by one gives them back.
* `SortedMap.ext_get?`, `SortedMap.insert_get?`: maps are equal if all keys are mapped alike, so
  mapping a key to what it is mapped to changes nothing.
* `SortedMap.insertAll`: entries inserted one after the other, with `SortedMap.insertAll_empty`, that
  a map is made of its entries, and `SortedMap.get?_insertAll`, that the last one for a key counts.
-/

namespace SealedMessaging

universe u v

variable {κ : Type u} {ν : Type v} [LT κ] [DecidableLT κ] [DecidableEq κ]

omit [LT κ] [DecidableLT κ] in
theorem mem_of_lookup {k : κ} {v : ν} {entries : List (κ × ν)} (h : entries.lookup k = some v) :
    (k, v) ∈ entries := by
  induction entries with
  | nil => exact absurd h (by simp)
  | cons head rest ih =>
    obtain ⟨a, b⟩ := head
    rw [lookup_entry_cons] at h
    split at h
    · rename_i hk
      obtain rfl := Option.some.inj h
      exact hk ▸ List.mem_cons_self
    · exact List.mem_cons_of_mem _ (ih h)

section Unrepeated

omit [LT κ] [DecidableLT κ]

theorem lookup_eq_none_iff {k : κ} {entries : List (κ × ν)} :
    entries.lookup k = none ↔ k ∉ entries.map Prod.fst := by
  induction entries with
  | nil => simp
  | cons head rest ih =>
    obtain ⟨a, b⟩ := head
    rw [lookup_entry_cons, List.map_cons, List.mem_cons, not_or]
    by_cases h : k = a
    · simp [h]
    · simp [h, ih]

/-- The key of the first entry is not found behind it, if it comes only once. -/
theorem lookup_eq_none_of_count {k : κ} {v : ν} {rest : List (κ × ν)}
    (h : (((k, v) :: rest).map Prod.fst).count k ≤ 1) : rest.lookup k = none := by
  rw [List.map_cons, List.count_cons_self] at h
  rw [lookup_eq_none_iff, ← List.count_eq_zero]
  omega

/-- If no key comes twice, what is found for a key is what stands there. -/
theorem lookup_eq_some_iff {k : κ} {v : ν} {entries : List (κ × ν)}
    (h : (entries.map Prod.fst).Nodup) : entries.lookup k = some v ↔ (k, v) ∈ entries := by
  refine ⟨mem_of_lookup, fun hmem => ?_⟩
  induction entries with
  | nil => exact absurd hmem (by simp)
  | cons head rest ih =>
    obtain ⟨a, b⟩ := head
    obtain ⟨ha, hrest⟩ := List.nodup_cons.1 h
    rw [lookup_entry_cons]
    rcases List.mem_cons.1 hmem with heq | hin
    · obtain ⟨rfl, rfl⟩ := Prod.mk.inj heq
      exact if_pos rfl
    · have hne : k ≠ a := by
        rintro rfl
        exact ha (List.mem_map.2 ⟨(k, v), hin, rfl⟩)
      rw [if_neg hne]
      exact ih hrest hin

omit [DecidableEq κ] in
/-- Entries of which no key comes twice do not come twice either. -/
theorem nodup_of_nodup_keys {entries : List (κ × ν)} (h : (entries.map Prod.fst).Nodup) :
    entries.Nodup :=
  List.Pairwise.of_map _ (fun _ _ hne heq => hne (congrArg Prod.fst heq)) h

/-- If no key comes twice, the last entry of a key is its only one. -/
theorem lookup_reverse_eq_some_iff {k : κ} {v : ν} {entries : List (κ × ν)}
    (h : (entries.map Prod.fst).Nodup) : entries.reverse.lookup k = some v ↔ (k, v) ∈ entries := by
  have hreverse : (entries.reverse.map Prod.fst).Nodup :=
    ((List.reverse_perm entries).map Prod.fst).nodup_iff.2 h
  rw [lookup_eq_some_iff hreverse, List.mem_reverse]

end Unrepeated

/-- Entries inserted one by one are the only new ones. -/
theorem mem_foldl_insertEntry {acc entries : List (κ × ν)} {e : κ × ν}
    (h : e ∈ entries.foldl (fun acc e => insertEntry e.1 e.2 acc) acc) : e ∈ acc ∨ e ∈ entries := by
  induction entries generalizing acc with
  | nil => exact Or.inl h
  | cons head rest ih =>
    rcases ih h with hmem | hmem
    · rcases mem_insertEntry hmem with heq | hold
      · exact Or.inr (heq ▸ List.mem_cons_self)
      · exact Or.inl hold
    · exact Or.inr (List.mem_cons_of_mem _ hmem)

/-- Among entries inserted one by one, the one found is that which was inserted, if its key was
inserted only once. -/
theorem lookup_foldl_insertEntry {k : κ} {entries : List (κ × ν)}
    (h : (entries.map Prod.fst).count k ≤ 1) (acc : List (κ × ν)) :
    (entries.foldl (fun acc e => insertEntry e.1 e.2 acc) acc).lookup k =
      (entries.lookup k).or (acc.lookup k) := by
  induction entries generalizing acc with
  | nil => simp
  | cons head rest ih =>
    obtain ⟨a, b⟩ := head
    have hrest : (rest.map Prod.fst).count k ≤ 1 := Nat.le_trans (List.count_le_count_cons) h
    rw [List.foldl_cons, ih hrest, lookup_insertEntry, lookup_entry_cons]
    by_cases hk : k = a
    · subst hk
      simp [lookup_eq_none_of_count h]
    · simp [hk]

section Order

variable [Std.Irrefl (α := κ) (· < ·)]

omit [DecidableLT κ] [DecidableEq κ] in
theorem Ascending.nodup {entries : List (κ × ν)} (h : Ascending entries) :
    (entries.map Prod.fst).Nodup := by
  rw [List.nodup_iff_pairwise_ne, List.pairwise_map]
  refine h.imp fun {a b} hab heq => ?_
  exact Std.Irrefl.irrefl (r := fun (x y : κ) => x < y) _ (heq ▸ hab)

variable [Trans (α := κ) (· < ·) (· < ·) (· < ·)]

/-- An entry that belongs at the end is put there. -/
theorem insertEntry_of_forall_lt {k : κ} {v : ν} {entries : List (κ × ν)}
    (h : ∀ e ∈ entries, e.1 < k) : insertEntry k v entries = entries ++ [(k, v)] := by
  have hirrefl : ∀ x : κ, ¬ x < x := Std.Irrefl.irrefl (r := fun (x y : κ) => x < y)
  induction entries with
  | nil => rfl
  | cons head rest ih =>
    obtain ⟨a, b⟩ := head
    have ha : a < k := h (a, b) List.mem_cons_self
    have hnlt : ¬ k < a := fun hk => hirrefl a (Trans.trans ha hk)
    have hne : k ≠ a := fun hk => hirrefl a (hk ▸ ha)
    rw [insertEntry, if_neg hnlt, if_neg hne, ih fun e he => h e (List.mem_cons_of_mem _ he)]
    rfl

/-- **Ascending entries are the outcome of inserting them** one by one. -/
theorem foldl_insertEntry {acc entries : List (κ × ν)} (h : Ascending (acc ++ entries)) :
    entries.foldl (fun acc e => insertEntry e.1 e.2 acc) acc = acc ++ entries := by
  induction entries generalizing acc with
  | nil => simp
  | cons head rest ih =>
    obtain ⟨a, b⟩ := head
    have hlast : ∀ e ∈ acc, e.1 < a := fun e he =>
      (List.pairwise_append.1 h).2.2 e he (a, b) List.mem_cons_self
    have hsplit : acc ++ (a, b) :: rest = (acc ++ [(a, b)]) ++ rest := by simp
    rw [List.foldl_cons, insertEntry_of_forall_lt hlast, ih (hsplit ▸ h), ← hsplit]

end Order

namespace SortedMap

section Extensionality

variable [Std.Irrefl (α := κ) (· < ·)]

omit [DecidableLT κ] in
theorem get?_eq_some_iff {m : SortedMap κ ν} {k : κ} {v : ν} :
    m.get? k = some v ↔ (k, v) ∈ m.entries :=
  lookup_eq_some_iff m.ascending.nodup

variable [Trans (α := κ) (· < ·) (· < ·) (· < ·)]

omit [DecidableLT κ] in
/-- **Maps are equal if all keys are mapped alike.** -/
theorem ext_get? {a b : SortedMap κ ν} (h : ∀ k, a.get? k = b.get? k) : a = b := by
  have hmem : ∀ e : κ × ν, e ∈ a.entries ↔ e ∈ b.entries := by
    intro e
    rw [← get?_eq_some_iff, ← get?_eq_some_iff, h]
  have hperm := (List.perm_ext_iff_of_nodup (nodup_of_nodup_keys a.ascending.nodup)
    (nodup_of_nodup_keys b.ascending.nodup)).2 hmem
  have ha : a.entries.Pairwise fun x y => x.1 < y.1 := a.ascending
  have hb : b.entries.Pairwise fun x y => x.1 < y.1 := b.ascending
  refine ext (hperm.eq_of_pairwise (fun x y _ _ hxy hyx => ?_) ha hb)
  exact absurd (Trans.trans hxy hyx) (Std.Irrefl.irrefl (r := fun (x y : κ) => x < y) _)

/-- Mapping a key to what it is mapped to changes nothing. -/
theorem insert_get? [Std.Trichotomous (α := κ) (· < ·)] {m : SortedMap κ ν} {k : κ} {v : ν}
    (h : m.get? k = some v) : m.insert k v = m := by
  apply ext_get?
  intro k'
  rw [get?_insert]
  split
  · rename_i hk
    rw [hk, h]
  · rfl

end Extensionality

/-! ## Entries inserted one after the other -/

section InsertAll

variable [Trans (α := κ) (· < ·) (· < ·) (· < ·)] [Std.Trichotomous (α := κ) (· < ·)]

/-- **Entries inserted one after the other**, so that the last of several for one key stays. -/
def insertAll (m : SortedMap κ ν) (entries : List (κ × ν)) : SortedMap κ ν :=
  entries.foldl (fun m e => m.insert e.1 e.2) m

theorem entries_insertAll (m : SortedMap κ ν) (entries : List (κ × ν)) :
    (m.insertAll entries).entries =
      entries.foldl (fun acc e => insertEntry e.1 e.2 acc) m.entries := by
  induction entries generalizing m with
  | nil => rfl
  | cons e rest ih => exact ih (m.insert e.1 e.2)

theorem mem_insertAll {m : SortedMap κ ν} {entries : List (κ × ν)} {e : κ × ν}
    (h : e ∈ (m.insertAll entries).entries) : e ∈ m.entries ∨ e ∈ entries := by
  rw [entries_insertAll] at h
  exact mem_foldl_insertEntry h

/-- Of several entries for one key the last one counts. -/
theorem get?_insertAll (m : SortedMap κ ν) (entries : List (κ × ν)) (k : κ) :
    (m.insertAll entries).get? k = (entries.reverse.lookup k).or (m.get? k) := by
  induction entries generalizing m with
  | nil => rfl
  | cons e rest ih =>
    have hrest := ih (m.insert e.1 e.2)
    rw [List.reverse_cons, List.lookup_append, lookup_entry_cons, List.lookup_nil, Option.or_assoc]
    refine hrest.trans (congrArg _ ?_)
    rw [get?_insert]
    split <;> rfl

/-- If no key comes twice, each entry that is inserted is found. -/
theorem get?_insertAll_of_nodup {entries : List (κ × ν)} (h : (entries.map Prod.fst).Nodup) {k : κ}
    {v : ν} : ((empty : SortedMap κ ν).insertAll entries).get? k = some v ↔ (k, v) ∈ entries := by
  rw [get?_insertAll, get?_empty, Option.or_none, lookup_reverse_eq_some_iff h]

variable [Std.Irrefl (α := κ) (· < ·)]

/-- Ascending entries are those of the map they are inserted in. -/
theorem entries_insertAll_empty {entries : List (κ × ν)} (h : Ascending entries) :
    ((empty : SortedMap κ ν).insertAll entries).entries = entries := by
  rw [entries_insertAll]
  exact foldl_insertEntry (show Ascending ([] ++ entries) from h)

/-- **A map is made of its entries.** -/
theorem insertAll_empty (m : SortedMap κ ν) : (empty : SortedMap κ ν).insertAll m.entries = m :=
  ext (entries_insertAll_empty m.ascending)

/-- If no key comes twice, there are as many entries as were inserted. -/
theorem size_insertAll {entries : List (κ × ν)} (h : (entries.map Prod.fst).Nodup) :
    ((empty : SortedMap κ ν).insertAll entries).size = entries.length := by
  refine List.Perm.length_eq ((List.perm_ext_iff_of_nodup
    (nodup_of_nodup_keys (ascending _).nodup) (nodup_of_nodup_keys h)).2 fun e => ?_)
  obtain ⟨k, v⟩ := e
  rw [← get?_eq_some_iff, get?_insertAll_of_nodup h]

end InsertAll

/-! ## The keys of a map -/

/-- **The keys of a map**, as a map that says nothing else. -/
def keys (m : SortedMap κ ν) : SortedMap κ Unit :=
  ⟨m.entries.map fun e => (e.1, ()), by
    unfold Ascending
    rw [List.pairwise_map]
    exact m.ascending⟩

omit [DecidableLT κ] [DecidableEq κ] in
@[simp] theorem keys_empty : (empty : SortedMap κ ν).keys = empty := rfl

omit [DecidableLT κ] [DecidableEq κ] in
theorem map_fst_entries_keys (m : SortedMap κ ν) :
    m.keys.entries.map Prod.fst = m.entries.map Prod.fst := by
  unfold keys
  rw [List.map_map]
  rfl

omit [DecidableLT κ] [DecidableEq κ] in
theorem size_keys (m : SortedMap κ ν) : m.keys.size = m.size :=
  List.length_map _

omit [DecidableLT κ] in
theorem get?_keys (m : SortedMap κ ν) (k : κ) : m.keys.get? k = (m.get? k).map fun _ => () := by
  have hlookup : ∀ entries : List (κ × ν),
      (entries.map fun e => (e.1, ())).lookup k = (entries.lookup k).map fun _ => () := by
    intro entries
    induction entries with
    | nil => rfl
    | cons e rest ih =>
      obtain ⟨a, b⟩ := e
      rw [List.map_cons, lookup_entry_cons, lookup_entry_cons, ih]
      split <;> rfl
  exact hlookup m.entries

section Changes

variable [Std.Irrefl (α := κ) (· < ·)] [Trans (α := κ) (· < ·) (· < ·) (· < ·)]

theorem keys_insert [Std.Trichotomous (α := κ) (· < ·)] (m : SortedMap κ ν) (k : κ) (v : ν) :
    (m.insert k v).keys = m.keys.insert k () := by
  apply ext_get?
  intro k'
  rw [get?_keys, get?_insert, get?_insert, get?_keys]
  split <;> rfl

omit [DecidableLT κ] in
theorem keys_erase (m : SortedMap κ ν) (k : κ) : (m.erase k).keys = m.keys.erase k := by
  apply ext_get?
  intro k'
  rw [get?_keys, get?_erase, get?_erase, get?_keys]
  split <;> rfl

end Changes

end SortedMap

end SealedMessaging
