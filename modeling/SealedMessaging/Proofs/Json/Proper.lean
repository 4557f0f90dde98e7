import SealedMessaging.Proofs.Json.Entries
import SealedMessaging.Proofs.SortedMap

/-!
# Values in which no name is repeated

The members of an object are kept by their names, so that no name comes twice. That is not part of
the type of values, but it holds of all values that are read.

* `Value.Proper`: no object inside a value repeats a name.
* `Value.proper_of_parse`: it holds of the value that a text is.
-/

namespace SealedMessaging.Json

/-- **No object inside a value repeats a name.** -/
inductive Value.Proper : Value → Prop where
  | null : Proper .null
  | bool (b : Bool) : Proper (.bool b)
  | number (n : Number) : Proper (.number n)
  | string (s : String) : Proper (.string s)
  | array {items : List Value} (values : ∀ v ∈ items, v.Proper) : Proper (.array items)
  | object {members : List (String × Value)} (names : (members.map Prod.fst).Nodup)
      (values : ∀ e ∈ members, e.2.Proper) : Proper (.object members)

namespace Value

theorem proper_of_found {v : Value} (h : v.found ≠ .sequence ∧ v.found ≠ .map) : v.Proper := by
  cases v with
  | null => exact .null
  | bool b => exact .bool b
  | number n => exact .number n
  | string s => exact .string s
  | array items => exact absurd rfl h.1
  | object members => exact absurd rfl h.2

/-! ## Values that are read -/

variable {read : Reader Value}

/-- Items are read one by one. -/
theorem proper_of_readItems (hread : ∀ t v rest, read t = .ok (v, rest) → v.Proper)
    {items : List Value} {bound : Nat} {first : Bool} {t rest : Text}
    (h : readItems read bound first [] t = .ok (items, rest)) : ∀ v ∈ items, v.Proper := by
  induction items generalizing bound first t with
  | nil => exact fun v hv => absurd hv List.not_mem_nil
  | cons w items ih =>
    rcases readItems_eq_ok h with ⟨hnil, -⟩ | ⟨u, v, t₁, items₁, bound₁, hcons, -, hv, hrest⟩
    · exact absurd hnil (by simp)
    · obtain ⟨rfl, rfl⟩ := List.cons.inj hcons
      exact List.forall_mem_cons.2 ⟨hread _ _ _ hv, ih hrest⟩

/-- So are members. -/
theorem proper_of_readEntries (hread : ∀ t v rest, read t = .ok (v, rest) → v.Proper)
    {entries : List (String × Value)} {bound : Nat} {first : Bool} {t rest : Text}
    (h : readEntries read bound first t = .ok (entries, rest)) : ∀ e ∈ entries, e.2.Proper := by
  induction bound generalizing entries first t with
  | zero => exact absurd h (by simp [readEntries])
  | succ bound ih =>
    rcases readEntries_eq_ok h with ⟨rfl, -⟩ | ⟨name, u, t₁, v, t₂, entries', rfl, -, -, hv, hrest⟩
    · exact fun e he => absurd he List.not_mem_nil
    · exact List.forall_mem_cons.2 ⟨hread _ _ _ hv, ih hrest⟩

/-- **A value that is read repeats no name.** -/
theorem proper_of_readValue {depth : Nat} {t rest : Text} {v : Value}
    (h : readValue depth t = .ok (v, rest)) : v.Proper := by
  induction depth generalizing t v rest with
  | zero =>
    unfold readValue at h
    split at h
    · exact absurd h (by simp)
    · exact absurd h (by simp)
    · exact proper_of_found (found_of_readScalar h)
  | succ depth ih =>
    rcases readValue_cases h with ⟨u, items, -, rfl, hitems⟩ | ⟨u, entries, -, rfl, hentries⟩ |
      ⟨-, -, hscalar⟩
    · exact .array (proper_of_readItems (fun _ _ _ => ih) hitems)
    · refine .object (ascending_gather List.Pairwise.nil entries).nodup fun e he => ?_
      rcases mem_foldl_insertEntry he with hnil | hentry
      · exact absurd hnil List.not_mem_nil
      · exact proper_of_readEntries (fun _ _ _ => ih) hentries e hentry
    · exact proper_of_found (found_of_readScalar hscalar)

theorem proper_of_parse {text : String} {v : Value} (h : Value.parse text = .ok v) :
    v.Proper := by
  obtain ⟨⟨w, rest⟩, hread, hend⟩ := Except.bind_eq_ok_iff.1 h
  dsimp only [readEnd] at hend
  split at hend
  · obtain rfl := Except.ok.inj hend
    exact proper_of_readValue hread
  · exact absurd hend (by simp)

end Value

end SealedMessaging.Json
