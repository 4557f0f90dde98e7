import SealedMessaging.Proofs.Json.Skimming

/-!
# The parts of a list and of an object one by one

A list or an object that is read consists of a first part and of what follows it. The members of an
object are taken here as they stand in the text, in their order and with repetitions; the object that
is read gathers them.

* `readItems_eq_ok`: a list, by its first item.
* `readEntries`, `readMembers_eq`: the members of an object as they stand, and what is made of them.
* `readValue_cases`: a value is a list, an object or neither.
-/

namespace SealedMessaging.Json

variable {read : Reader Value}

/-! ## Lists -/

theorem readItems_acc {bound : Nat} : ∀ {first : Bool} {acc : List Value} {t : Text},
    readItems read bound first acc t =
      (readItems read bound first [] t).map fun r => (acc.reverse ++ r.1, r.2) := by
  induction bound with
  | zero => intro first acc t; rfl
  | succ bound ih =>
    intro first acc t
    rw [readItems, readItems]
    cases nextItem first t with
    | error stop => rfl
    | ok next =>
      cases next with
      | done rest =>
        show Except.ok (acc.reverse, rest) = .ok (acc.reverse ++ [], rest)
        rw [List.append_nil]
      | part a u =>
        show (read u >>= fun r => readItems read bound false (r.1 :: acc) r.2) =
          (read u >>= fun r => readItems read bound false [r.1] r.2).map _
        cases read u with
        | error stop => rfl
        | ok r =>
          show readItems read bound false (r.1 :: acc) r.2 =
            (readItems read bound false [r.1] r.2).map _
          -- with one item in hand or with more, what follows is what it is with none
          have hone := @ih false [r.1] r.2
          rw [ih, hone]
          cases readItems read bound false [] r.2 with
          | error stop => rfl
          | ok items =>
            show Except.ok _ = Except.ok _
            simp

/-- **A list that is read** is at its end, or it has a first item and goes on behind it. -/
theorem readItems_eq_ok {bound : Nat} {first : Bool} {t rest : Text} {items : List Value}
    (h : readItems read bound first [] t = .ok (items, rest)) :
    (items = [] ∧ nextItem first t = .ok (.done rest)) ∨
      ∃ u v t' items' bound', items = v :: items' ∧ nextItem first t = .ok (.part () u) ∧
        read u = .ok (v, t') ∧ readItems read bound' false [] t' = .ok (items', rest) := by
  cases bound with
  | zero => exact absurd h (by simp [readItems])
  | succ bound =>
    rw [readItems, Except.bind_eq_ok_iff] at h
    obtain ⟨next, hnext, h⟩ := h
    cases next with
    | done r =>
      obtain ⟨rfl, rfl⟩ := Prod.mk.inj (Except.ok.inj h)
      exact Or.inl ⟨rfl, hnext⟩
    | part a u =>
      dsimp only at h
      rw [Except.bind_eq_ok_iff] at h
      obtain ⟨⟨v, t'⟩, hv, h⟩ := h
      rw [readItems_acc, Except.map_eq_ok_iff] at h
      obtain ⟨⟨items', rest'⟩, hrest, h⟩ := h
      obtain ⟨rfl, rfl⟩ := Prod.mk.inj h
      exact Or.inr ⟨u, v, t', items', bound, rfl, hnext, hv, hrest⟩

/-! ## Objects -/

/-- **The members of an object as they stand in the text**, behind its opening bracket. -/
def readEntries (read : Reader Value) :
    (bound : Nat) → (first : Bool) → Text → Except Stop (List (String × Value) × Text)
  | 0, _, _ => .error .cutShort
  | bound + 1, first, t => do
    match ← nextMember first t with
    | .done rest => return ([], rest)
    | .part name t =>
      let (v, t) ← read (← readColon t)
      let (entries, t) ← readEntries read bound false t
      return ((name, v) :: entries, t)

/-- Members gathered in an object, the last of those with one name. -/
def gather (acc entries : List (String × Value)) : List (String × Value) :=
  entries.foldl (fun acc e => insertEntry e.1 e.2 acc) acc

theorem ascending_gather {acc : List (String × Value)} (h : Ascending acc)
    (entries : List (String × Value)) : Ascending (gather acc entries) := by
  induction entries generalizing acc with
  | nil => exact h
  | cons e rest ih => exact ih (h.insertEntry e.1 e.2)

/-- **An object gathers its members.** -/
theorem readMembers_eq {bound : Nat} : ∀ {first : Bool} {acc : List (String × Value)} {t : Text},
    readMembers read bound first acc t =
      (readEntries read bound first t).map fun r => (gather acc r.1, r.2) := by
  -- each step of both is taken in turn; if one fails, so does the other
  induction bound with
  | zero => intro first acc t; rfl
  | succ bound ih =>
    intro first acc t
    rw [readMembers, readEntries]
    cases nextMember first t with
    | error stop => rfl
    | ok next =>
      cases next with
      | done rest => rfl
      | part name u =>
        show (readColon u >>= fun t => read t >>= fun r =>
            readMembers read bound false (insertEntry name r.1 acc) r.2) =
          (readColon u >>= fun t => read t >>= fun r =>
            readEntries read bound false r.2 >>= fun es => pure ((name, r.1) :: es.1, es.2)).map _
        cases readColon u with
        | error stop => rfl
        | ok t' =>
          show (read t' >>= fun r => readMembers read bound false (insertEntry name r.1 acc) r.2) =
            (read t' >>= fun r =>
              readEntries read bound false r.2 >>= fun es => pure ((name, r.1) :: es.1, es.2)).map _
          cases read t' with
          | error stop => rfl
          | ok r =>
            show readMembers read bound false (insertEntry name r.1 acc) r.2 =
              (readEntries read bound false r.2 >>= fun es => pure ((name, r.1) :: es.1, es.2)).map _
            rw [ih]
            cases readEntries read bound false r.2 <;> rfl

/-- Members that are read are at their end, or there is a first one and they go on behind it. -/
theorem readEntries_eq_ok {bound : Nat} {first : Bool} {t rest : Text}
    {entries : List (String × Value)}
    (h : readEntries read (bound + 1) first t = .ok (entries, rest)) :
    (entries = [] ∧ nextMember first t = .ok (.done rest)) ∨
      ∃ name u t₁ v t₂ entries', entries = (name, v) :: entries' ∧
        nextMember first t = .ok (.part name u) ∧ readColon u = .ok t₁ ∧ read t₁ = .ok (v, t₂) ∧
        readEntries read bound false t₂ = .ok (entries', rest) := by
  rw [readEntries, Except.bind_eq_ok_iff] at h
  obtain ⟨next, hnext, h⟩ := h
  cases next with
  | done r =>
    obtain ⟨rfl, rfl⟩ := Prod.mk.inj (Except.ok.inj h)
    exact Or.inl ⟨rfl, hnext⟩
  | part name u =>
    dsimp only at h
    simp only [Except.bind_eq_ok_iff] at h
    obtain ⟨t₁, hcolon, ⟨v, t₂⟩, hv, ⟨entries', rest'⟩, hrest, h⟩ := h
    obtain ⟨rfl, rfl⟩ := Prod.mk.inj (Except.ok.inj h)
    exact Or.inr ⟨name, u, t₁, v, t₂, entries', rfl, hnext, hcolon, hv, hrest⟩

/-! ## Values -/

/-- A value that holds no others is neither a list nor an object. -/
theorem found_of_readScalar {t rest : Text} {v : Value} (h : readScalar t = .ok (v, rest)) :
    v.found ≠ .sequence ∧ v.found ≠ .map := by
  cases readScalar_eq_ok_iff.1 h <;> exact ⟨by simp [Value.found], by simp [Value.found]⟩

/-- **A value that is read** is a list, an object, or one that holds no others. -/
theorem readValue_cases {depth : Nat} {t rest : Text} {v : Value}
    (h : readValue (depth + 1) t = .ok (v, rest)) :
    (∃ u items, skipBlanks t = '[' :: u ∧ v = .array items ∧
        readItems (readValue depth) (u.length + 1) true [] u = .ok (items, rest)) ∨
      (∃ u entries, skipBlanks t = '\x7b' :: u ∧ v = .object (gather [] entries) ∧
        readEntries (readValue depth) (u.length + 1) true u = .ok (entries, rest)) ∨
      ((∀ u, skipBlanks t ≠ '[' :: u) ∧ (∀ u, skipBlanks t ≠ '\x7b' :: u) ∧
        readScalar (skipBlanks t) = .ok (v, rest)) := by
  unfold readValue at h
  split at h
  · rename_i u hu
    rw [Except.bind_eq_ok_iff] at h
    obtain ⟨⟨items, r⟩, hitems, h⟩ := h
    obtain ⟨rfl, rfl⟩ := Prod.mk.inj (Except.ok.inj h)
    exact Or.inl ⟨u, items, hu, rfl, hitems⟩
  · rename_i u hu
    dsimp only at h
    rw [readMembers_eq, Except.bind_eq_ok_iff] at h
    obtain ⟨⟨members, r⟩, hmembers, h⟩ := h
    obtain ⟨rfl, rfl⟩ := Prod.mk.inj (Except.ok.inj h)
    rw [Except.map_eq_ok_iff] at hmembers
    obtain ⟨⟨entries, r'⟩, hentries, hmembers⟩ := hmembers
    obtain ⟨rfl, rfl⟩ := Prod.mk.inj hmembers
    exact Or.inr (Or.inl ⟨u, entries, hu, rfl, hentries⟩)
  · exact Or.inr (Or.inr ⟨‹_›, ‹_›, h⟩)

end SealedMessaging.Json
