import SealedMessaging.Json.Record
import SealedMessaging.Proofs.Outcome

/-!
# The parts of a value from which a record is read

A record is read from the members of an object or from the items of a list. What is read for a field
comes from one part of the value: the last member of its name, or the item at its position.

* `Value.part?`: that part.
* `Determines`: a view of what has been read, and the field that settles it.
* `Record.exists_part`: a record that is read has all of its parts.
-/

namespace SealedMessaging.Json

/-- **The part of a value** that belongs to the field of a name and a position. -/
def Value.part? (name : String) (position : Nat) : Value → Option Value
  | .object members => members.reverse.lookup name
  | .array items => items[position]?
  | _ => none

variable {σ α β : Type}

theorem required_eq_ok_iff {name : String} {field : Option α} {a : α} :
    required name field = .ok a ↔ field = some a := by
  cases field <;> simp [required]

/-- Of the fields, that of a name settles a view of what has been read, and no other affects it. -/
def Determines (fields : List (Field σ)) (name : String) (decode : Value → Except ShapeFault β)
    (view : σ → Option β) : Prop :=
  ∀ field ∈ fields, ∀ s v s', field.take s v = .ok s' →
    (field.name = name → ∃ b, decode v = .ok b ∧ view s' = some b) ∧
      (field.name ≠ name → view s' = view s)

namespace Record

variable {r : Record σ α} {name : String} {decode : Value → Except ShapeFault β}
  {view : σ → Option β}

/-- The last member of the name settles the view, if there is one. -/
theorem view_of_takeMembers (hdetermines : Determines r.fields name decode view)
    (hname : ∃ field ∈ r.fields, field.name = name) {members : List (String × Value)} {s s' : σ}
    (h : r.takeMembers s members = .ok s') :
    (members.reverse.lookup name = none ∧ view s' = view s) ∨
      ∃ v b, members.reverse.lookup name = some v ∧ decode v = .ok b ∧ view s' = some b := by
  -- a member counts only if the name does not come again behind it
  induction members generalizing s with
  | nil =>
    obtain rfl := Except.ok.inj h
    exact Or.inl ⟨rfl, rfl⟩
  | cons member rest ih =>
    obtain ⟨name', v⟩ := member
    rw [List.reverse_cons, List.lookup_append]
    rw [takeMembers] at h
    cases hfind : r.fields.find? (·.name = name') with
    | none =>
      rw [hfind] at h
      dsimp only at h
      -- a member of no field is refused or passed over, and the name is that of a field
      have hne : name ≠ name' := by
        obtain ⟨field, hfield, rfl⟩ := hname
        have hnot := List.find?_eq_none.1 hfind field hfield
        simpa using hnot
      split at h
      · exact absurd h (by simp)
      · rcases ih h with ⟨hrest, hview⟩ | ⟨w, b, hrest, hdecode, hview⟩
        · refine Or.inl ⟨?_, hview⟩
          rw [hrest, Option.none_or, lookup_entry_cons, if_neg hne, List.lookup_nil]
        · exact Or.inr ⟨w, b, by rw [hrest, Option.some_or], hdecode, hview⟩
    | some field =>
      rw [hfind] at h
      dsimp only at h
      obtain ⟨s₁, htake, h⟩ := Except.bind_eq_ok_iff.1 h
      have hfield := hdetermines field (List.mem_of_find?_eq_some hfind) s v s₁ htake
      have hfieldName : field.name = name' := by simpa using List.find?_some hfind
      rcases ih h with ⟨hrest, hview⟩ | ⟨w, b, hrest, hdecode, hview⟩
      · rw [hrest, Option.none_or, lookup_entry_cons, List.lookup_nil]
        by_cases hsame : name = name'
        · obtain ⟨b, hdecode, hs₁⟩ := hfield.1 (hfieldName.trans hsame.symm)
          exact Or.inr ⟨v, b, if_pos hsame, hdecode, hview.trans hs₁⟩
        · have hs₁ := hfield.2 (hfieldName ▸ Ne.symm hsame)
          exact Or.inl ⟨if_neg hsame, hview.trans hs₁⟩
      · exact Or.inr ⟨w, b, by rw [hrest, Option.some_or], hdecode, hview⟩

/-- Items for other fields do not affect the view. -/
theorem view_of_takeItems_of_notMem {total : Nat} {fields : List (Field σ)}
    (hdetermines : Determines fields name decode view) (hname : name ∉ fields.map Field.name)
    {items : List Value} {s s' : σ} (h : r.takeItems total fields s items = .ok s') :
    view s' = view s := by
  induction fields generalizing s items with
  | nil =>
    cases items with
    | nil => exact congrArg view (Except.ok.inj h).symm
    | cons v rest => exact absurd h (by simp [takeItems])
  | cons field fields ih =>
    rw [List.map_cons, List.mem_cons, not_or] at hname
    cases items with
    | nil => exact absurd h (by simp [takeItems])
    | cons v rest =>
      obtain ⟨s₁, htake, h⟩ := Except.bind_eq_ok_iff.1 h
      have hrest := ih (fun f hf => hdetermines f (List.mem_cons_of_mem _ hf)) hname.2 h
      exact hrest.trans ((hdetermines field List.mem_cons_self s v s₁ htake).2 (Ne.symm hname.1))

/-- The item at the position of the name settles the view. -/
theorem view_of_takeItems {total position : Nat} {fields : List (Field σ)}
    (hdetermines : Determines fields name decode view) (hnames : (fields.map Field.name).Nodup)
    (hposition : (fields.map Field.name)[position]? = some name) {items : List Value} {s s' : σ}
    (h : r.takeItems total fields s items = .ok s') :
    ∃ v b, items[position]? = some v ∧ decode v = .ok b ∧ view s' = some b := by
  induction fields generalizing position s items with
  | nil => exact absurd hposition (by simp)
  | cons field fields ih =>
    rw [List.map_cons] at hnames hposition
    have hdeterminesRest : Determines fields name decode view :=
      fun f hf => hdetermines f (List.mem_cons_of_mem _ hf)
    cases items with
    | nil => exact absurd h (by simp [takeItems])
    | cons v rest =>
      obtain ⟨s₁, htake, h⟩ := Except.bind_eq_ok_iff.1 h
      cases position with
      | zero =>
        -- the fields behind this one have other names
        obtain rfl : field.name = name := Option.some.inj hposition
        obtain ⟨b, hdecode, hs₁⟩ := (hdetermines field List.mem_cons_self s v s₁ htake).1 rfl
        have hrest := view_of_takeItems_of_notMem hdeterminesRest (List.nodup_cons.1 hnames).1 h
        exact ⟨v, b, rfl, hdecode, hrest.trans hs₁⟩
      | succ position => exact ih hdeterminesRest (List.nodup_cons.1 hnames).2 hposition h

/-- **A record that is read has the part of each field**, and holds what it stands for. -/
theorem exists_part {out : α → β} {v : Value} {a : α} (position : Nat) (h : r.read v = .ok a)
    (hdetermines : Determines r.fields name decode view) (hstart : view r.start = none)
    (hfinish : ∀ s, r.finish s = .ok a → view s = some (out a))
    (hnames : (r.fields.map Field.name).Nodup)
    (hposition : (r.fields.map Field.name)[position]? = some name) :
    ∃ w, v.part? name position = some w ∧ decode w = .ok (out a) := by
  cases v with
  | object members =>
    obtain ⟨s, htake, hs⟩ := Except.bind_eq_ok_iff.1 h
    have hname : ∃ field ∈ r.fields, field.name = name :=
      List.mem_map.1 (List.mem_of_getElem? hposition)
    rcases view_of_takeMembers hdetermines hname htake with ⟨-, hview⟩ | ⟨w, b, hw, hdecode, hview⟩
    · rw [hfinish s hs, hstart] at hview
      exact absurd hview (by simp)
    · rw [hfinish s hs] at hview
      exact ⟨w, hw, hdecode.trans (congrArg Except.ok (Option.some.inj hview).symm)⟩
  | array items =>
    obtain ⟨s, htake, hs⟩ := Except.bind_eq_ok_iff.1 h
    obtain ⟨w, b, hw, hdecode, hview⟩ := view_of_takeItems hdetermines hnames hposition htake
    rw [hfinish s hs] at hview
    exact ⟨w, hw, hdecode.trans (congrArg Except.ok (Option.some.inj hview).symm)⟩
  | _ => exact absurd h (by simp [read])

end Record

end SealedMessaging.Json
