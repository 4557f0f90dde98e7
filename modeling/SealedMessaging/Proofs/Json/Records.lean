import Mathlib.Data.List.Nodup
import SealedMessaging.Proofs.Json.Parts
import SealedMessaging.Proofs.Related
import SealedMessaging.Proofs.SortedMap

/-!
# Records that refuse other members

A record whose kind is strict is an object with the members of its fields, in any order, or the list
of their values. Nothing else is read as the record.

* `Value.IsRecord`: a value with given parts and no others.
* `Record.isRecord_of_read`: what is read has this form.
* `Record.exists_takeAll`: what has this form is taken in, if each part is.
-/

namespace SealedMessaging.Json

/-- **A value with given parts**: an object that has these members and no others, or the list of what
they hold. -/
inductive Value.IsRecord (parts : List (String × Value)) : Value → Prop where
  | object {members : List (String × Value)} (perm : members.Perm parts) :
      IsRecord parts (.object members)
  | array : IsRecord parts (.array (parts.map Prod.snd))

/-- The names of the members of a value, if it is an object. -/
def Value.names : Value → List String
  | .object members => members.map Prod.fst
  | _ => []

variable {σ α β : Type} {parts : List (String × Value)} {v : Value}

/-- The parts of a record are found by their names and positions. -/
theorem Value.IsRecord.part? (h : v.IsRecord parts) (hnames : (parts.map Prod.fst).Nodup) {i : Nat}
    {name : String} {w : Value} (hpart : parts[i]? = some (name, w)) : v.part? name i = some w := by
  cases h with
  | @object members hperm =>
    have hnodup : (members.map Prod.fst).Nodup := (hperm.map Prod.fst).nodup_iff.2 hnames
    exact (lookup_reverse_eq_some_iff hnodup).2 (hperm.mem_iff.2 (List.mem_of_getElem? hpart))
  | array =>
    show (parts.map Prod.snd)[i]? = some w
    rw [List.getElem?_map, hpart]
    rfl

/-- What holds at each position of a list holds at the first and at those behind it. -/
theorem forall_getElem?_cons {P : Nat → β → Prop} {b : β} {bs : List β} :
    (∀ i b', (b :: bs)[i]? = some b' → P i b') ↔ P 0 b ∧ ∀ i b', bs[i]? = some b' → P (i + 1) b' := by
  constructor
  · intro h
    exact ⟨h 0 b rfl, fun i b' hi => h (i + 1) b' hi⟩
  · rintro ⟨hfirst, hrest⟩ i b' hi
    cases i with
    | zero => exact Option.some.inj hi ▸ hfirst
    | succ i => exact hrest i b' hi

namespace Record

variable {r : Record σ α}

/-! ## What is read has the form of a record -/

/-- A strict record takes in no members but those of its fields. -/
theorem mem_names_of_takeMembers (hstrict : r.strict = true) {members : List (String × Value)}
    {s s' : σ} (h : r.takeMembers s members = .ok s') {name : String}
    (hname : name ∈ members.map Prod.fst) : name ∈ r.fields.map Field.name := by
  induction members generalizing s with
  | nil => exact absurd hname List.not_mem_nil
  | cons member rest ih =>
    obtain ⟨name', v⟩ := member
    rw [takeMembers] at h
    cases hfind : r.fields.find? (·.name = name') with
    | none =>
      rw [hfind, hstrict] at h
      exact absurd h (by simp)
    | some field =>
      rw [hfind] at h
      obtain ⟨s₁, -, hrest⟩ := Except.bind_eq_ok_iff.1 h
      rcases List.mem_cons.1 hname with rfl | hin
      · have hsame : field.name = name := by simpa using List.find?_some hfind
        exact List.mem_map.2 ⟨field, List.mem_of_find?_eq_some hfind, hsame⟩
      · exact ih hrest hin

theorem length_of_takeItems {total : Nat} {fields : List (Field σ)} {items : List Value} {s s' : σ}
    (h : r.takeItems total fields s items = .ok s') : items.length = fields.length := by
  induction fields generalizing s items with
  | nil =>
    cases items with
    | nil => rfl
    | cons v rest => exact absurd h (by simp [takeItems])
  | cons field fields ih =>
    cases items with
    | nil => exact absurd h (by simp [takeItems])
    | cons v rest =>
      obtain ⟨s₁, -, h⟩ := Except.bind_eq_ok_iff.1 h
      exact congrArg (· + 1) (ih h)

/-- **What is read as a strict record has its form**: if a part is found for each field, these are
all there is. -/
theorem isRecord_of_read {a : α} (hstrict : r.strict = true) (hv : v.names.Nodup)
    (h : r.read v = .ok a) (hparts : parts.map Prod.fst = r.fields.map Field.name)
    (hnames : (r.fields.map Field.name).Nodup)
    (hfound : ∀ i part, parts[i]? = some part → v.part? part.1 i = some part.2) :
    v.IsRecord parts := by
  cases v with
  | object members =>
    obtain ⟨s, htake, -⟩ := Except.bind_eq_ok_iff.1 h
    refine .object ((List.perm_ext_iff_of_nodup (nodup_of_nodup_keys hv)
      (nodup_of_nodup_keys (hparts ▸ hnames))).2 fun e => ?_)
    have hmem : ∀ e ∈ parts, e ∈ members := by
      intro e he
      obtain ⟨i, hi⟩ := List.mem_iff_getElem?.1 he
      exact (lookup_reverse_eq_some_iff hv).1 (hfound i e hi)
    refine ⟨fun he => ?_, hmem e⟩
    -- a member has the name of a part, and no other member has it
    have hname := mem_names_of_takeMembers hstrict htake (List.mem_map_of_mem he)
    rw [← hparts] at hname
    obtain ⟨e', he', heq⟩ := List.mem_map.1 hname
    rwa [← List.inj_on_of_nodup_map hv (hmem e' he') he heq]
  | array items =>
    obtain ⟨s, htake, -⟩ := Except.bind_eq_ok_iff.1 h
    have hlen : items.length = parts.length := by
      have hnumber := congrArg List.length hparts
      rw [List.length_map, List.length_map] at hnumber
      rw [length_of_takeItems htake, hnumber]
    have hitems : items = parts.map Prod.snd := by
      refine List.ext_getElem? fun i => ?_
      rw [List.getElem?_map]
      cases hpart : parts[i]? with
      | none =>
        rw [List.getElem?_eq_none_iff] at hpart
        rw [Option.map_none, List.getElem?_eq_none_iff]
        omega
      | some e => exact hfound i e hpart
    exact hitems ▸ .array
  | _ => exact absurd h (by simp [read])

/-! ## What has the form of a record is taken in -/

/-- What is taken in of a value. -/
def takeAll (r : Record σ α) : Value → Except ShapeFault σ
  | .object members => r.takeMembers r.start members
  | .array items => r.takeItems items.length r.fields r.start items
  | v => .error (.wrongType v.found r.label)

theorem read_eq_takeAll (r : Record σ α) (v : Value) : r.read v = r.takeAll v >>= r.finish := by
  cases v <;> rfl

/-- A field takes a part in, whatever has been taken in before. -/
def Takes (field : Field σ) (part : String × Value) : Prop :=
  field.name = part.1 ∧ ∀ s, ∃ s', field.take s part.2 = .ok s'

/-- A field is found by its name, if no other has it. -/
theorem find?_name (hnames : (r.fields.map Field.name).Nodup) {field : Field σ} {name : String}
    (hfield : field ∈ r.fields) (hname : field.name = name) :
    r.fields.find? (·.name = name) = some field := by
  cases hfind : r.fields.find? (·.name = name) with
  | none => exact absurd hname (by simpa using List.find?_eq_none.1 hfind field hfield)
  | some found =>
    have hfound : found.name = name := by simpa using List.find?_some hfind
    exact congrArg some (List.inj_on_of_nodup_map hnames (List.mem_of_find?_eq_some hfind) hfield
      (hfound.trans hname.symm))

theorem exists_takeMembers {members : List (String × Value)} (s : σ)
    (h : ∀ e ∈ members, ∃ field, r.fields.find? (·.name = e.1) = some field ∧ Takes field e) :
    ∃ s', r.takeMembers s members = .ok s' := by
  induction members generalizing s with
  | nil => exact ⟨s, rfl⟩
  | cons member rest ih =>
    obtain ⟨name, v⟩ := member
    obtain ⟨⟨field, hfind, -, htake⟩, hrest⟩ := List.forall_mem_cons.1 h
    obtain ⟨s₁, hs₁⟩ := htake s
    obtain ⟨s', hs'⟩ := ih s₁ hrest
    refine ⟨s', ?_⟩
    rw [takeMembers, hfind]
    exact Except.bind_eq_ok_iff.2 ⟨s₁, hs₁, hs'⟩

theorem exists_takeItems {total : Nat} {fields : List (Field σ)} (s : σ)
    (h : List.Forall₂ Takes fields parts) :
    ∃ s', r.takeItems total fields s (parts.map Prod.snd) = .ok s' := by
  induction h generalizing s with
  | nil => exact ⟨s, rfl⟩
  | cons htake _ ih =>
    obtain ⟨s₁, hs₁⟩ := htake.2 s
    obtain ⟨s', hs'⟩ := ih s₁
    exact ⟨s', Except.bind_eq_ok_iff.2 ⟨s₁, hs₁, hs'⟩⟩

/-- **What has the form of a record is taken in**, if each of its parts is. -/
theorem exists_takeAll (hnames : (r.fields.map Field.name).Nodup)
    (htakes : List.Forall₂ Takes r.fields parts) (h : v.IsRecord parts) :
    ∃ s, r.takeAll v = .ok s := by
  cases h with
  | @object members hperm =>
    refine exists_takeMembers r.start fun e he => ?_
    obtain ⟨field, hfield, htake⟩ := htakes.exists_of_mem_right (hperm.mem_iff.1 he)
    exact ⟨field, find?_name hnames hfield htake.1, htake⟩
  | array => exact exists_takeItems r.start htakes

/-- Each field settles its view of what is taken in. -/
theorem view_of_takeAll {name : String} {decode : Value → Except ShapeFault β} {view : σ → Option β}
    {s : σ} {i : Nat} {w : Value} (hdetermines : Determines r.fields name decode view)
    (hnames : (r.fields.map Field.name).Nodup)
    (hposition : (r.fields.map Field.name)[i]? = some name) (hpart : v.part? name i = some w)
    (h : r.takeAll v = .ok s) : ∃ b, decode w = .ok b ∧ view s = some b := by
  cases v with
  | object members =>
    have hname : ∃ field ∈ r.fields, field.name = name :=
      List.mem_map.1 (List.mem_of_getElem? hposition)
    rcases view_of_takeMembers hdetermines hname h with ⟨hnone, -⟩ | ⟨w', b, hw, hdecode, hview⟩
    · exact absurd (hnone.symm.trans hpart) (by simp)
    · obtain rfl := Option.some.inj (hw.symm.trans hpart)
      exact ⟨b, hdecode, hview⟩
  | array items =>
    obtain ⟨w', b, hw, hdecode, hview⟩ := view_of_takeItems hdetermines hnames hposition h
    obtain rfl := Option.some.inj (hw.symm.trans hpart)
    exact ⟨b, hdecode, hview⟩
  | _ => exact absurd h (by simp [takeAll])

end Record

end SealedMessaging.Json
