import Mathlib.Data.List.Forall2

/-!
# Lists related item by item

* `List.Forall₂.exists_of_mem_left`, `List.Forall₂.exists_of_mem_right`: the partner of an item.
* `List.exists_forall₂`: partners for all items make a list.
-/

namespace List

variable {α β : Type} {R : α → β → Prop} {as : List α} {bs : List β}

/-- Each item of the second list belongs to one of the first. -/
theorem Forall₂.exists_of_mem_right {b : β} (h : Forall₂ R as bs) (hb : b ∈ bs) :
    ∃ a ∈ as, R a b := by
  induction h with
  | nil => exact absurd hb not_mem_nil
  | cons hab _ ih =>
    rcases mem_cons.1 hb with rfl | hb
    · exact ⟨_, mem_cons_self, hab⟩
    · obtain ⟨a, ha, hr⟩ := ih hb
      exact ⟨a, mem_cons_of_mem _ ha, hr⟩

/-- Each item of the first list belongs to one of the second. -/
theorem Forall₂.exists_of_mem_left {a : α} (h : Forall₂ R as bs) (ha : a ∈ as) :
    ∃ b ∈ bs, R a b := by
  have hflip : Forall₂ (fun b a => R a b) bs as := Forall₂.flip h
  exact hflip.exists_of_mem_right ha

theorem exists_forall₂ (h : ∀ a ∈ as, ∃ b, R a b) : ∃ bs, Forall₂ R as bs := by
  induction as with
  | nil => exact ⟨[], .nil⟩
  | cons a as ih =>
    obtain ⟨⟨b, hb⟩, hrest⟩ := forall_mem_cons.1 h
    obtain ⟨bs, hbs⟩ := ih hrest
    exact ⟨b :: bs, .cons hb hbs⟩

end List
