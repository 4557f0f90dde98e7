import SealedMessaging.Proofs.Json.Scalars

/-!
# What reads as a value can be passed over

Passing over is laxer than reading, so it stops where reading does not only on texts that reading
refuses. Wherever reading succeeds, passing over leaves the same rest. It keeps the open brackets in a
list and takes one step after the other, so what it does with one value is said for any brackets
around it.

* `nextItem_eq_part`, `nextMember_eq_part`: where the next part of a list or of an object stands.
* `Skims`, `SkimsInside`: passing over one value, and what is left of a list or an object.
* `skim_of_readValue`: any value that is read is passed over, however deep.
-/

namespace SealedMessaging.Json

/-! ## Steps through lists and objects -/

theorem nextItem_eq_done_iff {first : Bool} {t rest : Text} :
    nextItem first t = .ok (.done rest) ↔ skipBlanks t = ']' :: rest := by
  unfold nextItem
  split
  · rename_i h
    simp [h]
  · rename_i c r h
    rw [h]
    split
    · rename_i hc
      simp [hc]
    · rename_i hc
      -- nothing else ends a list
      have hne : ¬ (c :: r = ']' :: rest) := fun he => hc (List.cons.inj he).1
      simp only [hne, iff_false]
      split
      · simp
      · split
        · split
          · simp
          · split <;> simp
        · simp

/-- An item stands behind the opening bracket or behind a comma. -/
theorem nextItem_eq_part {first : Bool} {t u : Text} (h : nextItem first t = .ok (.part () u)) :
    (first = true ∧ skipBlanks t = u ∧ u.head? ≠ some ']') ∨
      (first = false ∧ ∃ r, skipBlanks t = ',' :: r ∧ u = skipBlanks r) := by
  unfold nextItem at h
  split at h
  · exact absurd h (by simp)
  · rename_i c r hc
    split at h
    · exact absurd h (by simp)
    · rename_i hclose
      split at h
      · rename_i hfirst
        left
        obtain rfl : c :: r = u := by simpa using Except.ok.inj h
        exact ⟨hfirst, hc, by simpa using hclose⟩
      · rename_i hfirst
        right
        refine ⟨by simpa using hfirst, r, ?_⟩
        split at h
        · rename_i hcomma
          refine ⟨hcomma ▸ hc, ?_⟩
          split at h
          · exact absurd h (by simp)
          · rename_i d r' hr
            split at h
            · exact absurd h (by simp)
            · rw [hr]
              simpa using (Except.ok.inj h).symm
        · exact absurd h (by simp)

theorem readName_eq_ok {t : Text} {next : Next String} (h : readName t = .ok next) :
    ∃ name u rest, t = '"' :: u ∧ readString u = .ok (name, rest) ∧ next = .part name rest := by
  unfold readName at h
  split at h
  · exact absurd h (by simp)
  · rename_i c u
    split at h
    · rename_i hc
      rw [Except.bind_eq_ok_iff] at h
      obtain ⟨⟨name, rest⟩, hs, h⟩ := h
      exact ⟨name, u, rest, by rw [hc], hs, (Except.ok.inj h).symm⟩
    · exact absurd h (by simp)

theorem nextMember_eq_done_iff {first : Bool} {t rest : Text} :
    nextMember first t = .ok (.done rest) ↔ skipBlanks t = '\x7d' :: rest := by
  -- a name is never the end
  have hname : ∀ u, readName u ≠ .ok (.done rest) := by
    intro u hu
    obtain ⟨_, _, _, _, _, h⟩ := readName_eq_ok hu
    exact absurd h (by simp)
  unfold nextMember
  split
  · rename_i h
    simp [h]
  · rename_i c r h
    rw [h]
    split
    · rename_i hc
      simp [hc]
    · rename_i hc
      have hne : ¬ (c :: r = '\x7d' :: rest) := fun he => hc (List.cons.inj he).1
      simp only [hne, iff_false]
      split
      · exact hname _
      · split
        · exact hname _
        · simp

/-- A name stands behind the opening bracket or behind a comma. -/
theorem nextMember_eq_part {first : Bool} {t rest : Text} {name : String}
    (h : nextMember first t = .ok (.part name rest)) :
    ∃ u, readString u = .ok (name, rest) ∧
      ((first = true ∧ skipBlanks t = '"' :: u) ∨
        (first = false ∧ ∃ r, skipBlanks t = ',' :: r ∧ skipBlanks r = '"' :: u)) := by
  have hname : ∀ {u}, readName u = .ok (.part name rest) →
      ∃ u', u = '"' :: u' ∧ readString u' = .ok (name, rest) := by
    intro u hu
    obtain ⟨_, u', _, hu, hs, h⟩ := readName_eq_ok hu
    obtain ⟨rfl, rfl⟩ := Next.part.inj h
    exact ⟨u', hu, hs⟩
  unfold nextMember at h
  split at h
  · exact absurd h (by simp)
  · rename_i c r hc
    split at h
    · exact absurd h (by simp)
    · split at h
      · rename_i hfirst
        obtain ⟨u, hu, hs⟩ := hname h
        exact ⟨u, hs, Or.inl ⟨hfirst, hc.trans hu⟩⟩
      · rename_i hfirst
        split at h
        · rename_i hcomma
          obtain ⟨u, hu, hs⟩ := hname h
          exact ⟨u, hs, Or.inr ⟨by simpa using hfirst, r, hcomma ▸ hc, hu⟩⟩
        · exact absurd h (by simp)

/-! ## Steps of passing over -/

section Steps

variable {bound : Nat} {brackets : List Bracket} {b : Bracket} {phase : Phase} {t rest : Text}

theorem skimRest_open_list (h : skipBlanks t = '[' :: rest) :
    skimRest (bound + 1) brackets .value t = skimRest bound (.list :: brackets) .opened rest := by
  simp only [skimRest, h]

theorem skimRest_open_object (h : skipBlanks t = '\x7b' :: rest) :
    skimRest (bound + 1) brackets .value t = skimRest bound (.object :: brackets) .opened rest := by
  simp only [skimRest, h]

theorem skimRest_scalar (hlist : ∀ rest, skipBlanks t ≠ '[' :: rest)
    (hobject : ∀ rest, skipBlanks t ≠ '\x7b' :: rest) (h : skimScalar (skipBlanks t) = .ok rest) :
    skimRest (bound + 1) brackets .value t = skimRest bound brackets .passed rest := by
  rw [skimRest]
  split
  · rename_i r hr
    exact absurd hr (hlist r)
  · rename_i r hr
    exact absurd hr (hobject r)
  · rw [h]
    rfl

theorem skimRest_close (hphase : phase ≠ .value) (h : skipBlanks t = b.closing :: rest) :
    skimRest (bound + 1) (b :: brackets) phase t = skimRest bound brackets .passed rest := by
  cases phase with
  | value => exact absurd rfl hphase
  | opened => rw [skimRest]; simp only [h, if_true]; intro hb; exact absurd hb (by simp)
  | passed => rw [skimRest]; simp only [h, if_true]; intro hb; exact absurd hb (by simp)

theorem skimRest_first {c : Char} {r : Text} (h : skipBlanks t = c :: r) (hc : c ≠ b.closing)
    (hentry : b.skimEntry (c :: r) = .ok rest) :
    skimRest (bound + 1) (b :: brackets) .opened t = skimRest bound (b :: brackets) .value rest := by
  rw [skimRest]
  simp only [h, if_neg hc, if_true, hentry]
  · rfl
  · intro hb; exact absurd hb (by simp)

theorem skimRest_comma {r : Text} (h : skipBlanks t = ',' :: r) (hentry : b.skimEntry r = .ok rest) :
    skimRest (bound + 1) (b :: brackets) .passed t = skimRest bound (b :: brackets) .value rest := by
  have hc : ',' ≠ b.closing := by cases b <;> decide
  have hphase : ¬ Phase.passed = Phase.opened := by decide
  rw [skimRest]
  simp only [h, if_neg hc, if_neg hphase, if_true, hentry]
  · rfl
  · intro hb; exact absurd hb (by simp)

end Steps

/-! ## Values -/

/-- Passing over a value at the front of a text leads to a shorter rest, inside whatever brackets.
The bounds count two steps for each character, since a comma or an opening bracket leads to a value
in a step of its own. -/
def Skims (t rest : Text) : Prop :=
  rest.length < t.length ∧
    ∀ brackets bound, 2 * t.length + 1 ≤ bound →
      ∃ bound', 2 * rest.length + 2 ≤ bound' ∧
        skimRest bound brackets .value t = skimRest bound' brackets .passed rest

/-- Passing over what is left of a list or an object leads to a shorter rest. -/
def SkimsInside (b : Bracket) (first : Bool) (t rest : Text) : Prop :=
  rest.length < t.length ∧
    ∀ brackets bound, 2 * t.length + 2 ≤ bound →
      ∃ bound', 2 * rest.length + 2 ≤ bound' ∧
        skimRest bound (b :: brackets) (if first then .opened else .passed) t =
          skimRest bound' brackets .passed rest

section Inside

variable {b : Bracket} {first : Bool} {t u rest : Text}

theorem SkimsInside.close (h : skipBlanks t = b.closing :: rest) : SkimsInside b first t rest := by
  have hlen := length_lt_of_skipBlanks h
  refine ⟨hlen, fun brackets bound hbound => ?_⟩
  obtain ⟨bound, rfl⟩ : ∃ n, bound = n + 1 := ⟨bound - 1, by omega⟩
  have hphase : (if first then Phase.opened else .passed) ≠ .value := by cases first <;> decide
  exact ⟨bound, by omega, skimRest_close hphase h⟩

/-- A value inside brackets, reached in one step, is followed by what is left of them. -/
theorem SkimsInside.part {t' : Text} (hlen : u.length ≤ t.length)
    (hstep : ∀ bound brackets, skimRest (bound + 1) (b :: brackets)
      (if first then .opened else .passed) t = skimRest bound (b :: brackets) .value u)
    (hvalue : Skims u t') (hrest : SkimsInside b false t' rest) : SkimsInside b first t rest := by
  obtain ⟨hlen₁, hvalue⟩ := hvalue
  obtain ⟨hlen₂, hrest⟩ := hrest
  refine ⟨by omega, fun brackets bound hbound => ?_⟩
  obtain ⟨bound, rfl⟩ : ∃ n, bound = n + 1 := ⟨bound - 1, by omega⟩
  obtain ⟨bound₁, hbound₁, heq₁⟩ := hvalue (b :: brackets) bound (by omega)
  obtain ⟨bound₂, hbound₂, heq₂⟩ := hrest brackets bound₁ hbound₁
  exact ⟨bound₂, hbound₂, by rw [hstep, heq₁]; exact heq₂⟩

end Inside

theorem Skims.of_skipBlanks {t rest : Text} (h : Skims (skipBlanks t) rest) : Skims t rest := by
  obtain ⟨hlen, h⟩ := h
  have hblanks := length_skipBlanks_le t
  refine ⟨by omega, fun brackets bound hbound => ?_⟩
  obtain ⟨bound', hbound', heq⟩ := h brackets bound (by omega)
  refine ⟨bound', hbound', ?_⟩
  rw [← heq]
  obtain ⟨n, rfl⟩ : ∃ n, bound = n + 1 := ⟨bound - 1, by omega⟩
  simp only [skimRest, skipBlanks_skipBlanks]

variable {read : Reader Value}

theorem skimsInside_of_readItems (hread : ∀ t v rest, read t = .ok (v, rest) → Skims t rest) :
    ∀ {bound : Nat} {first : Bool} {acc items : List Value} {t rest : Text},
      readItems read bound first acc t = .ok (items, rest) → SkimsInside .list first t rest := by
  -- by the bound of reading, one item for each step
  intro bound
  induction bound with
  | zero => intro first acc items t rest h; exact absurd h (by simp [readItems])
  | succ bound ih =>
    intro first acc items t rest h
    rw [readItems, Except.bind_eq_ok_iff] at h
    obtain ⟨next, hnext, h⟩ := h
    cases next with
    | done r =>
      obtain ⟨-, rfl⟩ := Prod.mk.inj (Except.ok.inj h)
      exact .close (b := .list) (nextItem_eq_done_iff.1 hnext)
    | part a u =>
      dsimp only at h
      rw [Except.bind_eq_ok_iff] at h
      obtain ⟨⟨v, t'⟩, hv, h⟩ := h
      have hrest := ih h
      have hvalue := hread _ _ _ hv
      rcases nextItem_eq_part hnext with ⟨rfl, hu, hclose⟩ | ⟨rfl, r, hr, rfl⟩
      · -- the first item stands where reading has skipped blanks to
        cases u with
        | nil => exact absurd hvalue.1 (Nat.not_lt_zero _)
        | cons c r =>
          have hc : c ≠ Bracket.list.closing := fun hc => hclose (by rw [hc]; rfl)
          have hlen := length_lt_of_skipBlanks hu
          exact .part (u := c :: r) hlen (fun _ _ => skimRest_first hu hc rfl) hvalue hrest
      · -- passing over has not yet skipped the blanks behind the comma
        have hlen := length_lt_of_skipBlanks hr
        exact .part (by omega) (fun _ _ => skimRest_comma hr rfl) hvalue.of_skipBlanks hrest

/-- What stands in front of the value of a member. -/
theorem skimEntry_object {t u t₁ t₂ : Text} {name : String} (hquote : skipBlanks t = '"' :: u)
    (hname : readString u = .ok (name, t₁)) (hcolon : readColon t₁ = .ok t₂) :
    Bracket.object.skimEntry t = .ok t₂ ∧ t₂.length < t.length := by
  obtain ⟨hskim, hlen₁⟩ := skimString_of_readString hname
  have hlen₀ := length_lt_of_skipBlanks hquote
  have hlen₂ := length_lt_of_skipBlanks (readColon_eq_ok_iff.1 hcolon)
  refine ⟨?_, by omega⟩
  simp only [Bracket.skimEntry, Except.bind_eq_ok_iff]
  exact ⟨u, readChar_eq_ok_iff.2 hquote, t₁, hskim, hcolon⟩

theorem skimsInside_of_readMembers (hread : ∀ t v rest, read t = .ok (v, rest) → Skims t rest) :
    ∀ {bound : Nat} {first : Bool} {acc members : List (String × Value)} {t rest : Text},
      readMembers read bound first acc t = .ok (members, rest) →
        SkimsInside .object first t rest := by
  intro bound
  induction bound with
  | zero => intro first acc members t rest h; exact absurd h (by simp [readMembers])
  | succ bound ih =>
    intro first acc members t rest h
    rw [readMembers, Except.bind_eq_ok_iff] at h
    obtain ⟨next, hnext, h⟩ := h
    cases next with
    | done r =>
      obtain ⟨-, rfl⟩ := Prod.mk.inj (Except.ok.inj h)
      exact .close (b := .object) (nextMember_eq_done_iff.1 hnext)
    | part name t₁ =>
      dsimp only at h
      simp only [Except.bind_eq_ok_iff] at h
      obtain ⟨t₂, hcolon, ⟨v, t'⟩, hv, h⟩ := h
      have hrest := ih h
      have hvalue := hread _ _ _ hv
      obtain ⟨u, hname, ⟨rfl, hu⟩ | ⟨rfl, r, hr, hu⟩⟩ := nextMember_eq_part hnext
      · obtain ⟨hentry, hlen⟩ := skimEntry_object (t := '"' :: u) rfl hname hcolon
        have hlen' := length_lt_of_skipBlanks hu
        rw [List.length_cons] at hlen
        exact .part (by omega) (fun _ _ => skimRest_first hu (by decide) hentry) hvalue hrest
      · obtain ⟨hentry, hlen⟩ := skimEntry_object hu hname hcolon
        have hlen' := length_lt_of_skipBlanks hr
        exact .part (by omega) (fun _ _ => skimRest_comma hr hentry) hvalue hrest

/-- Passing over a list or an object starts at its opening bracket. -/
theorem Skims.of_open {b : Bracket} {t u rest : Text} {c : Char} (h : skipBlanks t = c :: u)
    (hopen : ∀ bound brackets, skimRest (bound + 1) brackets .value t =
      skimRest bound (b :: brackets) .opened u)
    (hinside : SkimsInside b true u rest) : Skims t rest := by
  have hlen := length_lt_of_skipBlanks h
  obtain ⟨hless, hinside⟩ := hinside
  refine ⟨by omega, fun brackets bound hbound => ?_⟩
  obtain ⟨bound, rfl⟩ : ∃ n, bound = n + 1 := ⟨bound - 1, by omega⟩
  obtain ⟨bound', hbound', heq⟩ := hinside brackets bound (by omega)
  exact ⟨bound', hbound', (hopen bound brackets).trans heq⟩

theorem Skims.of_readScalar {t rest : Text} {v : Value} (hlist : ∀ rest, skipBlanks t ≠ '[' :: rest)
    (hobject : ∀ rest, skipBlanks t ≠ '\x7b' :: rest)
    (h : readScalar (skipBlanks t) = .ok (v, rest)) : Skims t rest := by
  obtain ⟨hskim, hlen⟩ := skimScalar_of_readScalar h
  have hblanks := length_skipBlanks_le t
  refine ⟨by omega, fun brackets bound hbound => ?_⟩
  obtain ⟨bound, rfl⟩ : ∃ n, bound = n + 1 := ⟨bound - 1, by omega⟩
  exact ⟨bound, by omega, skimRest_scalar hlist hobject hskim⟩

theorem skims_of_readValue {depth : Nat} : ∀ {t : Text} {v : Value} {rest : Text},
    readValue depth t = .ok (v, rest) → Skims t rest := by
  -- by the depth that is left: what stands inside a list or an object may be one less deep
  induction depth with
  | zero =>
    intro t v rest h
    unfold readValue at h
    split at h
    · exact absurd h (by simp)
    · exact absurd h (by simp)
    · exact .of_readScalar ‹_› ‹_› h
  | succ depth ih =>
    intro t v rest h
    unfold readValue at h
    split at h
    · rename_i u hu
      rw [Except.bind_eq_ok_iff] at h
      obtain ⟨⟨items, r⟩, hitems, h⟩ := h
      obtain ⟨-, rfl⟩ := Prod.mk.inj (Except.ok.inj h)
      exact .of_open hu (fun _ _ => skimRest_open_list hu)
        (skimsInside_of_readItems (fun _ _ _ => ih) hitems)
    · rename_i u hu
      rw [Except.bind_eq_ok_iff] at h
      obtain ⟨⟨members, r⟩, hmembers, h⟩ := h
      obtain ⟨-, rfl⟩ := Prod.mk.inj (Except.ok.inj h)
      exact .of_open hu (fun _ _ => skimRest_open_object hu)
        (skimsInside_of_readMembers (fun _ _ _ => ih) hmembers)
    · exact .of_readScalar ‹_› ‹_› h

/-- **What reads as a value can be passed over**, and the same is left then. -/
theorem skim_of_readValue {depth : Nat} {t rest : Text} {v : Value}
    (h : readValue depth t = .ok (v, rest)) : skim t = .ok rest ∧ rest.length < t.length := by
  obtain ⟨hlen, hskim⟩ := skims_of_readValue h
  obtain ⟨bound, hbound, heq⟩ := hskim [] (2 * t.length + 2) (by omega)
  obtain ⟨n, rfl⟩ : ∃ n, bound = n + 1 := ⟨bound - 1, by omega⟩
  refine ⟨?_, hlen⟩
  -- behind the value no bracket is open, so passing over ends
  rw [skim, heq, skimRest]
  intro hphase
  exact absurd hphase (by simp)

end SealedMessaging.Json
