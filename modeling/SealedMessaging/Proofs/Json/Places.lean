import SealedMessaging.Proofs.Json.Parts
import SealedMessaging.Proofs.Json.Pieces
import SealedMessaging.Proofs.SortedMap

/-!
# The order of members does not matter

A text that reads as a value has places where values stand inside it. Whatever reads as a value can
be put in a place instead of anything else that reads as the same value, and the whole reads as
before. The members of an object can be put in any order if no two have one name, since they are
gathered by their names; so they can be put in any order at any place.

* `Place`: the places in a text, with the way to them and what stands around them.
* `gather_perm`, `reads_object_of_perm`: members in another order.
* `Place.standsFor`: the same value at a place.
* `Value.inside?`, `exists_place`: every object inside a value has its place.
-/

namespace SealedMessaging.Json

/-! ## Members in another order -/

/-- **Members in another order are gathered in the same object**, if no two have one name. -/
theorem gather_perm {entries entries' : List (String × Value)} (hperm : entries.Perm entries')
    (hnames : (entries.map Prod.fst).Nodup) : gather [] entries' = gather [] entries := by
  have hnames' : (entries'.map Prod.fst).Nodup := (hperm.map Prod.fst).nodup_iff.1 hnames
  have hget : ∀ k, (SortedMap.empty.insertAll entries').get? k =
      (SortedMap.empty.insertAll entries).get? k := fun k => Option.ext fun v => by
    rw [SortedMap.get?_insertAll_of_nodup hnames, SortedMap.get?_insertAll_of_nodup hnames',
      hperm.mem_iff]
  have hentries := congrArg SortedMap.entries (SortedMap.ext_get? hget)
  rw [SortedMap.entries_insertAll, SortedMap.entries_insertAll] at hentries
  exact hentries

variable {depth inner outer : Nat}

/-- A text that reads as a value with anything behind it. -/
def Reads (depth : Nat) (t : Text) (v : Value) : Prop :=
  ∀ w, readValue depth (t ++ w) = .ok (v, w)

theorem reads_object (ms : List (Member depth)) :
    Reads (depth + 1) (objectText (ms.map Member.text))
      (.object (gather [] (ms.map Member.entry))) := by
  intro w
  obtain ⟨u, hu, hread⟩ := exists_readEntries_object ms (rfl : skipBlanks [] = []) w
  exact readValue_object hu hread

/-- **An object reads the same with its members in another order.** -/
theorem reads_object_of_perm {ms ms' : List (Member depth)} (hperm : ms.Perm ms')
    (hnames : (ms.map Member.name).Nodup) :
    Reads (depth + 1) (objectText (ms'.map Member.text))
      (.object (gather [] (ms.map Member.entry))) := by
  have hentries : ((ms.map Member.entry).map Prod.fst).Nodup := by
    rw [List.map_map]
    exact hnames
  rw [← gather_perm (hperm.map Member.entry) hentries]
  exact reads_object ms'

/-! ## Places -/

/-- **A place in a text that reads as a value**: the text by what stands at the place. The depths are
those that are left for the whole and at the place, and the path leads to the place, by the name of
a member or the position of an item. Around the place are blanks, and then possibly the other items
of a list or the other members of an object. -/
inductive Place : (outer inner : Nat) → List (String × Nat) → (Text → Text) → Prop where
  | here {depth : Nat} {lead trail : Text} (hlead : skipBlanks lead = [])
      (htrail : skipBlanks trail = []) : Place depth depth [] fun t => lead ++ (t ++ trail)
  | item {depth inner : Nat} {path : List (String × Nat)} {place : Text → Text}
      {lead trail : Text} {name : String} {position : Nat}
      (hlead : skipBlanks lead = []) (htrail : skipBlanks trail = [])
      (before after : List (Item depth)) (hposition : before.length = position)
      (within : Place depth inner path place) :
      Place (depth + 1) inner ((name, position) :: path) fun t => lead ++
        (listText (before.map Item.text ++ place t :: after.map Item.text) ++ trail)
  | member {depth inner : Nat} {path : List (String × Nat)} {place : Text → Text}
      {lead trail front : Text} {name : String} {position : Nat}
      (hlead : skipBlanks lead = []) (htrail : skipBlanks trail = []) (heads : Heads front name)
      (before after : List (Member depth)) (within : Place depth inner path place) :
      Place (depth + 1) inner ((name, position) :: path) fun t => lead ++
        (objectText (before.map Member.text ++ (front ++ place t) :: after.map Member.text) ++ trail)

/-- **The whole reads the same if what stands at a place does.** -/
theorem Place.standsFor {path : List (String × Nat)} {place : Text → Text}
    (h : Place outer inner path place) {t t' : Text} {v : Value} (ht : Reads inner t v)
    (ht' : Reads inner t' v) : ∃ w, StandsFor outer (place t) w ∧ StandsFor outer (place t') w := by
  induction h with
  | @here depth lead trail hlead htrail =>
    have haround : ∀ {s : Text}, Reads depth s v → StandsFor depth (lead ++ (s ++ trail)) v := by
      intro s hs w _
      refine ⟨trail, htrail, ?_⟩
      rw [← readValue_skipBlanks, List.append_assoc, skipBlanks_append hlead, readValue_skipBlanks,
        List.append_assoc]
      exact hs _
    exact ⟨v, haround ht, haround ht'⟩
  | item hlead htrail before after _ _ ih =>
    obtain ⟨w, hw, hw'⟩ := ih ht ht'
    exact ⟨_, standsFor_list hw before after hlead htrail,
      standsFor_list hw' before after hlead htrail⟩
  | member hlead htrail heads before after _ ih =>
    obtain ⟨w, hw, hw'⟩ := ih ht ht'
    exact ⟨_, standsFor_object hw heads before after hlead htrail,
      standsFor_object hw' heads before after hlead htrail⟩

/-! ## The places of the objects inside a value -/

/-- **What a path leads to** inside a value. -/
def Value.inside? : List (String × Nat) → Value → Option Value
  | [], v => some v
  | (name, position) :: path, v => (v.part? name position).bind (Value.inside? path)

/-- Neither a list nor an object is read without any depth left. -/
theorem exists_depth_of_readValue {t r : Text} {v : Value} (h : readValue depth t = .ok (v, r))
    (hv : v.found = .sequence ∨ v.found = .map) : ∃ d, depth = d + 1 := by
  cases depth with
  | zero =>
    obtain ⟨-, -, hscalar⟩ := readScalar_of_readValue_zero h
    obtain ⟨hlist, hobject⟩ := found_of_readScalar hscalar
    rcases hv with hv | hv
    · exact absurd hv hlist
    · exact absurd hv hobject
  | succ d => exact ⟨d, rfl⟩

theorem exists_pieces_array {t r : Text} {vs : List Value}
    (h : readValue outer t = .ok (.array vs, r)) (hne : vs ≠ []) :
    ∃ (depth : Nat) (lead : Text) (items : List (Item depth)), outer = depth + 1 ∧
      skipBlanks lead = [] ∧ items.map Item.value = vs ∧
        t = lead ++ (listText (items.map Item.text) ++ r) := by
  obtain ⟨lead, hlead, ht⟩ := exists_blanks t
  obtain ⟨depth, rfl⟩ := exists_depth_of_readValue h (Or.inl rfl)
  rcases readValue_cases h with ⟨u, vs', hu, hvs, hread⟩ | ⟨_, _, _, heq, _⟩ | ⟨_, _, hscalar⟩
  · obtain rfl := Value.array.inj hvs
    rcases (cut_readValue depth).exists_pieces_items hread with ⟨rfl, -⟩ | ⟨items, hitems, rfl⟩
    · exact absurd rfl hne
    · refine ⟨depth, lead, items, rfl, hlead, hitems, ?_⟩
      rw [ht, hu]
      simp [listText]
  · exact absurd heq (by simp)
  · exact absurd rfl (found_of_readScalar hscalar).1

theorem exists_pieces_object {t r : Text} {members : List (String × Value)}
    (h : readValue outer t = .ok (.object members, r)) (hne : members ≠ []) :
    ∃ (depth : Nat) (lead : Text) (ms : List (Member depth)), outer = depth + 1 ∧
      skipBlanks lead = [] ∧ gather [] (ms.map Member.entry) = members ∧
        t = lead ++ (objectText (ms.map Member.text) ++ r) := by
  obtain ⟨lead, hlead, ht⟩ := exists_blanks t
  obtain ⟨depth, rfl⟩ := exists_depth_of_readValue h (Or.inr rfl)
  rcases readValue_cases h with ⟨_, _, _, heq, _⟩ | ⟨u, entries, hu, hentries, hread⟩ |
    ⟨_, _, hscalar⟩
  · exact absurd heq (by simp)
  · obtain rfl := Value.object.inj hentries
    rcases (cut_readValue depth).exists_pieces_members hread with ⟨rfl, -⟩ | ⟨ms, rfl, rfl⟩
    · exact absurd rfl hne
    · refine ⟨depth, lead, ms, rfl, hlead, rfl, ?_⟩
      rw [ht, hu]
      simp [objectText]
  · exact absurd rfl (found_of_readScalar hscalar).2

/-- **A part of a value that is read has its text**, and the places in it are places in the whole. -/
theorem exists_item_of_part? {t trail : Text} {u v : Value} {name : String} {position : Nat}
    (h : readValue outer t = .ok (v, trail)) (htrail : skipBlanks trail = [])
    (hpart : v.part? name position = some u) :
    ∃ (depth : Nat) (item : Item depth), outer = depth + 1 ∧ item.value = u ∧
      ∀ {inner : Nat} {path : List (String × Nat)} {place : Text → Text} {s : Text},
        Place depth inner path place → place s = item.text →
          ∃ place', Place outer inner ((name, position) :: path) place' ∧ place' s = t := by
  cases v with
  | array vs =>
    have hmem : u ∈ vs := List.mem_of_getElem? hpart
    obtain ⟨depth, lead, items, rfl, hlead, rfl, rfl⟩ :=
      exists_pieces_array h (List.ne_nil_of_mem hmem)
    rw [Value.part?, List.getElem?_map, Option.map_eq_some_iff] at hpart
    obtain ⟨item, hitem, rfl⟩ := hpart
    obtain ⟨hlt, rfl⟩ := List.getElem?_eq_some_iff.1 hitem
    -- the items in front of the one at the position, and those behind it
    have hsplit : items.take position ++ items[position] :: items.drop (position + 1) = items := by
      rw [← List.drop_eq_getElem_cons hlt, List.take_append_drop]
    have hlength : (items.take position).length = position := List.length_take_of_le hlt.le
    refine ⟨depth, items[position], rfl, rfl, fun hplace hs => ⟨_, .item hlead htrail
      (items.take position) (items.drop (position + 1)) hlength hplace, ?_⟩⟩
    rw [hs, ← List.map_cons, ← List.map_append, hsplit]
  | object members =>
    have hmem : (name, u) ∈ members := List.mem_reverse.1 (mem_of_lookup hpart)
    obtain ⟨depth, lead, ms, rfl, hlead, rfl, rfl⟩ :=
      exists_pieces_object h (List.ne_nil_of_mem hmem)
    -- what has been gathered stands in the text
    rcases mem_foldl_insertEntry hmem with hnil | hentry
    · exact absurd hnil List.not_mem_nil
    obtain ⟨m, hm, heq⟩ := List.mem_map.1 hentry
    obtain ⟨rfl, rfl⟩ := Prod.mk.inj heq
    obtain ⟨before, after, rfl⟩ := List.append_of_mem hm
    refine ⟨depth, m.item, rfl, rfl, fun hplace hs =>
      ⟨_, .member hlead htrail m.heads before after hplace, ?_⟩⟩
    rw [hs, List.map_append, List.map_cons]
    rfl
  | _ => exact absurd hpart (by simp [Value.part?])

/-- **Every object inside a value that is read has its place**, and is made of its members there. -/
theorem exists_place {path : List (String × Nat)} {t trail : Text} {v : Value}
    {members : List (String × Value)} (h : readValue outer t = .ok (v, trail))
    (htrail : skipBlanks trail = []) (hinside : v.inside? path = some (.object members))
    (hne : members ≠ []) :
    ∃ (depth : Nat) (place : Text → Text) (ms : List (Member depth)),
      Place outer (depth + 1) path place ∧ place (objectText (ms.map Member.text)) = t ∧
        gather [] (ms.map Member.entry) = members := by
  -- by the path, from the whole inwards
  induction path generalizing outer t trail v with
  | nil =>
    obtain rfl := Option.some.inj hinside
    obtain ⟨depth, lead, ms, rfl, hlead, hmembers, rfl⟩ := exists_pieces_object h hne
    exact ⟨depth, _, ms, .here hlead htrail, rfl, hmembers⟩
  | cons step path ih =>
    obtain ⟨name, position⟩ := step
    obtain ⟨u, hpart, hinside⟩ := Option.bind_eq_some_iff.1 hinside
    obtain ⟨depth, item, rfl, rfl, hplaces⟩ := exists_item_of_part? h htrail hpart
    obtain ⟨b, hb, hread⟩ := item.standsFor [] ends_nil
    rw [List.append_nil, List.append_nil] at hread
    obtain ⟨inner, place, ms, hplace, hs, hmembers⟩ := ih hread hb hinside
    obtain ⟨place', hplace', hs'⟩ := hplaces hplace hs
    exact ⟨inner, place', ms, hplace', hs', hmembers⟩

end SealedMessaging.Json
