import SealedMessaging.Json.Printer
import SealedMessaging.Proofs.Json.Cutting
import SealedMessaging.Proofs.Json.Entries

/-!
# Lists and objects as pieces of text

A list is read item by item and an object member by member, so the text of either is pieces with
commas between them, and each piece reads as its part wherever it stands. Put together in any way,
the pieces read as the list or the object of their parts; and every text that reads as a list or an
object is made of such pieces.

* `StandsFor`, `Item`, `Member`: texts that read as a value, and as a member of an object.
* `standsFor_list`, `standsFor_object`: pieces put together.
* `cut_readValue`: any value is read from the characters it is written with.
* `Cuts.exists_pieces_items`, `Cuts.exists_pieces_members`: a text that reads as a list or an object,
  taken to pieces.
-/

namespace SealedMessaging.Json

/-! ## Texts that read as a value -/

/-- Nothing is left, or a comma or a closing bracket stands next. -/
def Ends (w : Text) : Prop :=
  ∀ c ∈ w.head?, c = ',' ∨ c = ']' ∨ c = '\x7d'

theorem ends_nil : Ends [] := fun _ hc => absurd hc (by simp)

theorem ends_cons {c : Char} (hc : c = ',' ∨ c = ']' ∨ c = '\x7d') (w : Text) : Ends (c :: w) := by
  intro d hd
  obtain rfl := Option.some.inj hd
  exact hc

theorem Ends.follows_append {w : Text} (hw : Ends w) {b : Text} (hb : skipBlanks b = []) :
    Follows (b ++ w) := by
  cases b with
  | nil => exact fun c hc => Or.inr (hw c hc)
  | cons d b =>
    intro c hc
    obtain rfl := Option.some.inj hc
    exact Or.inl (List.dropWhile_eq_nil_iff.1 hb _ List.mem_cons_self)

/-- **A text that reads as a value**, with blanks before and behind it. -/
def StandsFor (depth : Nat) (t : Text) (v : Value) : Prop :=
  ∀ w, Ends w → ∃ b, skipBlanks b = [] ∧ readValue depth (t ++ w) = .ok (v, b ++ w)

/-- A text that reads as the name of a member and the colon behind it. -/
def Heads (front : Text) (name : String) : Prop :=
  ∀ t, ∃ u u', skipBlanks (front ++ t) = '"' :: u ∧ readString u = .ok (name, u') ∧
    readColon u' = .ok t

/-- A text that reads as a value, with the value. -/
structure Item (depth : Nat) where
  text : Text
  value : Value
  standsFor : StandsFor depth text value

/-- A text that reads as a member of an object: its name, and behind the colon its value. -/
structure Member (depth : Nat) where
  front : Text
  name : String
  item : Item depth
  heads : Heads front name

namespace Member

variable {depth : Nat}

/-- The text of a member: what stands in front of its value, and the value. -/
def text (m : Member depth) : Text := m.front ++ m.item.text

/-- The name and the value that a member is read as. -/
def entry (m : Member depth) : String × Value := (m.name, m.item.value)

end Member

/-- **A list** of pieces. -/
def listText (pieces : List Text) : Text := '[' :: (printPieces pieces ++ [']'])

/-- **An object** of pieces. -/
def objectText (pieces : List Text) : Text := '\x7b' :: (printPieces pieces ++ ['\x7d'])

/-- Pieces have a comma between them: each has one in front, except for the first. -/
theorem printPieces_cons (piece : Text) (rest : List Text) :
    printPieces (piece :: rest) = piece ++ rest.flatMap (',' :: ·) := by
  induction rest generalizing piece with
  | nil => simp [printPieces]
  | cons piece' rest ih =>
    rw [printPieces, ih piece', List.flatMap_cons, List.cons_append]
    intro h
    exact absurd h (by simp)

/-- There are no more pieces than characters, so the bound that a text has is enough for them. -/
theorem length_lt_printPieces {α : Type} (text : α → Text) (xs : List α) (c : Char) (r : Text) :
    xs.length < (printPieces (xs.map text) ++ c :: r).length + 1 := by
  have hrest : ∀ rest : List α, rest.length ≤ ((rest.map text).flatMap (',' :: ·)).length := by
    intro rest
    induction rest with
    | nil => exact Nat.le_refl _
    | cons x rest ih =>
      rw [List.map_cons, List.flatMap_cons, List.length_append, List.length_cons, List.length_cons]
      omega
  cases xs with
  | nil => exact Nat.zero_lt_succ _
  | cons x rest =>
    have hlen := hrest rest
    rw [List.map_cons, printPieces_cons, List.append_assoc, List.length_append, List.length_append,
      List.length_cons, List.length_cons]
    omega

theorem ends_flatMap {c : Char} (hc : c = ',' ∨ c = ']' ∨ c = '\x7d') (rest : List Text) (r : Text) :
    Ends (rest.flatMap (',' :: ·) ++ c :: r) := by
  cases rest with
  | nil => exact ends_cons hc r
  | cons piece rest =>
    rw [List.flatMap_cons, List.cons_append, List.cons_append]
    exact ends_cons (Or.inl rfl) _

theorem readValue_skipBlanks (depth : Nat) (t : Text) :
    readValue depth (skipBlanks t) = readValue depth t := by
  unfold readValue
  rw [skipBlanks_skipBlanks]

/-- A value does not begin with the bracket that closes a list. -/
theorem exists_head_of_readValue {depth : Nat} {t r : Text} {v : Value}
    (h : readValue depth t = .ok (v, r)) : ∃ c u, skipBlanks t = c :: u ∧ c ≠ ']' := by
  cases ht : skipBlanks t with
  | nil =>
    unfold readValue at h
    rw [ht] at h
    exact absurd h (by simp [readScalar])
  | cons c u =>
    refine ⟨c, u, rfl, ?_⟩
    rintro rfl
    unfold readValue at h
    rw [ht] at h
    exact absurd h (by simp [readScalar, Char.isDigit])

/-! ## Pieces put together -/

section Steps

variable {t r s u : Text} {c : Char} {name : String}

theorem nextItem_first (h : skipBlanks t = c :: u) (hc : c ≠ ']') :
    nextItem true t = .ok (.part () (skipBlanks t)) := by
  unfold nextItem
  rw [h]
  exact if_neg hc

theorem nextItem_comma (h : skipBlanks t = ',' :: s) (hs : skipBlanks s = c :: u) (hc : c ≠ ']') :
    nextItem false t = .ok (.part () (skipBlanks s)) := by
  unfold nextItem
  rw [h]
  simp [hs, hc]

theorem nextMember_first (h : skipBlanks t = '"' :: u) (hname : readString u = .ok (name, r)) :
    nextMember true t = .ok (.part name r) := by
  unfold nextMember
  rw [h]
  simp [readName, hname, bind, Except.bind, pure, Except.pure]

theorem nextMember_comma (h : skipBlanks t = ',' :: s) (hs : skipBlanks s = '"' :: u)
    (hname : readString u = .ok (name, r)) : nextMember false t = .ok (.part name r) := by
  unfold nextMember
  rw [h]
  simp [hs, readName, hname, bind, Except.bind, pure, Except.pure]

end Steps

variable {depth : Nat}

theorem readItems_cons {read : Reader Value} {bound : Nat} {first : Bool} {t u t' r : Text}
    {v : Value} {vs : List Value} (hnext : nextItem first t = .ok (.part () u))
    (hv : read u = .ok (v, t')) (hrest : readItems read bound false [] t' = .ok (vs, r)) :
    readItems read (bound + 1) first [] t = .ok (v :: vs, r) := by
  rw [readItems, hnext]
  dsimp only [bind, Except.bind]
  rw [hv]
  dsimp only
  rw [readItems_acc, hrest]
  rfl

theorem readItems_nil {read : Reader Value} {bound : Nat} {first : Bool} {t r : Text}
    (h : skipBlanks t = ']' :: r) : readItems read (bound + 1) first [] t = .ok ([], r) := by
  rw [readItems, nextItem_eq_done_iff.2 h]
  rfl

theorem readItems_flatMap {items : List (Item depth)} {bound : Nat} (hbound : items.length < bound)
    {b : Text} (hb : skipBlanks b = []) (r : Text) :
    readItems (readValue depth) bound false []
      (b ++ ((items.map Item.text).flatMap (',' :: ·) ++ ']' :: r)) =
        .ok (items.map Item.value, r) := by
  induction items generalizing bound b with
  | nil =>
    obtain ⟨bound, rfl⟩ : ∃ n, bound = n + 1 := ⟨bound - 1, by omega⟩
    exact readItems_nil (skipBlanks_append hb _)
  | cons item items ih =>
    rw [List.length_cons] at hbound
    obtain ⟨bound, rfl⟩ : ∃ n, bound = n + 1 := ⟨bound - 1, by omega⟩
    rw [List.map_cons, List.flatMap_cons, List.cons_append, List.cons_append, List.append_assoc]
    obtain ⟨b', hb', hread⟩ := item.standsFor _
      (ends_flatMap (c := ']') (by simp) (items.map Item.text) r)
    obtain ⟨c, u, hhead, hc⟩ := exists_head_of_readValue hread
    exact readItems_cons (nextItem_comma (skipBlanks_append hb _) hhead hc)
      ((readValue_skipBlanks _ _).trans hread) (ih (by omega) hb')

theorem readItems_pieces {items : List (Item depth)} {bound : Nat} (hbound : items.length < bound)
    (r : Text) :
    readItems (readValue depth) bound true [] (printPieces (items.map Item.text) ++ ']' :: r) =
      .ok (items.map Item.value, r) := by
  obtain ⟨bound, rfl⟩ : ∃ n, bound = n + 1 := ⟨bound - 1, by omega⟩
  cases items with
  | nil => exact readItems_nil rfl
  | cons item items =>
    rw [List.length_cons] at hbound
    rw [List.map_cons, printPieces_cons, List.append_assoc]
    obtain ⟨b, hb, hread⟩ := item.standsFor _
      (ends_flatMap (c := ']') (by simp) (items.map Item.text) r)
    obtain ⟨c, u, hhead, hc⟩ := exists_head_of_readValue hread
    exact readItems_cons (nextItem_first hhead hc) ((readValue_skipBlanks _ _).trans hread)
      (readItems_flatMap (by omega) hb r)

theorem readEntries_cons {read : Reader Value} {bound : Nat} {first : Bool} {t u t₁ t₂ r : Text}
    {name : String} {v : Value} {entries : List (String × Value)}
    (hnext : nextMember first t = .ok (.part name u)) (hcolon : readColon u = .ok t₁)
    (hv : read t₁ = .ok (v, t₂)) (hrest : readEntries read bound false t₂ = .ok (entries, r)) :
    readEntries read (bound + 1) first t = .ok ((name, v) :: entries, r) := by
  rw [readEntries, hnext]
  dsimp only [bind, Except.bind]
  rw [hcolon]
  dsimp only
  rw [hv]
  dsimp only
  rw [hrest]
  rfl

theorem readEntries_nil {read : Reader Value} {bound : Nat} {first : Bool} {t r : Text}
    (h : skipBlanks t = '\x7d' :: r) : readEntries read (bound + 1) first t = .ok ([], r) := by
  rw [readEntries, nextMember_eq_done_iff.2 h]
  rfl

theorem readEntries_flatMap {ms : List (Member depth)} {bound : Nat} (hbound : ms.length < bound)
    {b : Text} (hb : skipBlanks b = []) (r : Text) :
    readEntries (readValue depth) bound false
      (b ++ ((ms.map Member.text).flatMap (',' :: ·) ++ '\x7d' :: r)) =
        .ok (ms.map Member.entry, r) := by
  induction ms generalizing bound b with
  | nil =>
    obtain ⟨bound, rfl⟩ : ∃ n, bound = n + 1 := ⟨bound - 1, by omega⟩
    exact readEntries_nil (skipBlanks_append hb _)
  | cons m ms ih =>
    rw [List.length_cons] at hbound
    obtain ⟨bound, rfl⟩ : ∃ n, bound = n + 1 := ⟨bound - 1, by omega⟩
    rw [List.map_cons, List.flatMap_cons, List.cons_append, List.cons_append, List.append_assoc,
      Member.text, List.append_assoc]
    obtain ⟨b', hb', hread⟩ := m.item.standsFor _
      (ends_flatMap (c := '\x7d') (by simp) (ms.map Member.text) r)
    obtain ⟨u, u', hquote, hname, hcolon⟩ := m.heads (m.item.text ++
      ((ms.map Member.text).flatMap (',' :: ·) ++ '\x7d' :: r))
    exact readEntries_cons (nextMember_comma (skipBlanks_append hb _) hquote hname) hcolon hread
      (ih (by omega) hb')

theorem readEntries_pieces {ms : List (Member depth)} {bound : Nat} (hbound : ms.length < bound)
    (r : Text) :
    readEntries (readValue depth) bound true (printPieces (ms.map Member.text) ++ '\x7d' :: r) =
      .ok (ms.map Member.entry, r) := by
  obtain ⟨bound, rfl⟩ : ∃ n, bound = n + 1 := ⟨bound - 1, by omega⟩
  cases ms with
  | nil => exact readEntries_nil rfl
  | cons m ms =>
    rw [List.length_cons] at hbound
    rw [List.map_cons, printPieces_cons, List.append_assoc, Member.text, List.append_assoc]
    obtain ⟨b, hb, hread⟩ := m.item.standsFor _
      (ends_flatMap (c := '\x7d') (by simp) (ms.map Member.text) r)
    obtain ⟨u, u', hquote, hname, hcolon⟩ := m.heads (m.item.text ++
      ((ms.map Member.text).flatMap (',' :: ·) ++ '\x7d' :: r))
    exact readEntries_cons (nextMember_first hquote hname) hcolon hread
      (readEntries_flatMap (by omega) hb r)

theorem readValue_list {depth : Nat} {t u r : Text} {vs : List Value} (h : skipBlanks t = '[' :: u)
    (hread : readItems (readValue depth) (u.length + 1) true [] u = .ok (vs, r)) :
    readValue (depth + 1) t = .ok (.array vs, r) := by
  unfold readValue
  rw [h]
  show (readItems (readValue depth) (u.length + 1) true [] u >>= fun r =>
    pure (Value.array r.1, r.2)) = _
  rw [hread]
  rfl

theorem readValue_object {depth : Nat} {t u r : Text} {entries : List (String × Value)}
    (h : skipBlanks t = '\x7b' :: u)
    (hread : readEntries (readValue depth) (u.length + 1) true u = .ok (entries, r)) :
    readValue (depth + 1) t = .ok (.object (gather [] entries), r) := by
  unfold readValue
  rw [h]
  show (readMembers (readValue depth) (u.length + 1) true [] u >>= fun r =>
    pure (Value.object r.1, r.2)) = _
  rw [readMembers_eq, hread]
  rfl

/-- The items of a list behind its opening bracket, with the bound that a text of any length has. -/
theorem exists_readItems_list (items : List (Item depth)) {lead : Text}
    (hlead : skipBlanks lead = []) (r : Text) :
    ∃ u, skipBlanks (lead ++ (listText (items.map Item.text) ++ r)) = '[' :: u ∧
      readItems (readValue depth) (u.length + 1) true [] u = .ok (items.map Item.value, r) := by
  refine ⟨printPieces (items.map Item.text) ++ ']' :: r, ?_,
    readItems_pieces (length_lt_printPieces Item.text items ']' r) r⟩
  rw [skipBlanks_append hlead, listText, List.cons_append, List.append_assoc]
  rfl

/-- The members of an object behind its opening bracket. -/
theorem exists_readEntries_object (ms : List (Member depth)) {lead : Text}
    (hlead : skipBlanks lead = []) (r : Text) :
    ∃ u, skipBlanks (lead ++ (objectText (ms.map Member.text) ++ r)) = '\x7b' :: u ∧
      readEntries (readValue depth) (u.length + 1) true u = .ok (ms.map Member.entry, r) := by
  refine ⟨printPieces (ms.map Member.text) ++ '\x7d' :: r, ?_,
    readEntries_pieces (length_lt_printPieces Member.text ms '\x7d' r) r⟩
  rw [skipBlanks_append hlead, objectText, List.cons_append, List.append_assoc]
  rfl

/-! One of the pieces can be any text that reads as its value. -/

section Among

variable {s lead trail : Text} {v : Value}

theorem exists_readItems_among (hs : StandsFor depth s v) (before after : List (Item depth))
    (hlead : skipBlanks lead = []) (r : Text) :
    ∃ u, skipBlanks (lead ++
        (listText (before.map Item.text ++ s :: after.map Item.text) ++ r)) = '[' :: u ∧
      readItems (readValue depth) (u.length + 1) true [] u =
        .ok (before.map Item.value ++ v :: after.map Item.value, r) := by
  have hlist := exists_readItems_list (before ++ ⟨s, v, hs⟩ :: after) hlead r
  rwa [List.map_append, List.map_append, List.map_cons, List.map_cons] at hlist

theorem exists_readEntries_among {front : Text} {name : String} (hs : StandsFor depth s v)
    (heads : Heads front name) (before after : List (Member depth)) (hlead : skipBlanks lead = [])
    (r : Text) :
    ∃ u, skipBlanks (lead ++
        (objectText (before.map Member.text ++ (front ++ s) :: after.map Member.text) ++ r)) =
          '\x7b' :: u ∧
      readEntries (readValue depth) (u.length + 1) true u =
        .ok (before.map Member.entry ++ (name, v) :: after.map Member.entry, r) := by
  have hobject := exists_readEntries_object (before ++ ⟨front, name, ⟨s, v, hs⟩, heads⟩ :: after)
    hlead r
  rwa [List.map_append, List.map_append, List.map_cons, List.map_cons] at hobject

/-- **Items put together** read as the list of their values. -/
theorem standsFor_list (hs : StandsFor depth s v) (before after : List (Item depth))
    (hlead : skipBlanks lead = []) (htrail : skipBlanks trail = []) :
    StandsFor (depth + 1)
      (lead ++ (listText (before.map Item.text ++ s :: after.map Item.text) ++ trail))
      (.array (before.map Item.value ++ v :: after.map Item.value)) := by
  intro w _
  obtain ⟨u, hu, hread⟩ := exists_readItems_among hs before after hlead (trail ++ w)
  refine ⟨trail, htrail, readValue_list ?_ hread⟩
  rw [List.append_assoc, List.append_assoc]
  exact hu

/-- **Members put together** read as the object that gathers them. -/
theorem standsFor_object {front : Text} {name : String} (hs : StandsFor depth s v)
    (heads : Heads front name) (before after : List (Member depth)) (hlead : skipBlanks lead = [])
    (htrail : skipBlanks trail = []) :
    StandsFor (depth + 1)
      (lead ++ (objectText (before.map Member.text ++ (front ++ s) :: after.map Member.text) ++
        trail))
      (.object (gather [] (before.map Member.entry ++ (name, v) :: after.map Member.entry))) := by
  intro w _
  obtain ⟨u, hu, hread⟩ := exists_readEntries_among hs heads before after hlead (trail ++ w)
  refine ⟨trail, htrail, readValue_object ?_ hread⟩
  rw [List.append_assoc, List.append_assoc]
  exact hu

end Among

/-! ## Texts taken to pieces -/

/-- Values are read from the characters they are written with. -/
def Cuts (depth : Nat) : Prop :=
  ∀ (t r : Text) (v : Value), readValue depth t = .ok (v, r) →
    ∃ x, t = x ++ r ∧ ∀ w, Follows w → readValue depth (x ++ w) = .ok (v, w)

/-- The text of a value reaches up to the comma or the bracket behind it. -/
theorem Cuts.exists_item (hcut : Cuts depth) {t b w : Text} {v : Value}
    (h : readValue depth t = .ok (v, b ++ w)) (hb : skipBlanks b = []) :
    ∃ item : Item depth, item.value = v ∧ t = item.text ++ w := by
  obtain ⟨x, hx, hread⟩ := hcut t (b ++ w) v h
  refine ⟨⟨x ++ b, v, fun w' hw' => ⟨b, hb, ?_⟩⟩, rfl, ?_⟩
  · rw [List.append_assoc]
    exact hread _ (hw'.follows_append hb)
  · rw [hx, List.append_assoc]

/-- So does that of a member. -/
theorem Cuts.exists_member (hcut : Cuts depth) {t u u' t₁ b w : Text} {name : String} {v : Value}
    (hquote : skipBlanks t = '"' :: u) (hname : readString u = .ok (name, u'))
    (hcolon : readColon u' = .ok t₁) (h : readValue depth t₁ = .ok (v, b ++ w))
    (hb : skipBlanks b = []) :
    ∃ m : Member depth, m.entry = (name, v) ∧ t = m.text ++ w := by
  obtain ⟨item, rfl, rfl⟩ := hcut.exists_item h hb
  obtain ⟨lead, hlead, ht⟩ := exists_blanks t
  obtain ⟨x, rfl, hstring⟩ := exists_cut_readString hname
  obtain ⟨gap, hgap, hu'⟩ := exists_blanks u'
  rw [readColon_eq_ok_iff] at hcolon
  -- in front of the value: blanks, the name in quotes, blanks and the colon
  refine ⟨⟨lead ++ ('"' :: (x ++ (gap ++ [':']))), name, item, fun s => ⟨x ++ (gap ++ ':' :: s),
    gap ++ ':' :: s, ?_, hstring _, ?_⟩⟩, rfl, ?_⟩
  · rw [List.append_assoc, skipBlanks_append hlead]
    simp [skipBlanks, isBlank]
  · rw [readColon_eq_ok_iff, skipBlanks_append hgap]
    rfl
  · rw [ht, hquote, hu', hcolon]
    simp [Member.text]

/-- Items behind a first one, taken to pieces. -/
theorem Cuts.exists_flatMap_items (hcut : Cuts depth) {vs : List Value} {bound : Nat} {t r : Text}
    (h : readItems (readValue depth) bound false [] t = .ok (vs, r)) :
    ∃ (b : Text) (items : List (Item depth)), skipBlanks b = [] ∧ items.map Item.value = vs ∧
      t = b ++ ((items.map Item.text).flatMap (',' :: ·) ++ ']' :: r) := by
  induction vs generalizing bound t with
  | nil =>
    rcases readItems_eq_ok h with ⟨-, hnext⟩ | ⟨_, _, _, _, _, hcons, -⟩
    · obtain ⟨b, hb, ht⟩ := exists_blanks t
      rw [nextItem_eq_done_iff.1 hnext] at ht
      exact ⟨b, [], hb, rfl, ht⟩
    · exact absurd hcons (by simp)
  | cons v vs ih =>
    rcases readItems_eq_ok h with ⟨hnil, -⟩ | ⟨u, v', t', vs', bound', hcons, hnext, hv, hrest⟩
    · exact absurd hnil (by simp)
    obtain ⟨rfl, rfl⟩ := List.cons.inj hcons
    rcases nextItem_eq_part hnext with ⟨hfirst, -⟩ | ⟨-, s, hs, rfl⟩
    · exact absurd hfirst (by simp)
    obtain ⟨b', items, hb', hitems, rfl⟩ := ih hrest
    rw [readValue_skipBlanks] at hv
    obtain ⟨item, hitem, rfl⟩ := hcut.exists_item hv hb'
    obtain ⟨b, hb, ht⟩ := exists_blanks t
    refine ⟨b, item :: items, hb, by rw [List.map_cons, hitem, hitems], ?_⟩
    rw [ht, hs]
    simp

/-- Members behind a first one, taken to pieces. -/
theorem Cuts.exists_flatMap_members (hcut : Cuts depth) {bound : Nat} {t r : Text}
    {entries : List (String × Value)}
    (h : readEntries (readValue depth) bound false t = .ok (entries, r)) :
    ∃ (b : Text) (ms : List (Member depth)), skipBlanks b = [] ∧ ms.map Member.entry = entries ∧
      t = b ++ ((ms.map Member.text).flatMap (',' :: ·) ++ '\x7d' :: r) := by
  induction bound generalizing t entries with
  | zero => exact absurd h (by simp [readEntries])
  | succ bound ih =>
    obtain ⟨b, hb, ht⟩ := exists_blanks t
    rcases readEntries_eq_ok h with ⟨rfl, hnext⟩ |
      ⟨name, u, t₁, v, t₂, entries', rfl, hnext, hcolon, hv, hrest⟩
    · rw [nextMember_eq_done_iff.1 hnext] at ht
      exact ⟨b, [], hb, rfl, ht⟩
    obtain ⟨u', hname, ⟨hfirst, -⟩ | ⟨-, s, hs, hquote⟩⟩ := nextMember_eq_part hnext
    · exact absurd hfirst (by simp)
    obtain ⟨b', ms, hb', rfl, rfl⟩ := ih hrest
    obtain ⟨m, hm, rfl⟩ := hcut.exists_member hquote hname hcolon hv hb'
    refine ⟨b, m :: ms, hb, by rw [List.map_cons, hm], ?_⟩
    rw [ht, hs]
    simp

/-- **A list that is read, taken to pieces**, if it has any. -/
theorem Cuts.exists_pieces_items (hcut : Cuts depth) {vs : List Value} {bound : Nat} {t r : Text}
    (h : readItems (readValue depth) bound true [] t = .ok (vs, r)) :
    (vs = [] ∧ skipBlanks t = ']' :: r) ∨
      ∃ items : List (Item depth), items.map Item.value = vs ∧
        t = printPieces (items.map Item.text) ++ ']' :: r := by
  rcases readItems_eq_ok h with ⟨rfl, hnext⟩ | ⟨u, v, t', vs', bound', rfl, hnext, hv, hrest⟩
  · exact Or.inl ⟨rfl, nextItem_eq_done_iff.1 hnext⟩
  · rcases nextItem_eq_part hnext with ⟨-, rfl, -⟩ | ⟨hfirst, -⟩
    · obtain ⟨b, items, hb, rfl, rfl⟩ := hcut.exists_flatMap_items hrest
      rw [readValue_skipBlanks] at hv
      obtain ⟨item, rfl, rfl⟩ := hcut.exists_item hv hb
      refine Or.inr ⟨item :: items, rfl, ?_⟩
      rw [List.map_cons, printPieces_cons, List.append_assoc]
    · exact absurd hfirst (by simp)

/-- **An object that is read, taken to pieces**, if it has any. -/
theorem Cuts.exists_pieces_members (hcut : Cuts depth) {bound : Nat} {t r : Text}
    {entries : List (String × Value)}
    (h : readEntries (readValue depth) bound true t = .ok (entries, r)) :
    (entries = [] ∧ skipBlanks t = '\x7d' :: r) ∨
      ∃ ms : List (Member depth), ms.map Member.entry = entries ∧
        t = printPieces (ms.map Member.text) ++ '\x7d' :: r := by
  cases bound with
  | zero => exact absurd h (by simp [readEntries])
  | succ bound =>
    rcases readEntries_eq_ok h with ⟨rfl, hnext⟩ |
      ⟨name, u, t₁, v, t₂, entries', rfl, hnext, hcolon, hv, hrest⟩
    · exact Or.inl ⟨rfl, nextMember_eq_done_iff.1 hnext⟩
    · obtain ⟨u', hname, ⟨-, hquote⟩ | ⟨hfirst, -⟩⟩ := nextMember_eq_part hnext
      · obtain ⟨b, ms, hb, rfl, rfl⟩ := hcut.exists_flatMap_members hrest
        obtain ⟨m, hm, rfl⟩ := hcut.exists_member hquote hname hcolon hv hb
        refine Or.inr ⟨m :: ms, by rw [List.map_cons, hm], ?_⟩
        rw [List.map_cons, printPieces_cons, List.append_assoc]
      · exact absurd hfirst (by simp)

/-- What stands between the brackets of a list is read the same with anything behind the list. -/
theorem Cuts.exists_list_body (hcut : Cuts depth) {vs : List Value} {bound : Nat} {t r : Text}
    (h : readItems (readValue depth) bound true [] t = .ok (vs, r)) :
    ∃ body, t = body ++ ']' :: r ∧ ∀ w,
      readItems (readValue depth) ((body ++ ']' :: w).length + 1) true [] (body ++ ']' :: w) =
        .ok (vs, w) := by
  rcases hcut.exists_pieces_items h with ⟨rfl, ht⟩ | ⟨items, rfl, rfl⟩
  · obtain ⟨b, hb, hblanks⟩ := exists_blanks t
    exact ⟨b, ht ▸ hblanks, fun w => readItems_nil (skipBlanks_append hb _)⟩
  · exact ⟨_, rfl, fun w => readItems_pieces (length_lt_printPieces Item.text items ']' w) w⟩

theorem Cuts.exists_object_body (hcut : Cuts depth) {bound : Nat} {t r : Text}
    {entries : List (String × Value)}
    (h : readEntries (readValue depth) bound true t = .ok (entries, r)) :
    ∃ body, t = body ++ '\x7d' :: r ∧ ∀ w,
      readEntries (readValue depth) ((body ++ '\x7d' :: w).length + 1) true (body ++ '\x7d' :: w) =
        .ok (entries, w) := by
  rcases hcut.exists_pieces_members h with ⟨rfl, ht⟩ | ⟨ms, rfl, rfl⟩
  · obtain ⟨b, hb, hblanks⟩ := exists_blanks t
    exact ⟨b, ht ▸ hblanks, fun w => readEntries_nil (skipBlanks_append hb _)⟩
  · exact ⟨_, rfl, fun w => readEntries_pieces (length_lt_printPieces Member.text ms '\x7d' w) w⟩

theorem readValue_eq_readScalar {depth : Nat} {t s : Text} (h : skipBlanks t = s)
    (hlist : ∀ u, s ≠ '[' :: u) (hobject : ∀ u, s ≠ '\x7b' :: u) :
    readValue depth t = readScalar s := by
  unfold readValue
  rw [h]
  split
  · exact absurd rfl (hlist _)
  · exact absurd rfl (hobject _)
  · rfl

theorem exists_cut_of_readScalar {t r : Text} {v : Value} (hlist : ∀ u, skipBlanks t ≠ '[' :: u)
    (hobject : ∀ u, skipBlanks t ≠ '\x7b' :: u) (h : readScalar (skipBlanks t) = .ok (v, r)) :
    ∃ x, t = x ++ r ∧ ∀ w, Follows w → readValue depth (x ++ w) = .ok (v, w) := by
  obtain ⟨lead, hlead, ht⟩ := exists_blanks t
  obtain ⟨c, u, hu, hread⟩ := exists_cut_readScalar h
  rw [hu] at ht hlist hobject
  refine ⟨lead ++ c :: u, by rw [ht, List.append_assoc], fun w hw => ?_⟩
  -- the first character is no blank and no opening bracket, whatever follows
  have hblank : ¬ isBlank c = true := by
    intro hc
    have hskip := skipBlanks_skipBlanks t
    rw [hu] at hskip
    have hlen := length_skipBlanks_le (u ++ r)
    have hdrop : skipBlanks (c :: u ++ r) = skipBlanks (u ++ r) := List.dropWhile_cons_of_pos hc
    rw [← hdrop, hskip, List.cons_append, List.length_cons] at hlen
    omega
  have hskip : skipBlanks (lead ++ c :: u ++ w) = c :: u ++ w := by
    rw [List.append_assoc, skipBlanks_append hlead]
    exact List.dropWhile_cons_of_neg hblank
  rw [readValue_eq_readScalar hskip]
  · exact hread w hw
  · intro u' heq
    exact hlist (u ++ r) (by rw [List.cons_append, (List.cons.inj heq).1])
  · intro u' heq
    exact hobject (u ++ r) (by rw [List.cons_append, (List.cons.inj heq).1])

theorem readScalar_of_readValue_zero {t r : Text} {v : Value} (h : readValue 0 t = .ok (v, r)) :
    (∀ u, skipBlanks t ≠ '[' :: u) ∧ (∀ u, skipBlanks t ≠ '\x7b' :: u) ∧
      readScalar (skipBlanks t) = .ok (v, r) := by
  unfold readValue at h
  split at h
  · exact absurd h (by simp)
  · exact absurd h (by simp)
  · exact ⟨‹_›, ‹_›, h⟩

/-- **Any value ends where nothing follows that could belong to it.** -/
theorem cut_readValue (depth : Nat) : Cuts depth := by
  -- by the depth that is left; a list and an object are read again from what their brackets hold
  induction depth with
  | zero =>
    intro t r v h
    obtain ⟨hlist, hobject, hscalar⟩ := readScalar_of_readValue_zero h
    exact exists_cut_of_readScalar hlist hobject hscalar
  | succ depth ih =>
    intro t r v h
    obtain ⟨lead, hlead, ht⟩ := exists_blanks t
    have hskip : ∀ s, skipBlanks (lead ++ s) = skipBlanks s := skipBlanks_append hlead
    rcases readValue_cases h with ⟨u, vs, hu, rfl, hvs⟩ | ⟨u, entries, hu, rfl, hentries⟩ |
      ⟨hlist, hobject, hscalar⟩
    · obtain ⟨body, rfl, hread⟩ := ih.exists_list_body hvs
      refine ⟨lead ++ ('[' :: (body ++ [']'])), by rw [ht, hu]; simp, fun w _ => ?_⟩
      have happend : '[' :: (body ++ [']']) ++ w = '[' :: (body ++ ']' :: w) := by simp
      rw [List.append_assoc, happend]
      exact readValue_list (hskip _) (hread w)
    · obtain ⟨body, rfl, hread⟩ := ih.exists_object_body hentries
      refine ⟨lead ++ ('\x7b' :: (body ++ ['\x7d'])), by rw [ht, hu]; simp, fun w _ => ?_⟩
      have happend : '\x7b' :: (body ++ ['\x7d']) ++ w = '\x7b' :: (body ++ '\x7d' :: w) := by simp
      rw [List.append_assoc, happend]
      exact readValue_object (hskip _) (hread w)
    · exact exists_cut_of_readScalar hlist hobject hscalar

end SealedMessaging.Json
