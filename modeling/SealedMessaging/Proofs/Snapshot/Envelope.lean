import SealedMessaging.Proofs.Json.Entries
import SealedMessaging.Proofs.SortedMap
import SealedMessaging.Snapshot.Envelope

/-!
# Envelopes read from a text and from a value

An envelope is read from a text member by member, without building what it passes over. A text that
is a value gives the same envelope as the value, unless one of the two members is there twice: the
text is refused then, and the last one counts in the value.

* `Envelope.ofValue_object_eq_ok_iff`, `Envelope.ofValue_array_eq_ok_iff`: the envelope of a value.
* `memberNames`: the names of the members of a text, with repetitions.
* `Envelope.read_eq_ok_iff`: the two readings compared.
-/

namespace SealedMessaging.Snapshot

open Json

namespace Envelope

/-! ## Members taken in -/

theorem takeMembers_cons (p : Partial) (name : String) (v : Value) (rest : List (String × Value)) :
    record.takeMembers p ((name, v) :: rest) =
      if name = "keyType" then do
        record.takeMembers { p with keyType := some (← v.asByte) } rest
      else if name = "keyData" then record.takeMembers { p with keyData := some v } rest
      else record.takeMembers p rest := by
  rw [Record.takeMembers]
  by_cases htype : name = "keyType"
  · subst htype
    simp only [record, List.find?_cons, decide_true, if_true]
    cases v.asByte <;> rfl
  · by_cases hdata : name = "keyData"
    · subst hdata
      rfl
    · have htype' : ¬ "keyType" = name := fun h => htype h.symm
      have hdata' : ¬ "keyData" = name := fun h => hdata h.symm
      simp [record, htype, hdata, htype', hdata']

/-- Members of an envelope that are taken in one by one, a repeated one being refused. -/
def Partial.takeOnce : Partial → List (String × Value) → Except ShapeFault Partial
  | p, [] => .ok p
  | p, (name, v) :: rest =>
    if name = "keyType" then
      if p.keyType.isSome then .error (.duplicateField name)
      else do takeOnce { p with keyType := some (← v.asByte) } rest
    else if name = "keyData" then
      if p.keyData.isSome then .error (.duplicateField name)
      else takeOnce { p with keyData := some v } rest
    else takeOnce p rest

/-- A name is there at most once, in what is still to come and before it. -/
def Unrepeated (name : String) (seen : Bool) (names : List String) : Prop :=
  names.count name + seen.toNat ≤ 1

theorem unrepeated_nil (name : String) (seen : Bool) : Unrepeated name seen [] := by
  cases seen <;> simp [Unrepeated]

theorem unrepeated_cons_self {name : String} {seen : Bool} {rest : List String} :
    Unrepeated name seen (name :: rest) ↔ seen = false ∧ Unrepeated name true rest := by
  unfold Unrepeated
  rw [List.count_cons_self]
  cases seen
  · simp
  · simp only [Bool.toNat_true, reduceCtorEq, false_and, iff_false]
    omega

theorem unrepeated_cons_of_ne {name other : String} {seen : Bool} {rest : List String}
    (h : other ≠ name) : Unrepeated name seen (other :: rest) ↔ Unrepeated name seen rest := by
  unfold Unrepeated
  rw [List.count_cons_of_ne h]

/-- **Taking members in once** is taking them in, if none of the two is repeated. -/
theorem takeOnce_eq_ok_iff {p p' : Partial} {entries : List (String × Value)} :
    p.takeOnce entries = .ok p' ↔
      Unrepeated "keyType" p.keyType.isSome (entries.map Prod.fst) ∧
        Unrepeated "keyData" p.keyData.isSome (entries.map Prod.fst) ∧
        record.takeMembers p entries = .ok p' := by
  -- by the members; what has been seen before them is what is already taken in
  induction entries generalizing p with
  | nil => simp [Partial.takeOnce, Record.takeMembers, unrepeated_nil]
  | cons head rest ih =>
    obtain ⟨name, v⟩ := head
    rw [Partial.takeOnce, takeMembers_cons, List.map_cons]
    dsimp only
    by_cases htype : name = "keyType"
    · subst htype
      rw [if_pos rfl, if_pos rfl, unrepeated_cons_self, unrepeated_cons_of_ne (by decide)]
      cases hseen : p.keyType.isSome with
      | true => simp
      | false =>
        simp only [Bool.false_eq_true, if_false, true_and, Except.bind_eq_ok_iff, ih,
          Option.isSome_some]
        constructor
        · rintro ⟨b, hb, h, h', htake⟩
          exact ⟨h, h', b, hb, htake⟩
        · rintro ⟨h, h', b, hb, htake⟩
          exact ⟨b, hb, h, h', htake⟩
    · rw [if_neg htype, if_neg htype, unrepeated_cons_of_ne htype]
      by_cases hdata : name = "keyData"
      · subst hdata
        rw [if_pos rfl, if_pos rfl, unrepeated_cons_self]
        cases hseen : p.keyData.isSome with
        | true => simp
        | false => simp only [Bool.false_eq_true, if_false, true_and, ih, Option.isSome_some]
      · rw [if_neg hdata, if_neg hdata, unrepeated_cons_of_ne hdata]
        exact ih

/-! ## Envelopes of values -/

/-- Taking members in finds the two, if neither is repeated. -/
theorem takeMembers_eq_ok_iff {p p' : Partial} {entries : List (String × Value)}
    (htype : (entries.map Prod.fst).count "keyType" ≤ 1)
    (hdata : (entries.map Prod.fst).count "keyData" ≤ 1) :
    record.takeMembers p entries = .ok p' ↔
      p'.keyData = (entries.lookup "keyData").or p.keyData ∧
        (entries.lookup "keyType").elim (p'.keyType = p.keyType)
          fun v => ∃ b, v.asByte = .ok b ∧ p'.keyType = some b := by
  induction entries generalizing p with
  | nil =>
    obtain ⟨a, b⟩ := p
    obtain ⟨a', b'⟩ := p'
    simp only [Record.takeMembers, Except.ok.injEq, Partial.mk.injEq, List.lookup_nil,
      Option.none_or, Option.elim_none]
    constructor
    · rintro ⟨rfl, rfl⟩
      exact ⟨rfl, rfl⟩
    · rintro ⟨rfl, rfl⟩
      exact ⟨rfl, rfl⟩
  | cons head rest ih =>
    obtain ⟨name, v⟩ := head
    have ih := fun p => @ih p (Nat.le_trans List.count_le_count_cons htype)
      (Nat.le_trans List.count_le_count_cons hdata)
    rw [takeMembers_cons, lookup_entry_cons, lookup_entry_cons]
    by_cases ht : name = "keyType"
    · subst ht
      -- the name does not come again, so its value stays
      have hnone := lookup_eq_none_of_count htype
      simp only [if_true, Except.bind_eq_ok_iff, ih, hnone, Option.elim_none, Option.elim_some]
      constructor
      · rintro ⟨b, hb, hd, ht⟩
        exact ⟨hd, b, hb, ht⟩
      · rintro ⟨hd, b, hb, ht⟩
        exact ⟨b, hb, hd, ht⟩
    · rw [if_neg ht, if_neg (Ne.symm ht)]
      by_cases hd : name = "keyData"
      · subst hd
        have hnone := lookup_eq_none_of_count hdata
        simp only [if_true, ih, hnone, Option.none_or, Option.some_or]
      · rw [if_neg hd, if_neg (Ne.symm hd)]
        exact ih p

theorem finish_eq_ok_iff {p : Partial} {envelope : Envelope} :
    p.finish = .ok envelope ↔
      p.keyType = some envelope.keyType ∧ p.keyData = some envelope.keyData := by
  obtain ⟨a, b⟩ := p
  obtain ⟨keyType, keyData⟩ := envelope
  cases a <;> cases b <;> simp [Partial.finish, required, bind, Except.bind, pure, Except.pure]

/-- **The envelope of an object** has the byte and the data of the two members. -/
theorem ofValue_object_eq_ok_iff {members : List (String × Value)} {envelope : Envelope}
    (htype : (members.map Prod.fst).count "keyType" ≤ 1)
    (hdata : (members.map Prod.fst).count "keyData" ≤ 1) :
    ofValue (.object members) = .ok envelope ↔
      members.lookup "keyData" = some envelope.keyData ∧
        ∃ v, members.lookup "keyType" = some v ∧ v.asByte = .ok envelope.keyType := by
  show (record.takeMembers .empty members >>= Partial.finish) = .ok envelope ↔ _
  rw [Except.bind_eq_ok_iff]
  simp only [takeMembers_eq_ok_iff htype hdata, finish_eq_ok_iff, Partial.empty, Option.or_none]
  constructor
  · rintro ⟨p, ⟨hd, ht⟩, htype, hdata⟩
    refine ⟨hd ▸ hdata, ?_⟩
    cases hv : members.lookup "keyType" with
    | none =>
      rw [hv, Option.elim_none, htype] at ht
      exact absurd ht (by simp)
    | some v =>
      rw [hv, Option.elim_some] at ht
      obtain ⟨b, hb, hpb⟩ := ht
      obtain rfl : b = envelope.keyType := Option.some.inj (hpb.symm.trans htype)
      exact ⟨v, rfl, hb⟩
  · rintro ⟨hd, v, hv, hb⟩
    refine ⟨⟨some envelope.keyType, some envelope.keyData⟩, ⟨hd.symm, ?_⟩, rfl, rfl⟩
    rw [hv, Option.elim_some]
    exact ⟨_, hb, rfl⟩

theorem count_le_one_of_ascending {members : List (String × Value)} (h : Ascending members)
    (name : String) : (members.map Prod.fst).count name ≤ 1 :=
  List.nodup_iff_count.1 h.nodup name

/-- **Members taken in once** give the envelope of the object they are gathered in. -/
theorem takeOnce_finish_iff {entries : List (String × Value)} {envelope : Envelope} :
    (Partial.empty.takeOnce entries >>= Partial.finish) = .ok envelope ↔
      ((entries.map Prod.fst).count "keyType" ≤ 1 ∧ (entries.map Prod.fst).count "keyData" ≤ 1) ∧
        ofValue (.object (gather [] entries)) = .ok envelope := by
  have hcount : ∀ name, Unrepeated name false (entries.map Prod.fst) ↔
      (entries.map Prod.fst).count name ≤ 1 := fun _ => Iff.rfl
  have hascending := ascending_gather List.Pairwise.nil entries
  have htaken : (∃ p, record.takeMembers .empty entries = .ok p ∧ p.finish = .ok envelope) ↔
      ofValue (.object entries) = .ok envelope := Except.bind_eq_ok_iff.symm
  have honce : (Partial.empty.takeOnce entries >>= Partial.finish) = .ok envelope ↔
      ((entries.map Prod.fst).count "keyType" ≤ 1 ∧ (entries.map Prod.fst).count "keyData" ≤ 1) ∧
        ofValue (.object entries) = .ok envelope := by
    rw [Except.bind_eq_ok_iff, ← htaken, ← hcount, ← hcount]
    constructor
    · rintro ⟨p, hp, hfinish⟩
      obtain ⟨htype, hdata, htake⟩ := takeOnce_eq_ok_iff.1 hp
      exact ⟨⟨htype, hdata⟩, p, htake, hfinish⟩
    · rintro ⟨⟨htype, hdata⟩, p, htake, hfinish⟩
      exact ⟨p, takeOnce_eq_ok_iff.2 ⟨htype, hdata, htake⟩, hfinish⟩
  rw [honce]
  refine and_congr_right fun ⟨htype, hdata⟩ => ?_
  -- both are determined by what is found under the two names
  rw [ofValue_object_eq_ok_iff htype hdata,
    ofValue_object_eq_ok_iff (count_le_one_of_ascending hascending _)
      (count_le_one_of_ascending hascending _)]
  unfold gather
  rw [lookup_foldl_insertEntry htype, lookup_foldl_insertEntry hdata, List.lookup_nil,
    List.lookup_nil, Option.or_none, Option.or_none]

/-! ## Envelopes of texts -/

@[simp] theorem shaped_ok {α : Type} (a : α) : shaped (.ok a) = .ok a := rfl

@[simp] theorem shaped_error {α : Type} (fault : ShapeFault) :
    shaped (.error fault : Except ShapeFault α) = .error (.shape fault) := rfl

/-- The number of an envelope is that of the value that stands there. -/
theorem readByte_of_readValue {depth : Nat} {t rest : Text} {v : Value}
    (h : readValue (depth + 1) t = .ok (v, rest)) :
    readByte t = (shaped v.asByte).map fun b => (b, rest) := by
  unfold readByte
  rcases readValue_cases h with ⟨u, items, hu, rfl, -⟩ | ⟨u, entries, hu, rfl, -⟩ | ⟨hl, ho, hs⟩
  · rw [hu]
    rfl
  · rw [hu]
    rfl
  · split
    · rename_i u hu
      exact absurd hu (hl u)
    · rename_i u hu
      exact absurd hu (ho u)
    · rw [hs]
      show (shaped v.asByte >>= fun b => pure (b, rest)) = _
      cases shaped v.asByte <;> rfl

/-- **An object is read like its members are taken in**, once each, if all that is passed over could
be read as well. -/
theorem readObject_of_readEntries {depth : Nat} (hdepth : dataDepth = depth + 1) {bound : Nat}
    {first : Bool} {p : Partial} {t rest : Text} {entries : List (String × Value)}
    (h : readEntries (readValue dataDepth) bound first t = .ok (entries, rest)) :
    readObject bound first p t =
      (shaped (p.takeOnce entries >>= Partial.finish)).map fun envelope => (envelope, rest) := by
  -- by the bound, one member for each step; what is passed over was read, so it ends where it did
  induction bound generalizing first p t entries with
  | zero => exact absurd h (by simp [readEntries])
  | succ bound ih =>
    rw [readObject]
    rcases readEntries_eq_ok h with ⟨rfl, hnext⟩ |
      ⟨name, u, t₁, v, t₂, entries', rfl, hnext, hcolon, hv, hrest⟩
    · rw [hnext]
      show (shaped p.finish >>= fun e => pure (e, rest)) = (shaped (Except.ok p >>= _)).map _
      show _ = (shaped p.finish).map _
      cases shaped p.finish <;> rfl
    · rw [hnext]
      dsimp only [bind, Except.bind]
      rw [hcolon, Partial.takeOnce]
      dsimp only
      by_cases htype : name = "keyType"
      · rw [if_pos htype, if_pos htype]
        cases p.keyType.isSome with
        | true => rfl
        | false =>
          have hbyte := readByte_of_readValue (hdepth ▸ hv)
          simp only [Bool.false_eq_true, if_false, hbyte]
          cases v.asByte with
          | error fault => rfl
          | ok b => exact ih hrest
      rw [if_neg htype, if_neg htype]
      by_cases hdata : name = "keyData"
      · rw [if_pos hdata, if_pos hdata]
        cases p.keyData.isSome with
        | true => rfl
        | false =>
          simp only [Bool.false_eq_true, if_false, hv]
          exact ih hrest
      · rw [if_neg hdata, if_neg hdata, (skim_of_readValue hv).1]
        exact ih hrest

/-- **The envelope of a list** has the byte and the data of its two items. -/
theorem ofValue_array_eq_ok_iff {items : List Value} {envelope : Envelope} :
    ofValue (.array items) = .ok envelope ↔
      ∃ v, items = [v, envelope.keyData] ∧ v.asByte = .ok envelope.keyType := by
  show (record.takeItems items.length record.fields .empty items >>= Partial.finish) = _ ↔ _
  match items with
  | [] => simp [record, Record.takeItems, bind, Except.bind]
  | [v] =>
    cases hv : v.asByte <;> simp [record, Record.takeItems, bind, Except.bind, hv, pure, Except.pure]
  | [v, data] =>
    obtain ⟨keyType, keyData⟩ := envelope
    cases hv : v.asByte with
    | error fault => simp [record, Record.takeItems, bind, Except.bind, hv]
    | ok b =>
      simp only [record, Record.takeItems, bind, Except.bind, hv, pure, Except.pure,
        finish_eq_ok_iff, Partial.empty, Option.some.injEq]
      constructor
      · rintro ⟨rfl, rfl⟩
        exact ⟨v, rfl, hv⟩
      · rintro ⟨w, hw, hb⟩
        obtain ⟨rfl, hdata⟩ := List.cons.inj hw
        exact ⟨Except.ok.inj (hv.symm.trans hb), (List.cons.inj hdata).1⟩
  | v :: data :: _ :: _ =>
    cases hv : v.asByte <;> simp [record, Record.takeItems, bind, Except.bind, hv, pure, Except.pure]

/-- The envelope that the items of a list are. A third item is refused where the list should end. -/
def listed : List Value → Except Stop Envelope
  | [] => .error (.shape (.wrongLength 0 record.listLabel))
  | v :: rest => do
    let keyType ← shaped v.asByte
    match rest with
    | [] => .error (.shape (.wrongLength 1 record.listLabel))
    | [data] => return ⟨keyType, data⟩
    | _ => .error .malformed

theorem listed_eq_ok_iff {items : List Value} {envelope : Envelope} :
    listed items = .ok envelope ↔ ofValue (.array items) = .ok envelope := by
  rw [ofValue_array_eq_ok_iff]
  match items with
  | [] => simp [listed]
  | [v] => cases hv : v.asByte <;> simp [listed, hv, bind, Except.bind]
  | [v, data] =>
    obtain ⟨keyType, keyData⟩ := envelope
    cases hv : v.asByte with
    | error fault => simp [listed, hv, bind, Except.bind]
    | ok b =>
      simp only [listed, hv, bind, Except.bind, pure, Except.pure, shaped_ok, Except.ok.injEq,
        Envelope.mk.injEq, List.cons.injEq, and_true]
      constructor
      · rintro ⟨rfl, rfl⟩
        exact ⟨v, ⟨rfl, rfl⟩, hv⟩
      · rintro ⟨w, ⟨rfl, rfl⟩, hw⟩
        exact ⟨Except.ok.inj (hv.symm.trans hw), rfl⟩
  | v :: data :: _ :: _ => cases hv : v.asByte <;> simp [listed, hv, bind, Except.bind]

/-- **A list is read as the envelope of its items.** -/
theorem readList_eq_listed {depth : Nat} (hdepth : dataDepth = depth + 1) {bound : Nat}
    {t rest : Text} {items : List Value}
    (h : readItems (readValue dataDepth) bound true [] t = .ok (items, rest)) :
    readList t = (listed items).map fun envelope => (envelope, rest) := by
  unfold readList
  rcases readItems_eq_ok h with ⟨rfl, hnext⟩ | ⟨u, v, t₁, items₁, bound₁, rfl, hnext, hv, hrest⟩
  · rw [hnext]
    rfl
  rw [hnext]
  dsimp only [bind, Except.bind, listed]
  rw [readByte_of_readValue (hdepth ▸ hv)]
  cases v.asByte with
  | error fault => rfl
  | ok b =>
    dsimp only [shaped_ok, Except.map]
    rcases readItems_eq_ok hrest with ⟨rfl, hnext₁⟩ |
      ⟨u₁, data, t₂, items₂, bound₂, rfl, hnext₁, hdata, hrest₁⟩
    · rw [hnext₁]
    rw [hnext₁]
    dsimp only
    rw [hdata]
    dsimp only
    rcases readItems_eq_ok hrest₁ with ⟨rfl, hnext₂⟩ | ⟨u₂, w, -, items₃, -, rfl, hnext₂, -, -⟩
    · rw [readChar_eq_ok_iff.2 (nextItem_eq_done_iff.1 hnext₂)]
      rfl
    · -- a third item stands behind a comma
      rcases nextItem_eq_part hnext₂ with ⟨hfirst, -, -⟩ | ⟨-, r, hr, -⟩
      · exact absurd hfirst (by simp)
      · rw [hr]
        rfl

theorem readList_of_readItems {depth : Nat} (hdepth : dataDepth = depth + 1) {bound : Nat}
    {t rest rest' : Text} {items : List Value} {envelope : Envelope}
    (h : readItems (readValue dataDepth) bound true [] t = .ok (items, rest)) :
    readList t = .ok (envelope, rest') ↔ rest' = rest ∧ ofValue (.array items) = .ok envelope := by
  rw [readList_eq_listed hdepth h, Except.map_eq_ok_iff, ← listed_eq_ok_iff]
  constructor
  · rintro ⟨e, he, heq⟩
    obtain ⟨rfl, rfl⟩ := Prod.mk.inj heq
    exact ⟨rfl, he⟩
  · rintro ⟨rfl, he⟩
    exact ⟨envelope, he, rfl⟩

end Envelope

/-- **The names of the members of a text** that is an object, in their order and with repetitions;
names are compared as they read, not as they are written. -/
def memberNames (t : Text) : List String :=
  match skipBlanks t with
  | '\x7b' :: u =>
    match readEntries (readValue Envelope.dataDepth) (u.length + 1) true u with
    | .ok (entries, _) => entries.map Prod.fst
    | .error _ => []
  | _ => []

theorem memberNames_of_object {t u rest : Text} {entries : List (String × Value)}
    (hu : skipBlanks t = '\x7b' :: u)
    (h : readEntries (readValue Envelope.dataDepth) (u.length + 1) true u = .ok (entries, rest)) :
    memberNames t = entries.map Prod.fst := by
  unfold memberNames
  simp only [hu, h]

theorem memberNames_of_ne {t : Text} (h : ∀ u, skipBlanks t ≠ '\x7b' :: u) : memberNames t = [] := by
  unfold memberNames
  split
  · rename_i u hu
    exact absurd hu (h u)
  · rfl

/-- The two members of an envelope are not repeated in a text. -/
def EnvelopeOnce (t : Text) : Prop :=
  (memberNames t).count "keyType" ≤ 1 ∧ (memberNames t).count "keyData" ≤ 1

instance (t : Text) : Decidable (EnvelopeOnce t) := inferInstanceAs (Decidable (_ ∧ _))

theorem envelopeOnce_of_ne {t : Text} (h : ∀ u, skipBlanks t ≠ '\x7b' :: u) : EnvelopeOnce t := by
  unfold EnvelopeOnce
  rw [memberNames_of_ne h]
  simp

/-- **A text that is a value holds the envelope of the value**, unless it repeats a member. -/
theorem Envelope.read_eq_ok_iff {t rest rest' : Text} {v : Value} {envelope : Envelope}
    (h : readValue maxDepth t = .ok (v, rest)) :
    Envelope.read t = .ok (envelope, rest') ↔
      rest' = rest ∧ EnvelopeOnce t ∧ Envelope.ofValue v = .ok envelope := by
  have hdepth : dataDepth = 125 + 1 := rfl
  unfold Envelope.read
  rcases readValue_cases h with ⟨u, items, hu, rfl, hitems⟩ | ⟨u, entries, hu, rfl, hentries⟩ |
    ⟨hlist, hobject, hscalar⟩
  · have honce : EnvelopeOnce t := by
      refine envelopeOnce_of_ne fun u' hu' => ?_
      exact absurd (hu.symm.trans hu') (by simp)
    simp only [hu]
    rw [readList_of_readItems hdepth hitems]
    exact and_congr_right fun _ => (and_iff_right honce).symm
  · rw [EnvelopeOnce, memberNames_of_object hu hentries, ← takeOnce_finish_iff]
    simp only [hu]
    rw [readObject_of_readEntries hdepth hentries, Except.map_eq_ok_iff]
    constructor
    · rintro ⟨e, he, heq⟩
      obtain ⟨rfl, rfl⟩ := Prod.mk.inj heq
      exact ⟨rfl, Except.mapError_eq_ok_iff.1 he⟩
    · rintro ⟨rfl, he⟩
      exact ⟨envelope, Except.mapError_eq_ok_iff.2 he, rfl⟩
  · -- neither reading finds an envelope in a value that holds no others
    obtain ⟨hsequence, hmap⟩ := found_of_readScalar hscalar
    have hvalue : ofValue v ≠ .ok envelope := by
      cases v with
      | array items => exact absurd rfl hsequence
      | object members => exact absurd rfl hmap
      | _ => exact (nomatch ·)
    refine iff_of_false ?_ fun h => hvalue h.2.2
    split
    · rename_i u hu
      exact absurd hu (hlist u)
    · rename_i u hu
      exact absurd hu (hobject u)
    · rw [hscalar]
      exact (nomatch ·)

end SealedMessaging.Snapshot
