import SealedMessaging.Proofs.Snapshot.Envelope
import SealedMessaging.Snapshot

/-!
# The ways to read a snapshot agree

A snapshot is loaded from a text, as a document inside some other reading, or from a value. The first
two differ only in what they find first in a text that both refuse. A value forgets which members
stood in the text twice, so loading from it accepts more.

* `outcome_ofText_eq_ok_iff`, `outcome_ofDocument_eq_ok_iff`: a text and a document that load.
* `Route.Finds`, `outcome_load_eq_ok_iff`: the envelope that is found on each way, and what is loaded.
* `outcome_ofText_iff_ofValue`: a text compared with the value it is.
* `routes_agree`: all three.
-/

namespace SealedMessaging.Snapshot

open Json

theorem readEnd_eq_ok_iff {α : Type} {a b : α} {rest : Text} :
    readEnd a rest = .ok b ↔ skipBlanks rest = [] ∧ a = b := by
  unfold readEnd
  cases skipBlanks rest <;> simp

/-- **A text loads** if an envelope fills it and its data load. -/
theorem outcome_ofText_eq_ok_iff {text : String} {m : Material} :
    (ofText text).outcome = .ok m ↔
      ∃ envelope rest, Envelope.read text.toList = .ok (envelope, rest) ∧ skipBlanks rest = [] ∧
        (decode envelope).outcome = .ok m := by
  unfold ofText envelopeOfText
  simp only [Report.outcome_bind_eq_ok_iff, Report.outcome_ofExcept, Except.mapError_eq_ok_iff,
    Except.bind_eq_ok_iff, readEnd_eq_ok_iff]
  constructor
  · rintro ⟨envelope, ⟨⟨e, rest⟩, hread, hend, rfl⟩, hm⟩
    exact ⟨e, rest, hread, hend, hm⟩
  · rintro ⟨envelope, rest, hread, hend, hm⟩
    exact ⟨envelope, ⟨(envelope, rest), hread, hend, rfl⟩, hm⟩

/-- **A document loads** under the same conditions. -/
theorem outcome_ofDocument_eq_ok_iff {text : String} {m : Material} :
    (ofDocument text).outcome = .ok m ↔
      ∃ envelope rest, Envelope.read text.toList = .ok (envelope, rest) ∧ skipBlanks rest = [] ∧
        (decode envelope).outcome = .ok m := by
  unfold ofDocument
  simp only [Report.outcome_bind_eq_ok_iff, Report.outcome_ofExcept, Report.outcome_mapError,
    Except.mapError_eq_ok_iff, readEnd_eq_ok_iff]
  -- the data are decoded before the end is looked for, but both must go well
  constructor
  · rintro ⟨⟨envelope, rest⟩, hread, m', hm, hend, rfl⟩
    exact ⟨envelope, rest, hread, hend, hm⟩
  · rintro ⟨envelope, rest, hread, hend, hm⟩
    exact ⟨(envelope, rest), hread, m, hm, hend, rfl⟩

theorem outcome_ofValue_eq_ok_iff {v : Value} {m : Material} :
    (ofValue v).outcome = .ok m ↔
      ∃ envelope, Envelope.ofValue v = .ok envelope ∧ (decode envelope).outcome = .ok m := by
  unfold ofValue shaped
  simp only [Report.outcome_bind_eq_ok_iff, Report.outcome_ofExcept, Except.mapError_eq_ok_iff]

theorem parse_eq_ok_iff {text : String} {v : Value} :
    Value.parse text = .ok v ↔
      ∃ rest, readValue maxDepth text.toList = .ok (v, rest) ∧ skipBlanks rest = [] := by
  unfold Value.parse
  simp only [Except.bind_eq_ok_iff, readEnd_eq_ok_iff]
  constructor
  · rintro ⟨⟨w, rest⟩, hread, hend, rfl⟩
    exact ⟨rest, hread, hend⟩
  · rintro ⟨rest, hread, hend⟩
    exact ⟨(v, rest), hread, hend, rfl⟩

/-- **The envelope that is found on a way to read a snapshot.** -/
def Route.Finds (route : Route) (written : String) (envelope : Envelope) : Prop :=
  match route with
  | .text | .document =>
    ∃ rest, Envelope.read written.toList = .ok (envelope, rest) ∧ skipBlanks rest = []
  | .value => ∃ v, Value.parse written = .ok v ∧ Envelope.ofValue v = .ok envelope

/-- At most one envelope is found. -/
theorem Route.Finds.unique {route : Route} {written : String} {envelope envelope' : Envelope}
    (h : route.Finds written envelope) (h' : route.Finds written envelope') :
    envelope = envelope' := by
  cases route with
  | text | document =>
    obtain ⟨rest, hread, -⟩ := h
    obtain ⟨rest', hread', -⟩ := h'
    exact (Prod.mk.inj (Except.ok.inj (hread.symm.trans hread'))).1
  | value =>
    obtain ⟨v, hv, henvelope⟩ := h
    obtain ⟨v', hv', henvelope'⟩ := h'
    obtain rfl := Except.ok.inj (hv.symm.trans hv')
    exact Except.ok.inj (henvelope.symm.trans henvelope')

/-- What is loaded is what the envelope holds that is found. -/
theorem outcome_load_eq_ok_iff {route : Route} {text : String} {m : Material} :
    (load route text).outcome = .ok m ↔
      ∃ envelope, route.Finds text envelope ∧ (decode envelope).outcome = .ok m := by
  have hread : (∃ envelope rest, Envelope.read text.toList = .ok (envelope, rest) ∧
      skipBlanks rest = [] ∧ (decode envelope).outcome = .ok m) ↔
      ∃ envelope, (∃ rest, Envelope.read text.toList = .ok (envelope, rest) ∧
        skipBlanks rest = []) ∧ (decode envelope).outcome = .ok m :=
    exists_congr fun envelope => by simp only [← and_assoc, exists_and_right]
  cases route with
  | text => exact Except.mapError_eq_ok_iff.trans (outcome_ofText_eq_ok_iff.trans hread)
  | document => exact Except.mapError_eq_ok_iff.trans (outcome_ofDocument_eq_ok_iff.trans hread)
  | value =>
    refine Except.mapError_eq_ok_iff.trans ?_
    unfold ofValueText
    simp only [Report.outcome_bind_eq_ok_iff, Report.outcome_ofExcept, Except.mapError_eq_ok_iff,
      outcome_ofValue_eq_ok_iff]
    constructor
    · rintro ⟨v, hv, envelope, henvelope, hm⟩
      exact ⟨envelope, ⟨v, hv, henvelope⟩, hm⟩
    · rintro ⟨envelope, ⟨v, hv, henvelope⟩, hm⟩
      exact ⟨v, hv, envelope, henvelope, hm⟩

/-- **A text loads like the value it is**, unless it repeats a member of the envelope. -/
theorem outcome_ofText_iff_ofValue {text : String} {v : Value} {m : Material}
    (hparse : Value.parse text = .ok v) :
    (ofText text).outcome = .ok m ↔
      EnvelopeOnce text.toList ∧ (ofValue v).outcome = .ok m := by
  obtain ⟨rest, hread, hend⟩ := parse_eq_ok_iff.1 hparse
  rw [outcome_ofText_eq_ok_iff, outcome_ofValue_eq_ok_iff]
  constructor
  · rintro ⟨envelope, rest', henvelope, -, hm⟩
    obtain ⟨-, honce, hvalue⟩ := (Envelope.read_eq_ok_iff hread).1 henvelope
    exact ⟨honce, envelope, hvalue, hm⟩
  · rintro ⟨honce, envelope, hvalue, hm⟩
    exact ⟨envelope, rest, (Envelope.read_eq_ok_iff hread).2 ⟨rfl, honce, hvalue⟩, hend, hm⟩

/-- **The three ways to read a snapshot agree.** A text and a document load on exactly the same texts
and give the same material. A text that is a value loads exactly if the value loads, to the same
material, and neither member of the envelope is repeated in the text. -/
theorem routes_agree (text : String) (m : Material) :
    ((ofText text).outcome = .ok m ↔ (ofDocument text).outcome = .ok m) ∧
      ∀ v, Value.parse text = .ok v →
        ((ofText text).outcome = .ok m ↔
          EnvelopeOnce text.toList ∧ (ofValue v).outcome = .ok m) := by
  refine ⟨?_, fun v hparse => outcome_ofText_iff_ofValue hparse⟩
  rw [outcome_ofText_eq_ok_iff, outcome_ofDocument_eq_ok_iff]

/-- Data before the number, whose name is written with an escape, and a member that is passed over
between them. -/
def shuffledText : String :=
  "\x7b\"keyData\":[\"" ++ String.ofList (List.replicate 64 '7') ++
    "\"],\"\":[\"\",\x7b\"keyType\":1,\"keyType\":-0.5e3\x7d], \"key\\u0054ype\" : 0\x7d"

theorem routes_agree_shuffled :
    ∃ (v : Value) (m : Material), Value.parse shuffledText = .ok v ∧
      EnvelopeOnce shuffledText.toList ∧ (ofText shuffledText).outcome = .ok m ∧
      (ofDocument shuffledText).outcome = .ok m ∧ (ofValue v).outcome = .ok m := by
  have hparse : (Value.parse shuffledText).toOption.isSome := by decide +kernel
  have honce : EnvelopeOnce shuffledText.toList := by decide +kernel
  have hload : (ofText shuffledText).outcome.toOption =
      some (.shared ⟨⟨⟨List.replicate 32 0x77, rfl⟩⟩⟩) := by decide +kernel
  obtain ⟨v, hv⟩ := Option.isSome_iff_exists.1 hparse
  have hv := Except.eq_ok_of_toOption hv
  have hload := Except.eq_ok_of_toOption hload
  have hagree := routes_agree shuffledText (.shared ⟨⟨⟨List.replicate 32 0x77, rfl⟩⟩⟩)
  exact ⟨v, _, hv, honce, hload, hagree.1.1 hload, ((hagree.2 v hv).1 hload).2⟩

end SealedMessaging.Snapshot
