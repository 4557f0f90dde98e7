import SealedMessaging.Proofs.Snapshot.RoundTrip
import SealedMessaging.Session

/-!
# What a step does to a session

A step is refused, or it puts new material under its name, or it makes one change of the material
there. Everything that is known of steps and runs follows from these cases.

* `Origin.makes_of_make`: new material, by where it comes from.
* `Session.after`: the session after several steps.
* `Effect`: the cases of a step.
* `Session.step_effect`: every step is one of them.
-/

namespace SealedMessaging

/-! ## New material -/

namespace Origin

theorem outcome_plainly_eq_ok_iff {made : Except MaterialFault Material} {m : Material} :
    (plainly made).outcome = .ok m ↔ made = .ok m :=
  Except.mapError_eq_ok_iff

/-- Material of a random key is made of some key. -/
theorem exists_of_ofDrawn {κ : Type} {drawn : Option κ × Bytes}
    {make : κ → Except MaterialFault Material} {m : Material}
    (h : (ofDrawn drawn make).1.outcome = .ok m) : ∃ key, make key = .ok m := by
  obtain ⟨key?, rest⟩ := drawn
  cases key? with
  | none => exact absurd h (by simp [ofDrawn])
  | some key => exact ⟨key, outcome_plainly_eq_ok_iff.1 h⟩

/-- **What an origin can make**: shared material, a signer with a directory that is empty, or what a
snapshot holds. -/
def Makes : Origin → Material → Prop
  | .sharedBytes _, m | .sharedPassword _, m | .sharedRandom, m => ∃ s, m = .shared s
  | .signerBytes id _ controller, m | .signerPassword id _ controller, m
  | .signerRandom id controller, m =>
    ∃ key s, SignerMaterial.ofKey id key controller = .ok s ∧ m = .signer s
  | .snapshot route text, m => (Snapshot.load route text).outcome = .ok m

theorem makes_of_make {origin : Origin} {source : Bytes} {m : Material}
    (h : (origin.make source).1.outcome = .ok m) : origin.Makes m := by
  have hshared : ∀ {x : Except MaterialFault SharedMaterial}, x.map .shared = .ok m →
      ∃ s, m = .shared s := by
    intro x hx
    obtain ⟨s, -, rfl⟩ := Except.map_eq_ok_iff.1 hx
    exact ⟨s, rfl⟩
  cases origin with
  | sharedBytes key => exact hshared (outcome_plainly_eq_ok_iff.1 h)
  | sharedPassword password => exact hshared (outcome_plainly_eq_ok_iff.1 h)
  | sharedRandom =>
    obtain ⟨key, hkey⟩ := exists_of_ofDrawn h
    exact ⟨_, (Except.ok.inj hkey).symm⟩
  | signerBytes id key controller =>
    obtain ⟨s, hs, rfl⟩ := Except.map_eq_ok_iff.1 (outcome_plainly_eq_ok_iff.1 h)
    obtain ⟨k, -, hk⟩ := Except.bind_eq_ok_iff.1 hs
    exact ⟨k, s, hk, rfl⟩
  | signerPassword id password controller =>
    obtain ⟨s, hs, rfl⟩ := Except.map_eq_ok_iff.1 (outcome_plainly_eq_ok_iff.1 h)
    obtain ⟨k, -, hk⟩ := Except.bind_eq_ok_iff.1 hs
    exact ⟨k, s, hk, rfl⟩
  | signerRandom id controller =>
    obtain ⟨key, hkey⟩ := exists_of_ofDrawn h
    obtain ⟨s, hs, rfl⟩ := Except.map_eq_ok_iff.1 hkey
    exact ⟨key, s, hs, rfl⟩
  | snapshot route text => exact Except.mapError_eq_ok_iff.1 h

end Origin

/-! ## Effects -/

/-- **What a step does** to the materials of a session, and how it ends. -/
inductive Effect (s : Session) (step : Step) :
    SortedMap String Material → Except StepFault Answer → Prop where
  | refused (fault : StepFault)
      (unmade : ∀ origin m, step.action = .create origin →
        (origin.make (s.prepare step).source).1.outcome ≠ .ok m)
      (unchanged : ∀ use m m', step.action = .use use → s.material? step.name = some m →
        ¬ Change m use m') :
      Effect s step s.materials (.error fault)
  | created {origin : Origin} {m : Material} (action : step.action = .create origin)
      (made : (origin.make (s.prepare step).source).1.outcome = .ok m) :
      Effect s step (s.materials.insert step.name m) (.ok .done)
  | reloaded (action : step.action = .reload) : Effect s step s.materials (.ok .done)
  | asked {use : Use} (answer : Answer) (action : step.action = .use use)
      (question : use.isQuestion = true) : Effect s step s.materials (.ok answer)
  | changed {use : Use} {m m' : Material} (action : step.action = .use use)
      (held : s.material? step.name = some m) (change : Change m use m') :
      Effect s step (s.materials.insert step.name m') (.ok .done)

namespace Session

/-! ## Several steps -/

/-- **The session after several steps.** -/
def after (s : Session) (steps : List Step) : Session :=
  steps.foldl (fun s step => (s.step step).1) s

@[simp] theorem after_nil (s : Session) : s.after [] = s := rfl

@[simp] theorem after_cons (s : Session) (step : Step) (rest : List Step) :
    s.after (step :: rest) = (s.step step).1.after rest := rfl

theorem after_append (s : Session) (before rest : List Step) :
    s.after (before ++ rest) = (s.after before).after rest :=
  List.foldl_append

theorem run_append (s : Session) (before rest : List Step) :
    s.run (before ++ rest) = s.run before ++ (s.after before).run rest := by
  induction before generalizing s with
  | nil => rfl
  | cons step before ih =>
    rw [List.cons_append, run, run]
    exact congrArg _ (ih (s.step step).1)

theorem length_run (s : Session) (steps : List Step) : (s.run steps).length = steps.length := by
  induction steps generalizing s with
  | nil => rfl
  | cons step rest ih => exact congrArg (· + 1) (ih (s.step step).1)

/-! ## Materials -/

theorem material?_start (clock : Instant) (name : String) : (start clock).material? name = none := rfl

/-- Putting back what is there changes nothing. -/
theorem put_material? {s : Session} {name : String} {m : Material}
    (h : s.material? name = some m) : s.put name m = s := by
  unfold put
  rw [SortedMap.insert_get? h]

/-! ## One step -/

/-- Material is made and put under the name, or none is made. -/
theorem create_cases (s : Session) (name : String) (origin : Origin) :
    (∃ m, (origin.make s.source).1.outcome = .ok m ∧
        (s.create name origin).1 = { s with source := (origin.make s.source).2 }.put name m ∧
        (s.create name origin).2.outcome = .ok .done) ∨
      ∃ fault, (origin.make s.source).1.outcome = .error fault ∧
        (s.create name origin).1 = { s with source := (origin.make s.source).2 } ∧
        (s.create name origin).2.outcome = .error (.origin fault) := by
  unfold create
  dsimp only
  cases hmade : (origin.make s.source).1.outcome with
  | ok m => exact Or.inl ⟨m, rfl, rfl, rfl⟩
  | error fault => exact Or.inr ⟨fault, rfl, rfl, rfl⟩

/-- **Loading what is written for a material and putting it back** changes nothing, whether it loads
or not. -/
theorem create_written {s : Session} {name : String} {m : Material}
    (hheld : s.material? name = some m) (route : Snapshot.Route) :
    (s.create name (.snapshot route (Snapshot.write m))).1 = s := by
  rcases create_cases s name (.snapshot route (Snapshot.write m)) with
    ⟨m', hmade, hs, -⟩ | ⟨fault, -, hs, -⟩
  · have hload : (Snapshot.load route (Snapshot.write m)).outcome = .ok m' :=
      Except.mapError_eq_ok_iff.1 hmade
    obtain ⟨-, rfl⟩ := Snapshot.outcome_load_write.1 hload
    rw [hs]
    exact put_material? hheld
  · exact hs

section

variable {s : Session} {step : Step} {m : Material}

theorem step_create {origin : Origin} (haction : step.action = .create origin) :
    s.step step = (s.prepare step).create step.name origin := by
  unfold Session.step
  rw [haction]
  rfl

theorem step_missing (haction : ∀ origin, step.action ≠ .create origin)
    (hheld : s.material? step.name = none) :
    s.step step = (s.prepare step, .fail (.missing step.name)) := by
  have hprepare : (s.prepare step).material? step.name = none := hheld
  unfold Session.step act
  cases h : step.action with
  | create origin => exact absurd h (haction origin)
  | reload => simp only [hprepare]
  | use use => simp only [hprepare]

theorem step_reload (haction : step.action = .reload) (hheld : s.material? step.name = some m) :
    s.step step = (s.prepare step).create step.name (.snapshot .text (Snapshot.write m)) := by
  have hprepare : (s.prepare step).material? step.name = some m := hheld
  unfold Session.step act
  simp only [haction, hprepare]

theorem step_use {use : Use} (haction : step.action = .use use)
    (hheld : s.material? step.name = some m) :
    s.step step = ((s.prepare step).put step.name (m.step (s.prepare step).clock use).1,
      (m.step (s.prepare step).clock use).2.mapError .use) := by
  have hprepare : (s.prepare step).material? step.name = some m := hheld
  unfold Session.step act
  simp only [haction, hprepare]

/-- The end of a step that asks material for bytes, by what the material makes of it. -/
def bytesAnswer : Except MaterialFault Bytes → Except StepFault Answer
  | .ok bs => .ok (.bytes bs)
  | .error fault => .error (.use (.material fault))

theorem outcome_step_tell {use : Use} {r : Report MaterialFault Bytes}
    (haction : step.action = .use use) (hheld : s.material? step.name = some m)
    (htell : m.step (step.clock.getD s.clock) use = m.tell (Material.inBytes r)) :
    (s.step step).2.outcome = bytesAnswer r.outcome := by
  rw [step_use haction hheld]
  show (m.step (step.clock.getD s.clock) use).2.outcome.mapError StepFault.use = _
  rw [htell, Material.outcome_tell]
  cases r.outcome <;> rfl

/-- Material that is not there is not changed. -/
theorem effect_missing (haction : ∀ origin, step.action ≠ .create origin)
    (hheld : s.material? step.name = none) :
    Effect s step s.materials (.error (.missing step.name)) := by
  refine .refused _ (fun origin m h => absurd h (haction origin)) fun use m m' _ h => ?_
  exact absurd (hheld.symm.trans h) (by simp)

theorem effect_use {use : Use} {now : Instant} (haction : step.action = .use use)
    (hheld : s.material? step.name = some m) :
    Effect s step (s.materials.insert step.name (m.step now use).1)
      ((m.step now use).2.outcome.mapError .use) := by
  have hsame : s.materials.insert step.name m = s.materials := SortedMap.insert_get? hheld
  rcases m.step_cases now use with ⟨hm, fault, hr⟩ | ⟨answer, hr, ⟨hm, hquestion⟩ | hchange⟩
  · -- a use that fails is no change, since a change would have been made
    rw [hm, hr, hsame]
    refine .refused _ (fun origin m h => absurd (haction.symm.trans h) (by simp)) ?_
    intro use' m₁ m' h₁ h₂ hchange
    obtain rfl := Action.use.inj (haction.symm.trans h₁)
    obtain rfl := Option.some.inj (hheld.symm.trans h₂)
    exact absurd (hr.symm.trans (Material.step_of_change hchange now).2) (by simp)
  · rw [hm, hr, hsame]
    exact .asked answer haction hquestion
  · rw [(Material.step_of_change hchange now).2]
    exact .changed haction hheld hchange

end

/-- **Every step has one of the effects.** -/
theorem step_effect (s : Session) (step : Step) :
    Effect s step (s.step step).1.materials (s.step step).2.outcome := by
  cases haction : step.action with
  | create origin =>
    rw [step_create haction]
    rcases create_cases (s.prepare step) step.name origin with
      ⟨m, hmade, hs, hr⟩ | ⟨fault, hmade, hs, hr⟩
    · rw [hs, hr]
      exact .created haction hmade
    · rw [hs, hr]
      refine .refused _ (fun origin' m h hok => ?_) fun use m m' h => ?_
      · obtain rfl := Action.create.inj (haction.symm.trans h)
        exact absurd (hmade.symm.trans hok) (by simp)
      · exact absurd (haction.symm.trans h) (by simp)
  | reload =>
    cases hheld : s.material? step.name with
    | none =>
      rw [step_missing (by simp [haction]) hheld]
      exact effect_missing (by simp [haction]) hheld
    | some m =>
      -- the outcome depends on whether the snapshot loads, the materials do not
      have hprepare : (s.prepare step).material? step.name = some m := hheld
      rw [step_reload haction hheld, create_written hprepare]
      rcases create_cases (s.prepare step) step.name (.snapshot .text (Snapshot.write m)) with
        ⟨-, -, -, hr⟩ | ⟨fault, -, -, hr⟩
      · rw [hr]
        exact .reloaded haction
      · rw [hr]
        exact .refused _ (by simp [haction]) (by simp [haction])
  | use use =>
    cases hheld : s.material? step.name with
    | none =>
      rw [step_missing (by simp [haction]) hheld]
      exact effect_missing (by simp [haction]) hheld
    | some m =>
      rw [step_use haction hheld]
      exact effect_use haction hheld

end Session

end SealedMessaging
