import SealedMessaging.Proofs.Session.Reload
import SealedMessaging.Proofs.Snapshot.Shown

/-!
# The events of a run reveal no secret

An outsider knows the outlines of the materials at the start and sees of each step what is done under
which name and with which identifiers, how it ends, and what shows of a snapshot that is loaded. This
is enough to tell all events and to keep track of the outlines, so two runs that look alike from
outside report the same events, whatever keys, passwords and payloads they are made with.

* `View`, `Session.view`: what shows of a step.
* `Session.outline`: what shows of the materials.
* `Session.events_step`, `Session.outline_step`: what can be told of one step.
* `Session.loaded?_of_reload`, `Session.views_eq_of_sound`: what shows of a reload can be told from
  its end.
* `Session.events_eq_told`: what can be told of a run.
* `Session.events_reveal_no_secret`: two runs that look alike.
-/

namespace SealedMessaging

open Snapshot (Shown)

/-! ## What shows of a step -/

/-- **What shows of an origin**: the way material is made, and for which identifier. -/
def Origin.withoutSecrets : Origin → Origin
  | .sharedBytes _ => .sharedBytes []
  | .sharedPassword _ => .sharedPassword ""
  | .sharedRandom => .sharedRandom
  | .signerBytes id _ _ => .signerBytes id [] []
  | .signerPassword id _ _ => .signerPassword id "" []
  | .signerRandom id _ => .signerRandom id []
  | .snapshot route _ => .snapshot route ""

/-- What shows of an action. -/
def Action.withoutSecrets : Action → Action
  | .create origin => .create origin.withoutSecrets
  | .reload => .reload
  | .use u => .use u.withoutSecrets

theorem Action.withoutSecrets_eq_reload_iff {action : Action} :
    action.withoutSecrets = .reload ↔ action = .reload := by
  cases action <;> simp [withoutSecrets]

/-- What shows of the end of a step. -/
def Step.ending (step : Step) : Except StepFault Answer → Ending
  | .ok _ => .done
  | .error (.use fault) =>
    match step.action with
    | .use use => fault.ending use.frame
    | _ => .failed
  | .error _ => .failed

/-- What shows of the snapshot that material is made of, if it is made of one. -/
def Origin.shown? : Origin → Option Shown
  | .snapshot route text => Snapshot.shown? route text
  | _ => none

/-- **What an outsider sees of a step.** -/
structure View where
  name : String
  /-- What is done, without secrets. -/
  action : Action
  ending : Ending
  /-- What shows of a snapshot that is loaded. -/
  loaded : Option Shown
  deriving DecidableEq

namespace Session

/-- What shows of the material of a name. -/
def outline (s : Session) (name : String) : Option Outline :=
  (s.material? name).map Material.outline

/-- What shows of the snapshot that a step loads, if it loads one. A reload loads what it writes. -/
def loaded? (s : Session) (step : Step) : Option Shown :=
  match step.action with
  | .create origin => origin.shown?
  | .reload => (s.material? step.name).bind fun m => Snapshot.shown? .text (Snapshot.write m)
  | .use _ => none

/-- What an outsider sees of a step. -/
def view (s : Session) (step : Step) : View where
  name := step.name
  action := step.action.withoutSecrets
  ending := step.ending (s.step step).2.outcome
  loaded := s.loaded? step

/-- **What an outsider sees of a run.** -/
def views (s : Session) : List Step → List View
  | [] => []
  | step :: rest => s.view step :: (s.step step).1.views rest

/-- **The events of a run**, step by step. -/
def events (s : Session) (steps : List Step) : List (List Event) :=
  (s.run steps).map fun r => r.1.events

end Session

/-! ## What can be told -/

/-- The outline of material that has been made. -/
def Origin.outline? (origin : Origin) (loaded : Option Shown) : Option Outline :=
  match origin with
  | .sharedBytes _ | .sharedPassword _ | .sharedRandom => some .shared
  | .signerBytes id _ _ | .signerPassword id _ _ | .signerRandom id _ =>
    (Id.ofBytes id).toOption.map fun id => .signer id .empty
  | .snapshot .. => loaded.map Shown.outline

namespace View

/-- The events of a step, as far as can be told from outside. -/
def events (view : View) (held : Option Outline) : List Event :=
  match view.action with
  | .use use => held.elim [] fun o => o.events use view.ending
  | .create _ | .reload => view.loaded.elim [] Shown.events

/-- The outline of the material after a step, as far as can be told from outside. -/
def after (view : View) (held : Option Outline) : Option Outline :=
  match view.ending, view.action with
  | .done, .create origin => origin.outline? view.loaded
  | .done, .use use => held.map fun o => o.after use
  | _, _ => held

theorem after_of_ne_done {view : View} (h : view.ending ≠ .done) (held : Option Outline) :
    view.after held = held := by
  unfold after
  split
  · exact absurd ‹_› h
  · exact absurd ‹_› h
  · rfl

/-- What is seen of a step besides the snapshot that a reload writes. -/
def withoutWritten (view : View) : View :=
  { view with loaded := if view.action = .reload then none else view.loaded }

@[simp] theorem withoutWritten_ending (view : View) : view.withoutWritten.ending = view.ending := rfl

theorem eq_of_withoutWritten {view view' : View} (h : view.withoutWritten = view'.withoutWritten)
    (hloaded : view.action = .reload → view'.action = .reload → view.loaded = view'.loaded) :
    view = view' := by
  obtain ⟨name, action, ending, loaded⟩ := view
  obtain ⟨name', action', ending', loaded'⟩ := view'
  obtain rfl : name = name' := congrArg View.name h
  obtain rfl : action = action' := congrArg View.action h
  obtain rfl : ending = ending' := congrArg View.ending h
  have hseen := congrArg View.loaded h
  obtain rfl : loaded = loaded' := by
    by_cases haction : action = .reload
    · exact hloaded haction haction
    · exact (if_neg haction).symm.trans (hseen.trans (if_neg haction))
  rfl

end View

theorem Step.ending_ne_done (step : Step) (fault : StepFault) :
    step.ending (.error fault) ≠ .done := by
  cases fault with
  | use fault =>
    unfold ending
    cases step.action with
    | use u => exact fault.ending_ne_done u.frame
    | _ => simp
  | _ => simp [ending]

theorem Step.ending_eq_done_iff {step : Step} {outcome : Except StepFault Answer} :
    step.ending outcome = .done ↔ ∃ answer, outcome = .ok answer := by
  cases outcome with
  | ok answer => exact iff_of_true rfl ⟨answer, rfl⟩
  | error fault => exact iff_of_false (step.ending_ne_done fault) (by simp)

theorem Step.ending_of_use {step : Step} {u : Use} (haction : step.action = .use u)
    (outcome : Except UseFault Answer) : step.ending (outcome.mapError .use) = u.ending outcome := by
  cases outcome with
  | ok answer => rfl
  | error fault =>
    show (match step.action with | .use u => fault.ending u.frame | _ => Ending.failed) = _
    rw [haction]
    rfl

/-- **The events of a run, told from outside**, from the outlines at its start. -/
def told : (String → Option Outline) → List View → List (List Event)
  | _, [] => []
  | held, view :: rest =>
    view.events (held view.name) ::
      told (Function.update held view.name (view.after (held view.name))) rest

/-! ## New material -/

namespace Origin

theorem events_make (origin : Origin) (source : Bytes) :
    (origin.make source).1.events = origin.shown?.elim [] Shown.events := by
  have hdrawn : ∀ {κ : Type} (drawn : Option κ × Bytes) make,
      (ofDrawn drawn make).1.events = [] := by
    rintro κ ⟨key?, rest⟩ make
    cases key? <;> rfl
  cases origin with
  | sharedRandom => exact hdrawn _ _
  | signerRandom id controller => exact hdrawn _ _
  | snapshot route text => exact Snapshot.events_load route text
  | _ => rfl

/-- The outline of new material shows. -/
theorem outline?_of_make {origin : Origin} {source : Bytes} {m : Material}
    (h : (origin.make source).1.outcome = .ok m) :
    origin.withoutSecrets.outline? origin.shown? = some m.outline := by
  have hmakes := makes_of_make h
  cases origin with
  | sharedBytes | sharedPassword | sharedRandom =>
    obtain ⟨s, rfl⟩ := hmakes
    rfl
  | signerBytes | signerPassword | signerRandom =>
    obtain ⟨key, s, hs, rfl⟩ := hmakes
    obtain ⟨-, hid, -, hdirectory⟩ := SignerMaterial.ofKey_eq_ok_iff.1 hs
    show (Id.ofBytes _).toOption.map _ = some (Outline.signer s.id (SortedMap.keys s.directory))
    rw [Id.ofBytes_eq_ok_iff.2 hid, hdirectory]
    rfl
  | snapshot route text =>
    show (Snapshot.shown? route text).map Shown.outline = _
    rw [Snapshot.shown?_of_load hmakes]
    rfl

end Origin

namespace Session

/-! ## One step -/

theorem outline_of_material? {s : Session} {name : String} {m : Material}
    (h : s.material? name = some m) : s.outline name = some m.outline :=
  congrArg (Option.map Material.outline) h

theorem outline_congr {s s' : Session} (h : s'.materials = s.materials) :
    s'.outline = s.outline := by
  unfold outline material?
  rw [h]

theorem outline_of_insert {s s' : Session} {name : String} {m : Material}
    (h : s'.materials = s.materials.insert name m) :
    s'.outline = Function.update s.outline name (some m.outline) := by
  funext other
  rw [Function.update_apply]
  unfold outline material?
  rw [h, SortedMap.get?_insert]
  split <;> rfl

theorem events_create (s : Session) (name : String) (origin : Origin) :
    (s.create name origin).2.events = origin.shown?.elim [] Shown.events := by
  rw [← Origin.events_make origin s.source]
  unfold create
  dsimp only
  cases (origin.make s.source).1.outcome <;> rfl

/-- **The events of a step can be told from outside.** -/
theorem events_step (s : Session) (step : Step) :
    (s.step step).2.events = (s.view step).events (s.outline step.name) := by
  unfold View.events view loaded?
  cases haction : step.action with
  | create origin =>
    rw [step_create haction, events_create]
    rfl
  | reload =>
    cases hheld : s.material? step.name with
    | none =>
      rw [step_missing (by simp [haction]) hheld]
      rfl
    | some m =>
      rw [step_reload haction hheld, events_create]
      rfl
  | use u =>
    cases hheld : s.material? step.name with
    | none =>
      have houtline : s.outline step.name = none := congrArg (Option.map Material.outline) hheld
      rw [step_missing (by simp [haction]) hheld, houtline]
      rfl
    | some m =>
      rw [outline_of_material? hheld, step_use haction hheld, Report.outcome_mapError,
        Step.ending_of_use haction]
      exact m.events_step _ u

/-- What can be told of a step that is done. -/
theorem after_view {s : Session} {step : Step} (h : (s.view step).ending = .done)
    (held : Option Outline) :
    (s.view step).after held =
      match step.action with
      | .create origin => origin.withoutSecrets.outline? origin.shown?
      | .reload => held
      | .use u => held.map fun o => o.after u.withoutSecrets := by
  unfold View.after
  rw [h]
  unfold view loaded?
  cases step.action <;> rfl

/-- **The outlines after a step can be told from outside.** -/
theorem outline_step (s : Session) (step : Step) :
    (s.step step).1.outline =
      Function.update s.outline step.name ((s.view step).after (s.outline step.name)) := by
  -- a step puts one material under its name or leaves all as they are
  have hput : ∀ m, (s.step step).1.materials = s.materials.insert step.name m →
      (s.view step).after (s.outline step.name) = some m.outline →
      (s.step step).1.outline =
        Function.update s.outline step.name ((s.view step).after (s.outline step.name)) := by
    intro m hmaterials hafter
    rw [hafter, outline_of_insert hmaterials]
  have hkept : (s.step step).1.materials = s.materials →
      (s.view step).after (s.outline step.name) = s.outline step.name →
      (s.step step).1.outline =
        Function.update s.outline step.name ((s.view step).after (s.outline step.name)) := by
    intro hmaterials hafter
    rw [hafter, Function.update_eq_self, outline_congr hmaterials]
  have heffect := s.step_effect step
  have hending : (s.view step).ending = step.ending (s.step step).2.outcome := rfl
  generalize (s.step step).1.materials = materials at hkept hput heffect
  generalize (s.step step).2.outcome = outcome at heffect hending
  cases heffect with
  | refused fault =>
    exact hkept rfl (View.after_of_ne_done (hending ▸ step.ending_ne_done fault) _)
  | created action made =>
    refine hput _ rfl ?_
    rw [after_view hending, action]
    exact Origin.outline?_of_make made
  | reloaded action =>
    refine hkept rfl ?_
    rw [after_view hending, action]
  | asked answer action question =>
    refine hkept rfl ?_
    rw [after_view hending, action]
    dsimp only
    simp only [Outline.after_of_isQuestion question]
    exact Option.map_id'
  | changed action held change =>
    refine hput _ rfl ?_
    rw [after_view hending, action, outline_of_material? held]
    exact congrArg some change.outline.symm

/-! ## Reloads -/

/-- What shows of sound material that is written for a reload. -/
theorem shown?_of_reload {s : Session} {step : Step} {m : Material} (hm : m.Sound)
    (haction : step.action = .reload) (hheld : s.material? step.name = some m) :
    Snapshot.shown? .text (Snapshot.write m) =
      some ⟨m.outline, if (s.view step).ending = .done then none else some .ownKey⟩ := by
  have hdone : (s.view step).ending = .done ↔ m.Loadable :=
    Step.ending_eq_done_iff.trans (reload_done_iff haction hheld)
  simp only [hdone]
  cases m with
  | shared m => exact Snapshot.shown?_write_shared .text m
  | signer m =>
    have hload := hm m rfl
    rw [if_pos hload]
    exact Snapshot.shown?_write_of_loadable hload .text

/-- **What shows of a reload can be told from its end**, if all material is sound: only a command key of
zeros can keep what is written from being loaded. -/
theorem loaded?_of_reload {s : Session} {step : Step} (hs : s.Sound)
    (haction : step.action = .reload) :
    s.loaded? step = (s.outline step.name).map fun outline =>
      ⟨outline, if (s.view step).ending = .done then none else some .ownKey⟩ := by
  have hloaded : s.loaded? step =
      (s.material? step.name).bind fun m => Snapshot.shown? .text (Snapshot.write m) := by
    unfold loaded?
    rw [haction]
  rw [hloaded]
  unfold outline
  cases hheld : s.material? step.name with
  | none => rfl
  | some m => exact shown?_of_reload (hs _ m hheld) haction hheld

theorem view_congr {s s' : Session} {step step' : Step} (hs : s.Sound) (hs' : s'.Sound)
    (houtline : s.outline = s'.outline)
    (h : (s.view step).withoutWritten = (s'.view step').withoutWritten) :
    s.view step = s'.view step' := by
  refine View.eq_of_withoutWritten h fun haction haction' => ?_
  have hname : step.name = step'.name := congrArg View.name h
  have hending : (s.view step).ending = (s'.view step').ending := by
    simpa using congrArg View.ending h
  show s.loaded? step = s'.loaded? step'
  rw [loaded?_of_reload hs (Action.withoutSecrets_eq_reload_iff.1 haction),
    loaded?_of_reload hs' (Action.withoutSecrets_eq_reload_iff.1 haction'), houtline, hname, hending]

/-! ## Runs -/

/-- **Of a reload it is enough to see how it ends**: two runs of sound sessions that start with the
same outlines and look alike but for what reloads write look alike. -/
theorem views_eq_of_sound {s s' : Session} {steps steps' : List Step} (hs : s.Sound)
    (hs' : s'.Sound) (houtline : s.outline = s'.outline)
    (h : (s.views steps).map View.withoutWritten = (s'.views steps').map View.withoutWritten) :
    s.views steps = s'.views steps' := by
  -- soundness is kept by each step, and what shows of a step tells the outlines after it
  induction steps generalizing s s' steps' with
  | nil =>
    cases steps' with
    | nil => rfl
    | cons step' rest' => exact absurd h (List.cons_ne_nil _ _).symm
  | cons step rest ih =>
    cases steps' with
    | nil => exact absurd h (List.cons_ne_nil _ _)
    | cons step' rest' =>
      obtain ⟨hfirst, hrest⟩ := List.cons.inj h
      have hname : step.name = step'.name := congrArg View.name hfirst
      have hview := view_congr hs hs' houtline hfirst
      have hafter : (s.step step).1.outline = (s'.step step').1.outline := by
        rw [outline_step, outline_step, hview, houtline, hname]
      exact List.cons_eq_cons.2 ⟨hview, ih (hs.step step) (hs'.step step') hafter hrest⟩

/-- **The events of a run can be told from outside.** -/
theorem events_eq_told (s : Session) (steps : List Step) :
    s.events steps = told s.outline (s.views steps) := by
  induction steps generalizing s with
  | nil => rfl
  | cons step rest ih =>
    have hrest := ih (s.step step).1
    rw [outline_step] at hrest
    show (s.step step).2.events :: (s.step step).1.events rest = _
    rw [events_step, hrest]
    rfl

/-- **The events of a run reveal no secret.** Let two runs look alike from outside: the materials at
the start have the same outlines, and step by step the same is done under the same name and with the
same identifiers; it ends alike, with the same stamp if a frame is refused for its time stamp and the
same signer if he is unknown; and of a snapshot that is loaded the same can be read: its kind, the
identifiers in it, and what loading it fails at. Then the events are the same, step by step, however
the keys, passwords, frames and payloads differ. Of what a reload writes nothing has to be read if all
material is sound, as it is in every session that started with none (`views_eq_of_sound`). -/
theorem events_reveal_no_secret (s s' : Session) (steps steps' : List Step)
    (hstart : ∀ name, s.outline name = s'.outline name)
    (hviews : s.views steps = s'.views steps') : s.events steps = s'.events steps' := by
  rw [events_eq_told, events_eq_told, hviews, funext hstart]

/-- A signer registers a key twice, is sent a frame from the future, and loses the key; a command key
is replaced, and then a snapshot with a key of one byte is not loaded. What differs is made of the
given character and its code. -/
def watchedSteps (secret : Char) : List Step :=
  let bytes := fun n => List.replicate n (UInt8.ofNat secret.toNat)
  [⟨"signer", none, some (bytes 32), .create (.signerRandom (List.replicate 16 1) (bytes 32))⟩,
   ⟨"signer", none, none, .use (.addPublicKey (List.replicate 16 3) (bytes 32))⟩,
   ⟨"signer", none, none, .use (.addPublicKey (List.replicate 16 3) (List.replicate 32 1))⟩,
   ⟨"signer", none, none, .use (.unprotect (Frame.stampBytes 1 ++ bytes 17) (bytes 1))⟩,
   ⟨"signer", none, none, .use .clearPublicKeys⟩,
   ⟨"shared", none, none, .create (.sharedBytes (bytes 32))⟩,
   ⟨"shared", none, none, .use (.setKey (List.replicate 32 1))⟩,
   ⟨"shared", none, none,
      .create (.snapshot .text ("[0,[\"" ++ String.ofList [secret, secret] ++ "\"]]"))⟩]

theorem events_reveal_no_secret_watched :
    (start .epoch).views (watchedSteps '5') = (start .epoch).views (watchedSteps '6') ∧
      (start .epoch).events (watchedSteps '5') = (start .epoch).events (watchedSteps '6') ∧
      ((start .epoch).events (watchedSteps '5')).map List.length = [0, 1, 1, 1, 1, 0, 1, 0] := by
  have hviews :
      (start .epoch).views (watchedSteps '5') = (start .epoch).views (watchedSteps '6') := by
    decide +kernel
  exact ⟨hviews, events_reveal_no_secret _ _ _ _ (fun _ => rfl) hviews, by decide +kernel⟩

end Session

end SealedMessaging
