import SealedMessaging.Proofs.Session.Steps

/-!
# Reloading cannot be observed

All material that a session can come by passes the checks of loading, unless it is shared material
with a command key of zeros, which only a password or random bytes could give.

* `Material.Sound`, `Session.Sound`: what holds of the material of every session.
* `Session.sound_after`: it is kept by every step.
* `Session.reload_done_iff`: how a reload ends.
* `Session.reload_unobservable`: snapshots round-trip, and a reload changes nothing that follows.
-/

namespace SealedMessaging

/-- **What holds of all material of a session**: a signer's passes the checks of loading. -/
def Material.Sound (m : Material) : Prop :=
  ∀ s, m = .signer s → m.Loadable

theorem Material.sound_signer {s : SignerMaterial} (hcontroller : s.controller.toList.isZero = false)
    (hdirectory : ∀ e ∈ s.directory.entries, e.2.toBytes.isZero = false) :
    (Material.signer s).Sound :=
  fun _ _ => ⟨hcontroller, hdirectory⟩

theorem Material.sound_shared (s : SharedMaterial) : (Material.shared s).Sound :=
  fun _ h => absurd h (by simp)

/-! ## New material is sound -/

theorem SignerMaterial.sound_ofKey {id controller : Bytes} {key : SecretKey} {m : SignerMaterial}
    (h : ofKey id key controller = .ok m) : (Material.signer m).Sound := by
  obtain ⟨-, -, ⟨rfl, hzero⟩, hdirectory⟩ := ofKey_eq_ok_iff.1 h
  refine Material.sound_signer hzero ?_
  rw [hdirectory]
  intro e he
  exact absurd he List.not_mem_nil

namespace Snapshot

/-- What is loaded on any way is the material of some envelope. -/
theorem exists_decode_of_load {route : Route} {text : String} {m : Material}
    (h : (load route text).outcome = .ok m) : ∃ envelope, (decode envelope).outcome = .ok m := by
  obtain ⟨envelope, -, hm⟩ := outcome_load_eq_ok_iff.1 h
  exact ⟨envelope, hm⟩

theorem sound_decodeSigner {v : Json.Value} {m : SignerMaterial}
    (h : (decodeSigner v).outcome = .ok m) : (Material.signer m).Sound := by
  obtain ⟨data, -, -, -, ⟨-, hzero⟩, keys, hkeys, hdirectory⟩ := outcome_decodeSigner_eq_ok_iff.1 h
  refine Material.sound_signer hzero ?_
  rw [hdirectory]
  intro e he
  rcases SortedMap.mem_insertAll he with hmem | hmem
  · exact absurd hmem List.not_mem_nil
  · obtain ⟨text, -, hspells⟩ := hkeys.exists_of_mem_right hmem
    exact hspells.2.2

theorem sound_load {route : Route} {text : String} {m : Material}
    (h : (load route text).outcome = .ok m) : m.Sound := by
  obtain ⟨envelope, hm⟩ := exists_decode_of_load h
  rcases outcome_decode_cases hm with ⟨s, rfl⟩ | ⟨s, rfl, hsigner⟩
  · exact Material.sound_shared s
  · exact sound_decodeSigner hsigner

end Snapshot

namespace Origin

/-- **New material is sound**, wherever it comes from. -/
theorem sound_make {origin : Origin} {source : Bytes} {m : Material}
    (h : (origin.make source).1.outcome = .ok m) : m.Sound := by
  have hmakes := makes_of_make h
  cases origin with
  | sharedBytes | sharedPassword | sharedRandom =>
    obtain ⟨s, rfl⟩ := hmakes
    exact Material.sound_shared s
  | signerBytes | signerPassword | signerRandom =>
    obtain ⟨key, s, hs, rfl⟩ := hmakes
    exact SignerMaterial.sound_ofKey hs
  | snapshot route text => exact Snapshot.sound_load hmakes

end Origin

/-! ## Soundness is kept -/

/-- A change keeps material sound. -/
theorem Change.sound {m m' : Material} {use : Use} (h : Change m use m') (hm : m.Sound) :
    m'.Sound := by
  cases h with
  | commandKey accepted => exact Material.sound_shared _
  | privateKey accepted =>
    obtain ⟨hcontroller, hdirectory⟩ := hm _ rfl
    exact Material.sound_signer hcontroller hdirectory
  | addition acceptedId acceptedKey =>
    obtain ⟨hcontroller, hdirectory⟩ := hm _ rfl
    obtain ⟨rfl, hzero⟩ := PublicKey.ofBytes_eq_ok_iff.1 acceptedKey
    refine Material.sound_signer hcontroller fun e he => ?_
    rcases mem_insertEntry he with rfl | hold
    · exact hzero
    · exact hdirectory e hold
  | removal accepted known =>
    obtain ⟨hcontroller, hdirectory⟩ := hm _ rfl
    exact Material.sound_signer hcontroller fun e he => hdirectory e (List.mem_of_mem_filter he)
  | clearing =>
    obtain ⟨hcontroller, -⟩ := hm _ rfl
    exact Material.sound_signer hcontroller fun e he => absurd he List.not_mem_nil

namespace Session

/-- All material of the session is sound. -/
def Sound (s : Session) : Prop :=
  ∀ name m, s.material? name = some m → m.Sound

theorem sound_start (clock : Instant) : (start clock).Sound :=
  fun name m h => absurd (material?_start clock name ▸ h) (by simp)

theorem Sound.of_insert {s s' : Session} {name : String} {m : Material} (hs : s.Sound)
    (hm : m.Sound) (h : s'.materials = s.materials.insert name m) : s'.Sound := by
  intro name' m' hm'
  unfold material? at hm'
  rw [h, SortedMap.get?_insert] at hm'
  split at hm'
  · exact Option.some.inj hm' ▸ hm
  · exact hs name' m' hm'

theorem Sound.step {s : Session} (hs : s.Sound) (step : Step) : (s.step step).1.Sound := by
  -- only the two effects that put material in have to be looked at
  have hsame : (s.step step).1.materials = s.materials → (s.step step).1.Sound := by
    intro h name m hm
    unfold material? at hm
    rw [h] at hm
    exact hs name m hm
  generalize hmaterials : (s.step step).1.materials = materials at hsame
  have heffect := s.step_effect step
  generalize (s.step step).2.outcome = outcome at heffect
  rw [hmaterials] at heffect
  cases heffect with
  | refused => exact hsame rfl
  | created action made => exact hs.of_insert (Origin.sound_make made) hmaterials
  | reloaded action => exact hsame rfl
  | asked answer action question => exact hsame rfl
  | changed action held change => exact hs.of_insert (change.sound (hs _ _ held)) hmaterials

/-- **All material stays sound** over all steps. -/
theorem sound_after {s : Session} (hs : s.Sound) (steps : List Step) : (s.after steps).Sound := by
  induction steps generalizing s with
  | nil => exact hs
  | cons step rest ih => exact ih (hs.step step)

/-! ## How a reload ends -/

/-- **A reload is done** if the material passes the checks of loading. -/
theorem reload_done_iff {s : Session} {step : Step} {m : Material} (haction : step.action = .reload)
    (hheld : s.material? step.name = some m) :
    (∃ answer, (s.step step).2.outcome = .ok answer) ↔ m.Loadable := by
  rw [step_reload haction hheld]
  rcases create_cases (s.prepare step) step.name (.snapshot .text (Snapshot.write m)) with
    ⟨m', hmade, -, hdone⟩ | ⟨fault, hmade, -, hfault⟩
  · have hload : (Snapshot.load .text (Snapshot.write m)).outcome = .ok m' :=
      Except.mapError_eq_ok_iff.1 hmade
    exact iff_of_true ⟨_, hdone⟩ (Snapshot.outcome_load_write.1 hload).1
  · refine iff_of_false (by simp [hfault]) fun hloadable => ?_
    have hload : ((Origin.snapshot .text (Snapshot.write m)).make
        (s.prepare step).source).1.outcome = .ok m :=
      Except.mapError_eq_ok_iff.2 (Snapshot.outcome_load_write.2 ⟨hloadable, rfl⟩)
    exact absurd (hmade.symm.trans hload) (by simp)

/-! ## A reload changes nothing -/

/-- A reload of a name, with no other news. -/
def reloadStep (name : String) : Step := ⟨name, none, none, .reload⟩

theorem step_reloadStep (s : Session) (name : String) : (s.step (reloadStep name)).1 = s := by
  cases hheld : s.material? name with
  | none =>
    rw [step_missing (by simp [reloadStep]) hheld]
    rfl
  | some m =>
    rw [step_reload rfl hheld]
    exact create_written hheld .text

/-- A step that leaves the session as it is can be left out. -/
theorem eraseIdx_run {s : Session} {before rest : List Step} {step : Step}
    (h : ((s.after before).step step).1 = s.after before) :
    (s.run (before ++ step :: rest)).eraseIdx before.length = s.run (before ++ rest) := by
  have hlen := length_run s before
  rw [run_append, run_append, List.eraseIdx_append_of_length_le (Nat.le_of_eq hlen), hlen,
    Nat.sub_self]
  show s.run before ++ (((s.after before).step step).1).run rest = _
  rw [h]

/-- **Snapshots round-trip, and a reload is unobservable.** What is written for material that a
session comes to hold loads as this material on each way, unless it is shared material with a
command key of zeros. A reload of any name, put in anywhere in a run, changes no other report and no
state. -/
theorem reload_unobservable (clock : Instant) (steps : List Step) (name : String) (m : Material)
    (hheld : ((start clock).after steps).material? name = some m)
    (hkey : ∀ s, m = .shared s → ∃ b ∈ s.key.toBytes, b ≠ 0) :
    (∀ route, (Snapshot.load route (Snapshot.write m)).outcome = .ok m) ∧
      ∀ (further rest : List Step) (reloaded : String),
        ((start clock).run (steps ++ further ++ reloadStep reloaded :: rest)).eraseIdx
          (steps ++ further).length = (start clock).run (steps ++ further ++ rest) := by
  -- zeros in the key of shared material are the one thing that soundness does not exclude
  have hload : m.Loadable := by
    cases hm : m with
    | shared s => exact Bytes.isZero_eq_false_iff.2 (hkey s hm)
    | signer s =>
      have hsound := sound_after (sound_start clock) steps name m hheld
      exact hm ▸ hsound s hm
  refine ⟨fun route => Snapshot.outcome_load_write.2 ⟨hload, rfl⟩, fun further rest reloaded => ?_⟩
  exact eraseIdx_run (step_reloadStep _ reloaded)

/-- A signer made of random bytes, who registers a public key. -/
def registeringSteps : List Step :=
  [⟨"client", none, some (List.replicate 32 5),
      .create (.signerRandom (List.replicate 16 1) (List.replicate 32 2))⟩,
   ⟨"client", none, none, .use (.addPublicKey (List.replicate 16 3) (List.replicate 32 4))⟩]

/-- The signer is reloaded between a rotation that is refused and the loss of the public key. -/
theorem reload_unobservable_registering :
    ∃ m, ((start .epoch).after registeringSteps).material? "client" = some m ∧
      (∀ route, (Snapshot.load route (Snapshot.write m)).outcome = .ok m) ∧
      ((start .epoch).run (registeringSteps ++ [⟨"client", none, none, .use (.setKey [])⟩] ++
          reloadStep "client" :: [⟨"client", none, none, .use .clearPublicKeys⟩])).eraseIdx 3 =
        (start .epoch).run (registeringSteps ++ [⟨"client", none, none, .use (.setKey [])⟩] ++
          [⟨"client", none, none, .use .clearPublicKeys⟩]) := by
  have hheld : ((start .epoch).after registeringSteps).material? "client" =
      some (.signer ⟨⟨⟨List.replicate 16 1, rfl⟩⟩, ⟨⟨List.replicate 32 5, rfl⟩⟩,
        ⟨List.replicate 32 2, rfl⟩,
        SortedMap.insert .empty ⟨⟨List.replicate 16 3, rfl⟩⟩ ⟨⟨List.replicate 32 4, rfl⟩⟩⟩) := by
    decide +kernel
  obtain ⟨hload, hrun⟩ := reload_unobservable .epoch registeringSteps "client" _ hheld
    (fun s hs => absurd hs (by simp))
  exact ⟨_, hheld, hload, hrun _ _ "client"⟩

end Session

end SealedMessaging
