import SealedMessaging.Proofs.Frame
import SealedMessaging.Proofs.Session.History
import SealedMessaging.Proofs.Session.Reload

/-!
# Command keys of shared material

All ways to come by a command key check it, but for one: random bytes are taken as they are. So the
key of shared material passes its check unless it was drawn as zeros and not replaced since. With a
key of zeros the material is written, but does not load again, and opens no command.

* `Origin.isZeroCommand_make`: where a command key of zeros comes from.
* `Session.DrawnAsZeros`: the key accepted last was drawn as zeros.
* `Session.command_key_passes_iff`: what holds of the command key after any steps.
-/

namespace SealedMessaging

/-- Whether a key is a command key of zeros. -/
def HeldKey.isZeroCommand : HeldKey → Bool
  | .command key => key.toBytes.isZero
  | .signing _ => false

theorem SymmetricKey.isZero_toBytes_iff {key : SymmetricKey} :
    key.toBytes.isZero = true ↔ key = ⟨.zero 32⟩ := by
  constructor
  · intro h
    exact congrArg mk (Octets.eq_zero_of_isZero h)
  · rintro rfl
    decide

/-! ## What a command key is good for -/

theorem SymmetricKey.check_eq_ok_iff {key : SymmetricKey} :
    Subject.symmetricKey.check key.toBytes = .ok () ↔ key.toBytes.isZero = false := by
  have hpasses : key.toBytes.isZero = false ↔
      ∃ octets : Octets 32, nonzeroOctetsOf .symmetricKey 32 key.toBytes = .ok octets := by
    have hlen : key.toBytes.length = 32 := key.octets.length_toList
    rw [exists_nonzeroOctetsOf_iff, and_iff_right hlen]
  rw [hpasses]
  show discard (nonzeroOctetsOf .symmetricKey 32 key.toBytes) = .ok () ↔ _
  cases nonzeroOctetsOf .symmetricKey 32 key.toBytes with
  | error fault => exact ⟨nofun, fun ⟨_, h⟩ => nomatch h⟩
  | ok octets => exact ⟨fun _ => ⟨octets, rfl⟩, fun _ => rfl⟩

/-- At the epoch a frame of zeros gets as far as the check of the key. -/
theorem Frame.outcome_unprotect_zeros (key : Bytes) :
    (unprotect .epoch (List.replicate 25 0) key).outcome =
      unsealBytes key (List.replicate 8 0) (List.replicate 17 0) := rfl

theorem SharedMaterial.unprotectCommand_ne_input_iff {m : SharedMaterial} :
    (∀ now frame fault, (m.unprotectCommand now frame).outcome ≠ .error (.crypto (.input fault))) ↔
      m.key.toBytes.isZero = false := by
  constructor
  · intro h
    by_contra hzero
    rw [Bool.not_eq_false, SymmetricKey.isZero_toBytes_iff] at hzero
    refine h .epoch (List.replicate 25 0) (.allZero .symmetricKey) ?_
    rw [unprotectCommand, Report.outcome_mapError, Frame.outcome_unprotect_zeros, hzero]
    rfl
  · intro hzero now frame fault h
    have hkey : (Frame.unprotect now frame m.key.toBytes).outcome ≠ .error (.input fault) :=
      Frame.outcome_unprotect_ne_input ⟨m.key.octets.length_toList, hzero⟩ fault
    rw [unprotectCommand, Report.outcome_mapError] at h
    cases hopened : (Frame.unprotect now frame m.key.toBytes).outcome with
    | error fault' =>
      rw [hopened] at h
      obtain rfl := MaterialFault.crypto.inj (Except.error.inj h)
      exact hkey hopened
    | ok payload =>
      rw [hopened] at h
      exact absurd h nofun

/-! ## Where a command key comes from -/

/-- A key that is set is checked. -/
theorem Material.isZeroCommand_keyOf {m : Material} {bs : Bytes} {key : HeldKey}
    (h : m.keyOf bs = .ok key) : key.isZeroCommand = false := by
  cases m with
  | shared m =>
    obtain ⟨k, hk, rfl⟩ := Except.map_eq_ok_iff.1 h
    obtain ⟨rfl, hzero⟩ := SymmetricKey.ofBytes_eq_ok_iff.1 hk
    exact hzero
  | signer m =>
    obtain ⟨k, -, rfl⟩ := Except.map_eq_ok_iff.1 h
    rfl

namespace SharedMaterial

variable {m : SharedMaterial}

theorem isZero_ofBytes {bs : Bytes} (h : ofBytes bs = .ok m) : m.key.toBytes.isZero = false := by
  obtain ⟨key, hkey, rfl⟩ := Except.map_eq_ok_iff.1 (Except.mapError_eq_ok_iff.1 h)
  obtain ⟨rfl, hzero⟩ := SymmetricKey.ofBytes_eq_ok_iff.1 hkey
  exact hzero

theorem isZero_ofPassword {password : String} (h : ofPassword password = .ok m) :
    m.key.toBytes.isZero = false := by
  obtain ⟨key, hkey, rfl⟩ := Except.map_eq_ok_iff.1 (Except.mapError_eq_ok_iff.1 h)
  obtain ⟨derived, -, hderived⟩ := Except.bind_eq_ok_iff.1 hkey
  obtain ⟨hbytes, hzero⟩ := SymmetricKey.ofBytes_eq_ok_iff.1 hderived
  rw [hbytes]
  exact hzero

end SharedMaterial

theorem Snapshot.isZeroCommand_load {route : Route} {text : String} {m : Material}
    (h : (load route text).outcome = .ok m) : m.heldKey.isZeroCommand = false := by
  obtain ⟨envelope, hm⟩ := exists_decode_of_load h
  obtain ⟨-, hdata⟩ := outcome_decode_eq_ok_iff.1 hm
  cases m with
  | shared s =>
    obtain ⟨text, -, -, hzero⟩ := decodeShared_eq_ok_iff.1 hdata
    exact hzero
  | signer s => rfl

/-- **A command key of zeros comes from random bytes only**, which are those zeros. -/
theorem Origin.isZeroCommand_make {origin : Origin} {source : Bytes} {m : Material}
    (h : (origin.make source).1.outcome = .ok m) :
    m.heldKey.isZeroCommand = true ↔
      origin = .sharedRandom ∧ (SymmetricKey.draw source).1 = some ⟨.zero 32⟩ := by
  -- any other origin gives no such key
  have hother : origin ≠ .sharedRandom → m.heldKey.isZeroCommand = false →
      (m.heldKey.isZeroCommand = true ↔
        origin = .sharedRandom ∧ (SymmetricKey.draw source).1 = some ⟨.zero 32⟩) := by
    intro hne hfalse
    rw [hfalse]
    exact ⟨fun h => absurd h (by simp), fun h => absurd h.1 hne⟩
  have hsigner : ∀ {x : Except MaterialFault SignerMaterial}, x.map .signer = .ok m →
      m.heldKey.isZeroCommand = false := by
    intro x hx
    obtain ⟨s, -, rfl⟩ := Except.map_eq_ok_iff.1 hx
    rfl
  cases origin with
  | sharedBytes key =>
    obtain ⟨s, hs, rfl⟩ := Except.map_eq_ok_iff.1 (outcome_plainly_eq_ok_iff.1 h)
    exact hother (by simp) (SharedMaterial.isZero_ofBytes hs)
  | sharedPassword password =>
    obtain ⟨s, hs, rfl⟩ := Except.map_eq_ok_iff.1 (outcome_plainly_eq_ok_iff.1 h)
    exact hother (by simp) (SharedMaterial.isZero_ofPassword hs)
  | sharedRandom =>
    change (ofDrawn (SymmetricKey.draw source) _).1.outcome = _ at h
    generalize SymmetricKey.draw source = drawn at h ⊢
    obtain ⟨key?, rest⟩ := drawn
    cases key? with
    | none => exact absurd h (by simp [ofDrawn])
    | some key =>
      obtain rfl := Except.ok.inj (outcome_plainly_eq_ok_iff.1 h)
      rw [eq_self, true_and, Option.some_inj]
      exact SymmetricKey.isZero_toBytes_iff
  | signerBytes id key controller =>
    exact hother (by simp) (hsigner (outcome_plainly_eq_ok_iff.1 h))
  | signerPassword id password controller =>
    exact hother (by simp) (hsigner (outcome_plainly_eq_ok_iff.1 h))
  | signerRandom id controller =>
    obtain ⟨key, hkey⟩ := exists_of_ofDrawn h
    exact hother (by simp) (hsigner hkey)
  | snapshot route text =>
    exact hother (by simp) (Snapshot.isZeroCommand_load (Except.mapError_eq_ok_iff.1 h))

namespace Session

/-! ## Keys drawn as zeros -/

/-- The step makes shared material of random bytes, and those are all zero. -/
def DrawsZeros (s : Session) (step : Step) : Prop :=
  step.action = .create .sharedRandom ∧
    (SymmetricKey.draw (s.prepare step).source).1 = some ⟨.zero 32⟩

instance (s : Session) (step : Step) : Decidable (s.DrawsZeros step) :=
  inferInstanceAs (Decidable (_ ∧ _))

/-- Whether the key that is accepted in a step is drawn as zeros, if one is accepted. -/
def acceptsZeros? (s : Session) (step : Step) : Option Bool :=
  (s.acceptedKey? step).map fun _ => decide (s.DrawsZeros step)

/-- **The key accepted last for a name was drawn as zeros.** -/
def DrawnAsZeros (name : String) (s : Session) (steps : List Step) : Prop :=
  last? acceptsZeros? name s steps = some true

instance (name : String) (s : Session) (steps : List Step) :
    Decidable (DrawnAsZeros name s steps) :=
  inferInstanceAs (Decidable (_ = _))

/-- Of the keys that are accepted, those drawn as zeros are the command keys of zeros. -/
theorem acceptsZeros?_eq (s : Session) (step : Step) :
    s.acceptsZeros? step = (s.acceptedKey? step).map HeldKey.isZeroCommand := by
  refine Option.map_congr fun key hkey => ?_
  rw [Bool.eq_iff_iff, decide_eq_true_iff]
  by_cases hset : ∃ bs, step.action = .use (.setKey bs)
  · -- a key that is set is neither
    obtain ⟨bs, haction⟩ := hset
    rw [acceptedKey?_of_setKey haction] at hkey
    obtain ⟨m, -, hm⟩ := Option.bind_eq_some_iff.1 hkey
    rw [Material.isZeroCommand_keyOf (Except.eq_ok_of_toOption hm)]
    exact ⟨fun h => absurd (haction.symm.trans h.1) (by simp), fun h => absurd h (by simp)⟩
  · rw [acceptedKey?_of_ne fun bs h => hset ⟨bs, h⟩] at hkey
    obtain ⟨m, hmade, rfl⟩ := Option.map_eq_some_iff.1 hkey
    obtain ⟨origin, haction, hm⟩ := exists_make_of_made? hmade
    rw [Origin.isZeroCommand_make hm, DrawsZeros, haction, Action.create.injEq]

/-- What is made of the last that is given is the last that is made of it. -/
theorem last?_map {α β : Type} (given? : Session → Step → Option α) (f : α → β) (name : String)
    (s : Session) (steps : List Step) :
    last? (fun s step => (given? s step).map f) name s steps =
      (last? given? name s steps).map f := by
  induction steps generalizing s with
  | nil => rfl
  | cons step rest ih =>
    rw [last?, last?, ih, Option.map_or]
    congr 1
    split <;> rfl

/-- **Shared material has a key of zeros when that was drawn for it** and not replaced since. -/
theorem isZero_iff_drawnAsZeros {clock : Instant} {steps : List Step} {name : String}
    {m : SharedMaterial} (hheld : ((start clock).after steps).material? name = some (.shared m)) :
    m.key.toBytes.isZero = true ↔ DrawnAsZeros name (start clock) steps := by
  have hkey := heldKey_after (start clock) steps name
  rw [hheld, material?_start, Option.map_none, Option.or_none, Option.map_some] at hkey
  have haccepts : acceptsZeros? = fun s step => (s.acceptedKey? step).map HeldKey.isZeroCommand :=
    funext₂ acceptsZeros?_eq
  rw [DrawnAsZeros, haccepts, last?_map, ← hkey, Option.map_some, Option.some_inj]
  rfl

/-- **The command key of shared material**, after any steps, passes its check unless it was drawn as
zeros and not replaced since. The same decides whether what is written for the material loads again,
on each way, and whether there is a frame whose opening as a command fails for a check of the key. -/
theorem command_key_passes_iff (clock : Instant) (steps : List Step) (name : String)
    (m : SharedMaterial)
    (hheld : ((start clock).after steps).material? name = some (.shared m)) :
    (Subject.symmetricKey.check m.key.toBytes = .ok () ↔ ¬ DrawnAsZeros name (start clock) steps) ∧
      (∀ route, (Snapshot.load route (Snapshot.write (.shared m))).outcome = .ok (.shared m) ↔
        ¬ DrawnAsZeros name (start clock) steps) ∧
      ((∀ now frame fault,
          (m.unprotectCommand now frame).outcome ≠ .error (.crypto (.input fault))) ↔
        ¬ DrawnAsZeros name (start clock) steps) := by
  have hzero : m.key.toBytes.isZero = false ↔ ¬ DrawnAsZeros name (start clock) steps := by
    rw [← isZero_iff_drawnAsZeros hheld, Bool.not_eq_true]
  refine ⟨SymmetricKey.check_eq_ok_iff.trans hzero, fun route => ?_,
    SharedMaterial.unprotectCommand_ne_input_iff.trans hzero⟩
  rw [Snapshot.outcome_load_write, and_iff_left rfl]
  exact hzero

/-- Shared material is made of random bytes that are all zero. -/
def zeroDraw : Step :=
  ⟨"client", none, some (List.replicate 32 0), .create .sharedRandom⟩

/-- The zeros that were drawn are replaced by ones. -/
def replacedSteps : List Step :=
  [zeroDraw, ⟨"client", none, none, .use (.setKey (List.replicate 32 1))⟩]

theorem command_key_passes_replaced :
    ∃ m, ((start .epoch).after replacedSteps).material? "client" = some (.shared m) ∧
      Subject.symmetricKey.check m.key.toBytes = .ok () ∧
      ∀ route, (Snapshot.load route (Snapshot.write (.shared m))).outcome = .ok (.shared m) := by
  have hheld : ((start .epoch).after replacedSteps).material? "client" =
      some (.shared ⟨⟨⟨List.replicate 32 1, rfl⟩⟩⟩) := by
    decide +kernel
  have hdrawn : ¬ DrawnAsZeros "client" (start .epoch) replacedSteps := by
    decide +kernel
  obtain ⟨hcheck, hload, -⟩ := command_key_passes_iff .epoch replacedSteps "client" _ hheld
  exact ⟨_, hheld, hcheck.2 hdrawn, fun route => (hload route).2 hdrawn⟩

/-- **A command key can be all zeros**: where the random bytes are, it does not pass its check, its
material is not loaded again, and a frame of zeros is refused for the key. -/
theorem command_key_zeros_drawn :
    ((start .epoch).after [zeroDraw]).material? "client" = some (.shared ⟨⟨.zero 32⟩⟩) ∧
      Subject.symmetricKey.check (SymmetricKey.toBytes ⟨.zero 32⟩) =
        .error (.allZero .symmetricKey) ∧
      (((start .epoch).after [zeroDraw]).step (reloadStep "client")).2.outcome =
        .error (.origin (.load (.snapshot (.material (.crypto
          (.input (.allZero .symmetricKey))))))) ∧
      (SharedMaterial.unprotectCommand ⟨⟨.zero 32⟩⟩ .epoch (List.replicate 25 0)).outcome =
        .error (.crypto (.input (.allZero .symmetricKey))) := by
  refine ⟨by decide +kernel, by decide, by decide +kernel, ?_⟩
  rw [SharedMaterial.unprotectCommand, Report.outcome_mapError, Frame.outcome_unprotect_zeros]
  rfl

end Session

end SealedMessaging
