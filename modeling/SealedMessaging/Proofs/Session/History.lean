import SealedMessaging.Proofs.Session.Steps

/-!
# What runs leave alone

Material has three parts: what it is made as, the key it holds, and the directory of a signer. Only
making or loading it settles the first; the key is the one accepted last.

* `Material.identity`, `Material.heldKey`, `Material.directory?`: the parts.
* `Session.Kept`: what a step does not change.
* `Session.last?`: the last of what the steps of a run give to the material of a name.
* `Session.run_keeps`: all steps of a run keep what they should, and what there is in the end.
-/

namespace SealedMessaging

/-! ## The parts of material -/

/-- What material is made as, and stays. -/
inductive Identity where
  | shared
  | signer (id : Id) (controller : Octets 32)
  deriving DecidableEq

/-- The key that material holds. -/
inductive HeldKey where
  | command (key : SymmetricKey)
  | signing (key : SecretKey)
  deriving DecidableEq

namespace Material

/-- What material was made as. -/
def identity : Material → Identity
  | .shared _ => .shared
  | .signer m => .signer m.id m.controller

/-- The key that material holds now. -/
def heldKey : Material → HeldKey
  | .shared m => .command m.key
  | .signer m => .signing m.key

/-- The public keys that material holds; shared material has no directory. -/
def directory? : Material → Option Directory
  | .shared _ => none
  | .signer m => some m.directory

/-- The key that bytes are for material of this kind. -/
def keyOf (m : Material) (bs : Bytes) : Except CryptoFault HeldKey :=
  match m with
  | .shared _ => (SymmetricKey.ofBytes bs).map .command
  | .signer _ => (SecretKey.ofBytes bs).map .signing

/-- **There is nothing to material but its parts.** -/
theorem eq_of_parts {m m' : Material} (hidentity : m.identity = m'.identity)
    (hkey : m.heldKey = m'.heldKey) (hdirectory : m.directory? = m'.directory?) : m = m' := by
  cases m with
  | shared m =>
    cases m' with
    | shared m' =>
      obtain ⟨key⟩ := m
      obtain ⟨key'⟩ := m'
      exact congrArg (fun key => Material.shared ⟨key⟩) (HeldKey.command.inj hkey)
    | signer m' => exact absurd hidentity (by simp [identity])
  | signer m =>
    cases m' with
    | shared m' => exact absurd hidentity (by simp [identity])
    | signer m' =>
      obtain ⟨id, key, controller, directory⟩ := m
      obtain ⟨id', key', controller', directory'⟩ := m'
      obtain ⟨rfl, rfl⟩ := Identity.signer.inj hidentity
      obtain rfl := HeldKey.signing.inj hkey
      obtain rfl := Option.some.inj hdirectory
      rfl

end Material

/-- Whether a use is a change of a directory. -/
def Use.isDirectoryChange : Use → Bool
  | .addPublicKey .. | .removePublicKey _ | .clearPublicKeys => true
  | _ => false

namespace Change

variable {m m' : Material} {use : Use}

theorem identity (h : Change m use m') : m'.identity = m.identity := by
  cases h <;> rfl

theorem heldKey (h : Change m use m') (huse : use.isDirectoryChange = true) :
    m'.heldKey = m.heldKey := by
  cases h with
  | commandKey | privateKey => exact absurd huse (by simp [Use.isDirectoryChange])
  | addition | removal | clearing => rfl

theorem setKey {bs : Bytes} (h : Change m (.setKey bs) m') :
    m.keyOf bs = .ok m'.heldKey ∧ m'.directory? = m.directory? := by
  cases h with
  | commandKey accepted => exact ⟨Except.map_eq_ok_iff.2 ⟨_, accepted, rfl⟩, rfl⟩
  | privateKey accepted => exact ⟨Except.map_eq_ok_iff.2 ⟨_, accepted, rfl⟩, rfl⟩

end Change

/-- A key that is accepted is set. -/
theorem Material.exists_change_of_keyOf {m : Material} {bs : Bytes} {key : HeldKey}
    (h : m.keyOf bs = .ok key) : ∃ m', Change m (.setKey bs) m' := by
  cases m with
  | shared m =>
    obtain ⟨k, hk, -⟩ := Except.map_eq_ok_iff.1 h
    exact ⟨_, .commandKey hk⟩
  | signer m =>
    obtain ⟨k, hk, -⟩ := Except.map_eq_ok_iff.1 h
    exact ⟨_, .privateKey hk⟩

namespace Session

/-! ## What a step keeps -/

/-- **What a step does not change.** -/
structure Kept (s : Session) (step : Step) : Prop where
  /-- A step that fails changes no material. -/
  failed : ∀ fault, (s.step step).2.outcome = .error fault →
    (s.step step).1.materials = s.materials
  /-- Nor does a question. -/
  asked : ∀ use, step.action = .use use → use.isQuestion = true →
    (s.step step).1.materials = s.materials
  /-- No step changes material of another name. -/
  others : ∀ name, name ≠ step.name → (s.step step).1.material? name = s.material? name
  /-- Setting the key changes only the key, and only if all of the new one is accepted. -/
  rotated : ∀ bs m, step.action = .use (.setKey bs) → s.material? step.name = some m →
    (∃ m', (s.step step).1.material? step.name = some m' ∧ m.keyOf bs = .ok m'.heldKey ∧
        m'.identity = m.identity ∧ m'.directory? = m.directory? ∧
        (s.step step).2.outcome = .ok .done) ∨
      ((∀ key, m.keyOf bs ≠ .ok key) ∧ (s.step step).1.materials = s.materials ∧
        ∃ fault, (s.step step).2.outcome = .error fault)
  /-- A change of a directory changes nothing else. -/
  registered : ∀ use, step.action = .use use → use.isDirectoryChange = true → ∀ name,
    ((s.step step).1.material? name).map Material.identity =
        (s.material? name).map Material.identity ∧
      ((s.step step).1.material? name).map Material.heldKey =
        (s.material? name).map Material.heldKey
  /-- Only new material is made as something else. -/
  identified : (∀ origin, step.action ≠ .create origin) → ∀ name,
    ((s.step step).1.material? name).map Material.identity =
      (s.material? name).map Material.identity

end Session

namespace Effect

variable {s : Session} {step : Step} {materials : SortedMap String Material}
  {outcome : Except StepFault Answer}

theorem failed {fault : StepFault} (h : Effect s step materials (.error fault)) :
    materials = s.materials := by
  cases h
  rfl

theorem of_question {use : Use} (h : Effect s step materials outcome) (haction : step.action = .use use)
    (huse : use.isQuestion = true) : materials = s.materials := by
  cases h with
  | refused | reloaded | asked => rfl
  | created action made => exact absurd (haction.symm.trans action) (by simp)
  | changed action held change =>
    obtain rfl := Action.use.inj (haction.symm.trans action)
    cases change <;> exact absurd huse (by simp [Use.isQuestion])

theorem others (h : Effect s step materials outcome) {name : String} (hname : name ≠ step.name) :
    materials.get? name = s.material? name := by
  have hinsert : ∀ m, (s.materials.insert step.name m).get? name = s.material? name := by
    intro m
    rw [SortedMap.get?_insert, if_neg hname]
    rfl
  cases h with
  | refused | reloaded | asked => rfl
  | created action made => exact hinsert _
  | changed action held change => exact hinsert _

theorem rotated {bs : Bytes} {m : Material} (h : Effect s step materials outcome)
    (haction : step.action = .use (.setKey bs)) (hheld : s.material? step.name = some m) :
    (∃ m', materials.get? step.name = some m' ∧ m.keyOf bs = .ok m'.heldKey ∧
        m'.identity = m.identity ∧ m'.directory? = m.directory? ∧ outcome = .ok .done) ∨
      ((∀ key, m.keyOf bs ≠ .ok key) ∧ materials = s.materials ∧
        ∃ fault, outcome = .error fault) := by
  cases h with
  | refused fault unmade unchanged =>
    -- had the key been accepted, the step would have set it
    refine Or.inr ⟨fun key hkey => ?_, rfl, fault, rfl⟩
    obtain ⟨m', hchange⟩ := Material.exists_change_of_keyOf hkey
    exact unchanged _ _ _ haction hheld hchange
  | created action made => exact absurd (haction.symm.trans action) (by simp)
  | reloaded action => exact absurd (haction.symm.trans action) (by simp)
  | asked answer action question =>
    obtain rfl := Action.use.inj (haction.symm.trans action)
    exact absurd question (by simp [Use.isQuestion])
  | @changed use m₁ m' action held change =>
    obtain rfl := Action.use.inj (haction.symm.trans action)
    obtain rfl := Option.some.inj (hheld.symm.trans held)
    have hget : (s.materials.insert step.name m').get? step.name = some m' := by
      rw [SortedMap.get?_insert, if_pos rfl]
    exact Or.inl ⟨m', hget, change.setKey.1, change.identity, change.setKey.2, rfl⟩

theorem map_get?_insert {α : Type} (materials : SortedMap String Material) (name name' : String)
    (m : Material) (view : Material → α) :
    ((materials.insert name m).get? name').map view =
      if name' = name then some (view m) else (materials.get? name').map view := by
  rw [SortedMap.get?_insert]
  split <;> rfl

/-- A view of material that a change does not affect stays as it is. -/
theorem map_get?_insert_of_eq {α : Type} {view : Material → α} {m m' : Material}
    (hheld : s.material? step.name = some m) (hview : view m' = view m) (name : String) :
    ((s.materials.insert step.name m').get? name).map view = (s.material? name).map view := by
  rw [map_get?_insert]
  split
  · rename_i hname
    rw [hname, hheld, Option.map_some, hview]
  · rfl

theorem identified (h : Effect s step materials outcome)
    (haction : ∀ origin, step.action ≠ .create origin) (name : String) :
    (materials.get? name).map Material.identity = (s.material? name).map Material.identity := by
  cases h with
  | refused | reloaded | asked => rfl
  | created action made => exact absurd action (haction _)
  | changed action held change => exact map_get?_insert_of_eq held change.identity name

theorem registered {use : Use} (h : Effect s step materials outcome)
    (haction : step.action = .use use) (huse : use.isDirectoryChange = true) (name : String) :
    (materials.get? name).map Material.heldKey = (s.material? name).map Material.heldKey := by
  cases h with
  | refused | reloaded | asked => rfl
  | created action made => exact absurd (haction.symm.trans action) (by simp)
  | changed action held change =>
    obtain rfl := Action.use.inj (haction.symm.trans action)
    exact map_get?_insert_of_eq held (change.heldKey huse) name

end Effect

namespace Session

/-- **Every step keeps what it should.** -/
theorem kept (s : Session) (step : Step) : Kept s step := by
  have h := s.step_effect step
  refine ⟨fun fault hfault => ?_, fun use => h.of_question, fun name => h.others,
    fun bs m => h.rotated, fun use haction huse name => ?_, h.identified⟩
  · rw [hfault] at h
    exact h.failed
  · refine ⟨h.identified (fun origin => ?_) name, h.registered haction huse name⟩
    rw [haction]
    simp

/-! ## The last of what is given -/

/-- Every step of a run meets a condition, in the session in which it is taken. -/
def Along (P : Session → Step → Prop) : Session → List Step → Prop
  | _, [] => True
  | s, step :: rest => P s step ∧ Along P (s.step step).1 rest

theorem along_of_forall {P : Session → Step → Prop} (h : ∀ s step, P s step) (s : Session)
    (steps : List Step) : Along P s steps := by
  induction steps generalizing s with
  | nil => trivial
  | cons step rest ih => exact ⟨h s step, ih _⟩

/-- What the last step gives that gives anything to the material of a name. -/
def last? {α : Type} (given? : Session → Step → Option α) (name : String) :
    Session → List Step → Option α
  | _, [] => none
  | s, step :: rest =>
    (last? given? name (s.step step).1 rest).or (if name = step.name then given? s step else none)

/-- The material a step makes, if it makes any. -/
def made? (s : Session) (step : Step) : Option Material :=
  match step.action with
  | .create origin => (origin.make (s.prepare step).source).1.outcome.toOption
  | _ => none

/-- **The key that is accepted** in a step, with new material or in the place of another. -/
def acceptedKey? (s : Session) (step : Step) : Option HeldKey :=
  match step.action with
  | .use (.setKey bs) => (s.material? step.name).bind fun m => (m.keyOf bs).toOption
  | _ => (made? s step).map Material.heldKey

/-- What material is made as in a step. -/
def madeAs? (s : Session) (step : Step) : Option Identity :=
  (made? s step).map Material.identity

section Given

variable {s : Session} {step : Step}

theorem made?_eq_some {origin : Origin} {m : Material} (haction : step.action = .create origin)
    (hmade : (origin.make (s.prepare step).source).1.outcome = .ok m) : s.made? step = some m := by
  unfold made?
  rw [haction]
  dsimp only
  rw [hmade]
  rfl

theorem exists_make_of_made? {m : Material} (h : s.made? step = some m) :
    ∃ origin, step.action = .create origin ∧
      (origin.make (s.prepare step).source).1.outcome = .ok m := by
  unfold made? at h
  split at h
  · rename_i origin haction
    exact ⟨origin, haction, Except.eq_ok_of_toOption h⟩
  · exact absurd h (by simp)

theorem made?_eq_none (h : ∀ origin m, step.action = .create origin →
    (origin.make (s.prepare step).source).1.outcome ≠ .ok m) : s.made? step = none := by
  unfold made?
  split
  · rename_i origin haction
    cases hmade : (origin.make (s.prepare step).source).1.outcome with
    | error fault => rfl
    | ok m => exact absurd hmade (h origin m haction)
  · rfl

theorem made?_of_use {use : Use} (haction : step.action = .use use) : s.made? step = none :=
  made?_eq_none fun origin m h => absurd (haction.symm.trans h) (by simp)

theorem made?_of_reload (haction : step.action = .reload) : s.made? step = none :=
  made?_eq_none fun origin m h => absurd (haction.symm.trans h) (by simp)

theorem acceptedKey?_of_setKey {bs : Bytes} (haction : step.action = .use (.setKey bs)) :
    s.acceptedKey? step = (s.material? step.name).bind fun m => (m.keyOf bs).toOption := by
  unfold acceptedKey?
  rw [haction]

theorem acceptedKey?_of_ne (haction : ∀ bs, step.action ≠ .use (.setKey bs)) :
    s.acceptedKey? step = (s.made? step).map Material.heldKey := by
  unfold acceptedKey?
  split
  · rename_i bs h
    exact absurd h (haction bs)
  · rfl

theorem acceptedKey?_eq_none (hmade : s.made? step = none)
    (hkey : ∀ bs m, step.action = .use (.setKey bs) → s.material? step.name = some m →
      ∀ key, m.keyOf bs ≠ .ok key) : s.acceptedKey? step = none := by
  unfold acceptedKey?
  split
  · rename_i bs haction
    cases hheld : s.material? step.name with
    | none => rfl
    | some m =>
      rw [Option.bind_some]
      cases hok : m.keyOf bs with
      | error fault => rfl
      | ok key => exact absurd hok (hkey bs m haction hheld key)
  · rw [hmade, Option.map_none]

end Given

end Session

namespace Effect

variable {s : Session} {step : Step} {materials : SortedMap String Material}
  {outcome : Except StepFault Answer}

/-- What a step gives to a view of the material of its name is what there is of it afterwards. -/
theorem map_get?_of_given {α : Type} {view : Material → α} {given : Option α}
    (h : (given = none ∧ ∀ name,
        (materials.get? name).map view = (s.material? name).map view) ∨
      ∃ m, materials = s.materials.insert step.name m ∧ given = some (view m)) (name : String) :
    (materials.get? name).map view =
      (if name = step.name then given else none).or ((s.material? name).map view) := by
  rcases h with ⟨rfl, hsame⟩ | ⟨m, rfl, rfl⟩
  · rw [hsame, ite_self, Option.none_or]
  · rw [map_get?_insert]
    split <;> rfl

/-- The material of a name is made as what the step makes it, or is what it was. -/
theorem identity (h : Effect s step materials outcome) (name : String) :
    (materials.get? name).map Material.identity =
      (if name = step.name then s.madeAs? step else none).or
        ((s.material? name).map Material.identity) := by
  refine map_get?_of_given ?_ name
  unfold Session.madeAs?
  cases h with
  | refused fault unmade unchanged =>
    exact Or.inl ⟨congrArg _ (Session.made?_eq_none unmade), fun _ => rfl⟩
  | created action made =>
    exact Or.inr ⟨_, rfl, congrArg _ (Session.made?_eq_some action made)⟩
  | reloaded action => exact Or.inl ⟨congrArg _ (Session.made?_of_reload action), fun _ => rfl⟩
  | asked answer action question =>
    exact Or.inl ⟨congrArg _ (Session.made?_of_use action), fun _ => rfl⟩
  | changed action held change =>
    exact Or.inl ⟨congrArg _ (Session.made?_of_use action),
      map_get?_insert_of_eq held change.identity⟩

/-- The material of a name holds the key that the step accepts for it, or holds what it held. -/
theorem heldKey (h : Effect s step materials outcome) (name : String) :
    (materials.get? name).map Material.heldKey =
      (if name = step.name then s.acceptedKey? step else none).or
        ((s.material? name).map Material.heldKey) := by
  refine map_get?_of_given ?_ name
  cases h with
  | refused fault unmade unchanged =>
    refine Or.inl ⟨Session.acceptedKey?_eq_none (Session.made?_eq_none unmade) ?_, fun _ => rfl⟩
    intro bs m haction hheld key hkey
    obtain ⟨m', hchange⟩ := Material.exists_change_of_keyOf hkey
    exact unchanged _ m m' haction hheld hchange
  | created action made =>
    refine Or.inr ⟨_, rfl, ?_⟩
    rw [Session.acceptedKey?_of_ne (by simp [action]), Session.made?_eq_some action made]
    rfl
  | reloaded action =>
    refine Or.inl ⟨Session.acceptedKey?_eq_none (Session.made?_of_reload action) ?_, fun _ => rfl⟩
    simp [action]
  | asked answer action question =>
    refine Or.inl ⟨Session.acceptedKey?_eq_none (Session.made?_of_use action) ?_, fun _ => rfl⟩
    intro bs m haction
    obtain rfl := Action.use.inj (action.symm.trans haction)
    exact absurd question (by simp [Use.isQuestion])
  | @changed use m m' action held change =>
    -- a change of a directory accepts no key, and any other accepts one
    by_cases huse : use.isDirectoryChange = true
    · refine Or.inl ⟨Session.acceptedKey?_eq_none (Session.made?_of_use action) ?_,
        map_get?_insert_of_eq held (change.heldKey huse)⟩
      intro bs m haction
      obtain rfl := Action.use.inj (action.symm.trans haction)
      exact absurd huse (by simp [Use.isDirectoryChange])
    · obtain ⟨bs, rfl⟩ : ∃ bs, use = .setKey bs := by
        cases change with
        | commandKey | privateKey => exact ⟨_, rfl⟩
        | addition | removal | clearing => exact absurd rfl huse
      refine Or.inr ⟨m', rfl, ?_⟩
      rw [Session.acceptedKey?_of_setKey action, held, Option.bind_some, change.setKey.1]
      rfl

end Effect

namespace Session

/-- What is given to a view of material by each step is, in the end, what was given last. -/
theorem map_material?_after {α : Type} {given? : Session → Step → Option α} {view : Material → α}
    (h : ∀ s step name, ((s.step step).1.material? name).map view =
      (if name = step.name then given? s step else none).or ((s.material? name).map view))
    (s : Session) (steps : List Step) (name : String) :
    ((s.after steps).material? name).map view =
      (last? given? name s steps).or ((s.material? name).map view) := by
  -- what the steps behind the first give comes before what the first gives
  induction steps generalizing s with
  | nil => rfl
  | cons step rest ih => rw [after_cons, ih, last?, h, Option.or_assoc]

/-- **The key that material holds is the one accepted last.** -/
theorem heldKey_after (s : Session) (steps : List Step) (name : String) :
    ((s.after steps).material? name).map Material.heldKey =
      (last? acceptedKey? name s steps).or ((s.material? name).map Material.heldKey) :=
  map_material?_after (fun s step name => (s.step_effect step).heldKey name) s steps name

/-- **Material is what it was made as last.** -/
theorem identity_after (s : Session) (steps : List Step) (name : String) :
    ((s.after steps).material? name).map Material.identity =
      (last? madeAs? name s steps).or ((s.material? name).map Material.identity) :=
  map_material?_after (fun s step name => (s.step_effect step).identity name) s steps name

/-- **What runs leave alone.** Every step of a run keeps what it should: failures and questions change
nothing, setting a key and changes of a directory change only what they are for, and no step changes
material of another name. In the end material holds the key accepted last, and it is what it was made
as last, whether made anew or loaded. -/
theorem run_keeps (s : Session) (steps : List Step) :
    Along Kept s steps ∧ ∀ name,
      ((s.after steps).material? name).map Material.heldKey =
          (last? acceptedKey? name s steps).or ((s.material? name).map Material.heldKey) ∧
        ((s.after steps).material? name).map Material.identity =
          (last? madeAs? name s steps).or ((s.material? name).map Material.identity) :=
  ⟨along_of_forall kept s steps, fun name =>
    ⟨heldKey_after s steps name, identity_after s steps name⟩⟩

end Session

end SealedMessaging
