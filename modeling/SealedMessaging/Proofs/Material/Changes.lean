import SealedMessaging.Material.Use
import SealedMessaging.Proofs.Keys

/-!
# What a use does to material

A use either leaves material as it is or changes one thing in it: the key it holds, or the directory
of a signer. It does so only if all that it is given passes its checks.

* `Use.isQuestion`: the uses that never change anything.
* `Change`: the changes, with the conditions under which they are made.
* `Material.step_cases`: a use fails, or it is a question, or it is a change.
* `Material.step_of_change`: what meets the conditions is done.
-/

namespace SealedMessaging

/-! ## New material -/

namespace SignerMaterial

theorem ofKey_eq_ok_iff {id controller : Bytes} {key : SecretKey} {m : SignerMaterial} :
    ofKey id key controller = .ok m ↔
      m.key = key ∧ m.id.octets.toList = id ∧
        (m.controller.toList = controller ∧ controller.isZero = false) ∧
        m.directory = SortedMap.empty := by
  unfold ofKey
  simp only [Except.bind_eq_ok_iff, Except.mapError_eq_ok_iff, Except.pure_eq_ok_iff,
    Id.ofBytes_eq_ok_iff, nonzeroOctetsOf_eq_ok_iff]
  constructor
  · rintro ⟨i, hi, c, hc, rfl⟩
    exact ⟨rfl, hi, hc, rfl⟩
  · rintro ⟨hk, hi, hc, hd⟩
    exact ⟨m.id, hi, m.controller, hc, by rw [← hk, ← hd]⟩

theorem ofBytes_eq_ok_iff {id key controller : Bytes} {m : SignerMaterial} :
    ofBytes id key controller = .ok m ↔
      m.key.toBytes = key ∧ m.id.octets.toList = id ∧
        (m.controller.toList = controller ∧ controller.isZero = false) ∧
        m.directory = SortedMap.empty := by
  unfold ofBytes
  simp only [Except.bind_eq_ok_iff, Except.mapError_eq_ok_iff, SecretKey.ofBytes_eq_ok_iff,
    ofKey_eq_ok_iff]
  constructor
  · rintro ⟨k, hk, rfl, h⟩
    exact ⟨hk, h⟩
  · rintro ⟨hk, h⟩
    exact ⟨m.key, hk, rfl, h⟩

end SignerMaterial

/-! ## Reports on changes -/

theorem SharedMaterial.setKey_eq (m : SharedMaterial) (bs : Bytes) :
    m.setKey bs =
      match SymmetricKey.ofBytes bs with
      | .error fault => .fail (.crypto fault)
      | .ok key => ⟨.ok ⟨key⟩, [.commandKeyRotated]⟩ := by
  unfold setKey ofBytes
  cases SymmetricKey.ofBytes bs <;> rfl

namespace SignerMaterial

theorem setKey_eq (m : SignerMaterial) (bs : Bytes) :
    m.setKey bs =
      match SecretKey.ofBytes bs with
      | .error fault => .fail (.crypto fault)
      | .ok key => ⟨.ok { m with key }, [.privateKeyRotated m.id]⟩ := by
  unfold setKey
  cases SecretKey.ofBytes bs <;> rfl

theorem addPublicKey_eq (m : SignerMaterial) (id key : Bytes) :
    m.addPublicKey id key =
      match Id.ofBytes id, PublicKey.ofBytes key with
      | .error fault, _ => .fail (.directory (.badId fault))
      | .ok _, .error fault => .fail (.directory (.badKey fault))
      | .ok i, .ok k => ⟨.ok { m with directory := SortedMap.insert m.directory i k },
          [if (SortedMap.get? m.directory i).isSome then .keyReplaced i else .keyAdded i]⟩ := by
  unfold addPublicKey Directory.add
  cases Id.ofBytes id with
  | error fault => rfl
  | ok i => cases PublicKey.ofBytes key <;> rfl

theorem removePublicKey_eq (m : SignerMaterial) (id : Bytes) :
    m.removePublicKey id =
      match Id.ofBytes id with
      | .error fault => .fail (.input fault)
      | .ok i =>
        if (SortedMap.get? m.directory i).isSome then
          ⟨.ok { m with directory := SortedMap.erase m.directory i }, [.keyRemoved i]⟩
        else .fail (.directory (.unknown i)) := by
  unfold removePublicKey
  cases Id.ofBytes id with
  | error fault => rfl
  | ok i =>
    show ((Directory.remove m.directory i).mapError MaterialFault.directory >>= fun directory =>
      pure { m with directory }) = if (SortedMap.get? m.directory i).isSome then _ else _
    unfold Directory.remove
    by_cases hknown : (SortedMap.get? m.directory i).isSome
    · rw [if_pos hknown, if_pos hknown]
      rfl
    · rw [if_neg hknown, if_neg hknown]
      rfl

end SignerMaterial

/-! ## Changes that succeed -/

theorem SharedMaterial.outcome_setKey_eq_ok_iff {m m' : SharedMaterial} {bs : Bytes} :
    (m.setKey bs).outcome = .ok m' ↔ SymmetricKey.ofBytes bs = .ok m'.key := by
  unfold setKey ofBytes
  simp only [Report.outcome_bind_eq_ok_iff, Report.outcome_ofExcept, Report.outcome_log,
    Report.outcome_pure, Except.mapError_eq_ok_iff, Except.map_eq_ok_iff, Except.ok.injEq]
  constructor
  · rintro ⟨_, ⟨key, hkey, rfl⟩, -, -, rfl⟩
    exact hkey
  · intro hkey
    exact ⟨m', ⟨m'.key, hkey, rfl⟩, (), trivial, rfl⟩

namespace SignerMaterial

variable {m m' : SignerMaterial}

theorem outcome_setKey_eq_ok_iff {bs : Bytes} :
    (m.setKey bs).outcome = .ok m' ↔
      ∃ key, SecretKey.ofBytes bs = .ok key ∧ { m with key } = m' := by
  unfold setKey
  simp only [Report.outcome_bind_eq_ok_iff, Report.outcome_ofExcept, Report.outcome_log,
    Report.outcome_pure, Except.mapError_eq_ok_iff, Except.ok.injEq]
  constructor
  · rintro ⟨key, hkey, -, -, hm⟩
    exact ⟨key, hkey, hm⟩
  · rintro ⟨key, hkey, hm⟩
    exact ⟨key, hkey, (), trivial, hm⟩

theorem outcome_addPublicKey_eq_ok_iff {id key : Bytes} :
    (m.addPublicKey id key).outcome = .ok m' ↔
      ∃ i k, Id.ofBytes id = .ok i ∧ PublicKey.ofBytes key = .ok k ∧
        { m with directory := SortedMap.insert m.directory i k } = m' := by
  unfold addPublicKey Directory.add Directory.insert
  simp only [Report.outcome_bind_eq_ok_iff, Report.outcome_ofExcept, Report.outcome_mapError,
    Report.outcome_pure, Except.mapError_eq_ok_iff, Except.ok.injEq]
  constructor
  · rintro ⟨d, ⟨i, hi, k, hk, rfl⟩, hm⟩
    exact ⟨i, k, hi, hk, hm⟩
  · rintro ⟨i, k, hi, hk, hm⟩
    exact ⟨_, ⟨i, hi, k, hk, rfl⟩, hm⟩

theorem outcome_removePublicKey_eq_ok_iff {id : Bytes} :
    (m.removePublicKey id).outcome = .ok m' ↔
      ∃ i, Id.ofBytes id = .ok i ∧ (SortedMap.get? m.directory i).isSome = true ∧
        { m with directory := SortedMap.erase m.directory i } = m' := by
  have hremove : ∀ (i : Id) (d : Directory), (Directory.remove m.directory i).outcome = .ok d ↔
      (SortedMap.get? m.directory i).isSome = true ∧ SortedMap.erase m.directory i = d := by
    intro i d
    unfold Directory.remove
    cases hget : (SortedMap.get? m.directory i).isSome <;> simp
  unfold removePublicKey
  simp only [Report.outcome_bind_eq_ok_iff, Report.outcome_ofExcept, Report.outcome_mapError,
    Report.outcome_pure, Except.mapError_eq_ok_iff, Except.ok.injEq, hremove]
  constructor
  · rintro ⟨i, hi, d, ⟨hget, rfl⟩, hm⟩
    exact ⟨i, hi, hget, hm⟩
  · rintro ⟨i, hi, hget, hm⟩
    exact ⟨i, hi, _, ⟨hget, rfl⟩, hm⟩

theorem outcome_clearPublicKeys :
    m.clearPublicKeys.outcome = .ok { m with directory := SortedMap.empty } := rfl

end SignerMaterial

/-- The report on a change, without what it makes. -/
def Report.answered {ε α : Type} (r : Report ε α) : Report ε Answer :=
  ⟨r.outcome.map fun _ => .done, r.events⟩

/-- The report on a change does not say what it was made of. -/
theorem Material.snd_change (m : Material) (r : Report MaterialFault Material) :
    (m.change r).2 = r.answered.mapError .material := by
  unfold change Report.answered
  cases r.outcome <;> rfl

/-- Nor does it say of what kind the material is. -/
theorem Report.answered_map {ε α β : Type} (r : Report ε α) (make : α → β) :
    answered (do return make (← r)) = r.answered := by
  obtain ⟨outcome, events⟩ := r
  cases outcome with
  | error fault => rfl
  | ok a =>
    show (⟨.ok .done, events ++ []⟩ : Report ε Answer) = ⟨.ok .done, events⟩
    rw [List.append_nil]

/-! ## Answers in bytes -/

theorem Material.outcome_inBytes {ε : Type} (r : Report ε Bytes) :
    (inBytes r).outcome = r.outcome.map Answer.bytes := by
  unfold inBytes
  rw [Report.outcome_bind]
  cases r.outcome <;> rfl

theorem Material.outcome_tell (m : Material) (r : Report MaterialFault Bytes) :
    (m.tell (inBytes r)).2.outcome = (r.outcome.map Answer.bytes).mapError .material := by
  unfold tell
  rw [Report.outcome_mapError, outcome_inBytes]

/-! ## Uses -/

/-- Whether a use leaves all material as it is. -/
def Use.isQuestion : Use → Bool
  | .setKey _ | .addPublicKey .. | .removePublicKey _ | .clearPublicKeys => false
  | _ => true

/-- **The changes of material by a use**, each with what is accepted for it. -/
inductive Change : Material → Use → Material → Prop where
  | commandKey {m : SharedMaterial} {bs : Bytes} {key : SymmetricKey}
      (accepted : SymmetricKey.ofBytes bs = .ok key) :
      Change (.shared m) (.setKey bs) (.shared { m with key })
  | privateKey {m : SignerMaterial} {bs : Bytes} {key : SecretKey}
      (accepted : SecretKey.ofBytes bs = .ok key) :
      Change (.signer m) (.setKey bs) (.signer { m with key })
  | addition {m : SignerMaterial} {id key : Bytes} {i : Id} {k : PublicKey}
      (acceptedId : Id.ofBytes id = .ok i) (acceptedKey : PublicKey.ofBytes key = .ok k) :
      Change (.signer m) (.addPublicKey id key)
        (.signer { m with directory := SortedMap.insert m.directory i k })
  | removal {m : SignerMaterial} {id : Bytes} {i : Id} (accepted : Id.ofBytes id = .ok i)
      (known : (SortedMap.get? m.directory i).isSome = true) :
      Change (.signer m) (.removePublicKey id)
        (.signer { m with directory := SortedMap.erase m.directory i })
  | clearing {m : SignerMaterial} :
      Change (.signer m) .clearPublicKeys (.signer { m with directory := SortedMap.empty })

namespace Material

/-- What comes out of a use: the material as it was and a fault, or an answer. -/
def Outcome (m : Material) (use : Use) (after : Material × Report UseFault Answer) : Prop :=
  (after.1 = m ∧ ∃ fault, after.2.outcome = .error fault) ∨
    ∃ answer, after.2.outcome = .ok answer ∧
      (after.1 = m ∧ use.isQuestion = true ∨ Change m use after.1)

variable {m : Material} {use : Use}

theorem Outcome.of_tell {r : Report MaterialFault Answer} (h : use.isQuestion = true) :
    Outcome m use (m.tell r) := by
  unfold Outcome tell
  rw [Report.outcome_mapError]
  cases r.outcome with
  | error fault => exact Or.inl ⟨rfl, _, rfl⟩
  | ok answer => exact Or.inr ⟨answer, rfl, Or.inl ⟨rfl, h⟩⟩

theorem Outcome.of_change {r : Report MaterialFault Material}
    (h : ∀ m', r.outcome = .ok m' → Change m use m') : Outcome m use (m.change r) := by
  unfold Outcome change
  cases hr : r.outcome with
  | error fault => exact Or.inl ⟨rfl, _, rfl⟩
  | ok m' => exact Or.inr ⟨.done, rfl, Or.inr (h m' hr)⟩

theorem Outcome.of_changeSigner {s : SignerMaterial}
    {r : SignerMaterial → Report MaterialFault SignerMaterial}
    (h : ∀ s', (r s).outcome = .ok s' → Change (.signer s) use (.signer s')) :
    Outcome (.signer s) use ((Material.signer s).changeSigner r) := by
  apply Outcome.of_change
  intro m' hm'
  obtain ⟨s', hs', hm⟩ := Report.outcome_bind_eq_ok_iff.1 hm'
  obtain rfl := Except.ok.inj hm
  exact h s' hs'

theorem Outcome.of_fail {fault : UseFault} : Outcome m use (m, .fail fault) :=
  Or.inl ⟨rfl, fault, rfl⟩

/-- The outcome of a use of shared material. -/
theorem step_cases_shared (s : SharedMaterial) (now : Instant) (use : Use) :
    Outcome (.shared s) use ((Material.shared s).step now use) := by
  -- all that is not listed here only a signer can do
  cases use with
  | protect payload topicKey => exact .of_tell rfl
  | unprotect frame topicKey => exact .of_tell rfl
  | unprotectCommand frame => exact .of_tell rfl
  | setKey bs =>
    apply Outcome.of_change
    intro m' hm'
    obtain ⟨s', hs', hm⟩ := Report.outcome_bind_eq_ok_iff.1 hm'
    obtain rfl := Except.ok.inj hm
    exact .commandKey (SharedMaterial.outcome_setKey_eq_ok_iff.1 hs')
  | keyType => exact .of_tell rfl
  | commandKey => exact .of_tell rfl
  | _ => exact .of_fail

/-- The outcome of a use of a signer's material. -/
theorem step_cases_signer (s : SignerMaterial) (now : Instant) (use : Use) :
    Outcome (.signer s) use ((Material.signer s).step now use) := by
  -- all that is not listed here is a question
  cases use with
  | setKey bs =>
    apply Outcome.of_change
    intro m' hm'
    obtain ⟨s', hs', hm⟩ := Report.outcome_bind_eq_ok_iff.1 hm'
    obtain rfl := Except.ok.inj hm
    obtain ⟨key, hkey, rfl⟩ := SignerMaterial.outcome_setKey_eq_ok_iff.1 hs'
    exact .privateKey hkey
  | addPublicKey id key =>
    apply Outcome.of_changeSigner
    intro s' hs'
    obtain ⟨i, k, hi, hk, rfl⟩ := SignerMaterial.outcome_addPublicKey_eq_ok_iff.1 hs'
    exact .addition hi hk
  | removePublicKey id =>
    apply Outcome.of_changeSigner
    intro s' hs'
    obtain ⟨i, hi, hknown, rfl⟩ := SignerMaterial.outcome_removePublicKey_eq_ok_iff.1 hs'
    exact .removal hi hknown
  | clearPublicKeys =>
    apply Outcome.of_changeSigner
    intro s' hs'
    obtain rfl := Except.ok.inj (SignerMaterial.outcome_clearPublicKeys.symm.trans hs')
    exact .clearing
  | commandKey => exact .of_fail
  | _ => exact .of_tell rfl

/-- **A use fails and leaves the material as it is, or it is a question and does so as well, or it is
a change** and makes it. -/
theorem step_cases (m : Material) (now : Instant) (use : Use) : Outcome m use (m.step now use) := by
  cases m with
  | shared s => exact step_cases_shared s now use
  | signer s => exact step_cases_signer s now use

/-- **What meets the conditions of a change is done.** -/
theorem step_of_change {m' : Material} (h : Change m use m') (now : Instant) :
    (m.step now use).1 = m' ∧ (m.step now use).2.outcome = .ok .done := by
  -- it is enough that the report on the change succeeds
  have hchange : ∀ {m : Material} {r : Report MaterialFault Material}, r.outcome = .ok m' →
      (m.change r).1 = m' ∧ (m.change r).2.outcome = .ok .done := by
    intro m r hr
    unfold change
    rw [hr]
    exact ⟨rfl, rfl⟩
  cases h with
  | commandKey accepted =>
    refine hchange (Report.outcome_bind_eq_ok_iff.2 ⟨_, ?_, rfl⟩)
    exact SharedMaterial.outcome_setKey_eq_ok_iff.2 accepted
  | privateKey accepted =>
    refine hchange (Report.outcome_bind_eq_ok_iff.2 ⟨_, ?_, rfl⟩)
    exact SignerMaterial.outcome_setKey_eq_ok_iff.2 ⟨_, accepted, rfl⟩
  | addition acceptedId acceptedKey =>
    refine hchange (Report.outcome_bind_eq_ok_iff.2 ⟨_, ?_, rfl⟩)
    exact SignerMaterial.outcome_addPublicKey_eq_ok_iff.2 ⟨_, _, acceptedId, acceptedKey, rfl⟩
  | removal accepted known =>
    refine hchange (Report.outcome_bind_eq_ok_iff.2 ⟨_, ?_, rfl⟩)
    exact SignerMaterial.outcome_removePublicKey_eq_ok_iff.2 ⟨_, accepted, known, rfl⟩
  | clearing => exact ⟨rfl, rfl⟩

end Material

end SealedMessaging
