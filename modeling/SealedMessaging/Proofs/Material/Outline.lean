import SealedMessaging.Proofs.Material.Changes
import SealedMessaging.Proofs.Material.Opening
import SealedMessaging.Proofs.SortedMap

/-!
# What shows of material

Events name signers and count keys, but hold no key and no payload. All that they depend on is the
outline of the material, what is asked of it without the secrets in it, and how that ends: so someone
who sees only this can tell the events, and keep track of the outline.

* `Outline`, `Use.withoutSecrets`, `Ending`: what shows of material, of a use and of its end.
* `Outline.events`, `Outline.after`: what can be told from it.
* `Material.events_step`: these are the events of a use.
* `Change.outline`: this is the outline after a change.
-/

namespace SealedMessaging

/-! ## What shows -/

/-- **What shows of material**: its kind, and of a signer, who it is and for whom it has keys. -/
inductive Outline where
  | shared
  | signer (id : Id) (known : SortedMap Id Unit)
  deriving DecidableEq

/-- The outline of material. -/
def Material.outline : Material → Outline
  | .shared _ => .shared
  | .signer m => .signer m.id (SortedMap.keys m.directory)

/-- **What shows of a use**: what is asked, and for which identifier. -/
def Use.withoutSecrets : Use → Use
  | .protect .. => .protect [] []
  | .unprotect .. => .unprotect [] []
  | .unprotectCommand _ => .unprotectCommand []
  | .setKey _ => .setKey []
  | .addPublicKey id _ => .addPublicKey id []
  | use => use

/-- **What shows of the end** of a use or of a step. Most faults are not told apart. -/
inductive Ending where
  | done
  | refused (stamp : UInt64) (fault : WindowFault)
  | signerUnknown (id : Id)
  | failed
  deriving DecidableEq

/-- Whether a use opens a frame. -/
def Use.isOpening : Use → Bool
  | .unprotect .. | .unprotectCommand _ => true
  | _ => false

/-- The frame that is opened by a use, if any. -/
def Use.frame : Use → Bytes
  | .unprotect frame _ | .unprotectCommand frame => frame
  | _ => []

/-- What shows of a fault. A frame that is refused for its time stamp shows the stamp. -/
def UseFault.ending (frame : Bytes) : UseFault → Ending
  | .material (.crypto (.window fault)) => .refused (Frame.stampOf frame) fault
  | .material (.signerUnknown id) => .signerUnknown id
  | _ => .failed

/-- What shows of the end of a use. -/
def Use.ending (use : Use) : Except UseFault Answer → Ending
  | .ok _ => .done
  | .error fault => fault.ending use.frame

/-! ## What can be told -/

/-- The events that tell the end of opening a frame. -/
def Ending.events : Ending → List Event
  | .refused stamp fault => [.frameRefused stamp fault]
  | .signerUnknown id => [.signerUnknown id]
  | .done | .failed => []

namespace Outline

/-- The events that tell a change that is made. -/
def changeEvents : Outline → Use → List Event
  | .shared, .setKey _ => [.commandKeyRotated]
  | .signer id _, .setKey _ => [.privateKeyRotated id]
  | .signer _ known, .addPublicKey bs _ =>
    match Id.ofBytes bs with
    | .ok id => [if (known.get? id).isSome then .keyReplaced id else .keyAdded id]
    | .error _ => []
  | .signer .., .removePublicKey bs =>
    match Id.ofBytes bs with
    | .ok id => [.keyRemoved id]
    | .error _ => []
  | .signer _ known, .clearPublicKeys => [.keysCleared known.size]
  | _, _ => []

/-- **The events of a use**, as far as can be told from outside. -/
def events (o : Outline) (use : Use) (ending : Ending) : List Event :=
  if use.isOpening then ending.events else if ending = .done then o.changeEvents use else []

/-- **The outline after a use** that has been done. -/
def after : Outline → Use → Outline
  | .signer id known, .addPublicKey bs _ =>
    .signer id ((Id.ofBytes bs).toOption.elim known fun i => known.insert i ())
  | .signer id known, .removePublicKey bs =>
    .signer id ((Id.ofBytes bs).toOption.elim known known.erase)
  | .signer id _, .clearPublicKeys => .signer id .empty
  | o, _ => o

/-- A question leaves the outline as it is. -/
theorem after_of_isQuestion {use : Use} (h : use.isQuestion = true) (o : Outline) :
    o.after use.withoutSecrets = o := by
  cases use with
  | setKey | addPublicKey | removePublicKey | clearPublicKeys =>
    exact absurd h (by simp [Use.isQuestion])
  | _ => cases o <;> rfl

end Outline

/-! ## Events -/

namespace Report

variable {ε ε' α β : Type} {events : List Event}

/-- **A report on what is told only if it succeeds.** -/
inductive Announces (events : List Event) : Report ε α → Prop where
  | done (a : α) : Announces events ⟨.ok a, events⟩
  | failed (fault : ε) : Announces events ⟨.error fault, []⟩

theorem announces_ofExcept (x : Except ε α) : (ofExcept x).Announces [] := by
  cases x with
  | ok a => exact .done a
  | error fault => exact .failed fault

theorem Announces.mapError {r : Report ε α} (h : r.Announces events) (f : ε → ε') :
    (r.mapError f).Announces events := by
  cases h with
  | done a => exact .done a
  | failed fault => exact .failed (f fault)

theorem Announces.map {r : Report ε α} (h : r.Announces events) (f : α → β) :
    (r >>= fun a => pure (f a)).Announces events := by
  cases h with
  | done a =>
    have hmapped : ((⟨.ok a, events⟩ : Report ε α) >>= fun a => pure (f a)) =
        ⟨.ok (f a), events⟩ := congrArg (Report.mk _) (List.append_nil events)
    exact hmapped ▸ .done (f a)
  | failed fault => exact .failed fault

end Report

theorem UseFault.ending_ne_done (frame : Bytes) (fault : UseFault) : fault.ending frame ≠ .done := by
  unfold ending
  split <;> simp

theorem Use.isOpening_withoutSecrets (use : Use) :
    use.withoutSecrets.isOpening = use.isOpening := by
  cases use <;> rfl

/-- What is told only of a success can be told from the success. -/
theorem Outline.events_of_announces {o : Outline} {use : Use} {r : Report UseFault Answer}
    (huse : use.isOpening = false) (h : r.Announces (o.changeEvents use.withoutSecrets)) :
    r.events = o.events use.withoutSecrets (use.ending r.outcome) := by
  unfold Outline.events
  rw [Use.isOpening_withoutSecrets, huse]
  cases h with
  | done answer => rfl
  | failed fault => exact (if_neg (fault.ending_ne_done use.frame)).symm

theorem SignerMaterial.announces_addPublicKey (s : SignerMaterial) (bs key : Bytes) :
    (s.addPublicKey bs key).Announces
      ((Material.signer s).outline.changeEvents (.addPublicKey bs [])) := by
  show (s.addPublicKey bs key).Announces
    (match Id.ofBytes bs with
     | .ok id => [if (s.directory.keys.get? id).isSome then .keyReplaced id else .keyAdded id]
     | .error _ => [])
  rw [addPublicKey_eq]
  cases Id.ofBytes bs with
  | error fault => exact .failed _
  | ok id =>
    cases PublicKey.ofBytes key with
    | error fault => exact .failed _
    | ok k =>
      have hknown :
          (s.directory.keys.get? id).isSome = (SortedMap.get? s.directory id).isSome := by
        rw [SortedMap.get?_keys, Option.isSome_map]
      dsimp only
      rw [hknown]
      exact .done _

theorem SignerMaterial.announces_removePublicKey (s : SignerMaterial) (bs : Bytes) :
    (s.removePublicKey bs).Announces
      ((Material.signer s).outline.changeEvents (.removePublicKey bs)) := by
  show (s.removePublicKey bs).Announces
    (match Id.ofBytes bs with
     | .ok id => [.keyRemoved id]
     | .error _ => [])
  rw [removePublicKey_eq]
  cases Id.ofBytes bs with
  | error fault => exact .failed _
  | ok id =>
    dsimp only
    split
    · exact .done _
    · exact .failed _

namespace Material

theorem announces_change {m : Material} {r : Report MaterialFault Material} {events : List Event}
    (h : r.Announces events) : (m.change r).2.Announces events := by
  cases h with
  | done m' => exact .done Answer.done
  | failed fault => exact .failed (UseFault.material fault)

variable {use : Use}

theorem announces_step_shared (s : SharedMaterial) (now : Instant) (huse : use.isOpening = false) :
    ((Material.shared s).step now use).2.Announces
      (Outline.shared.changeEvents use.withoutSecrets) := by
  cases use with
  | unprotect | unprotectCommand => exact absurd huse (by simp [Use.isOpening])
  | protect payload topicKey =>
    exact ((Report.announces_ofExcept _).map Answer.bytes).mapError UseFault.material
  | setKey bs =>
    have hset : (s.setKey bs).Announces [.commandKeyRotated] := by
      rw [SharedMaterial.setKey_eq]
      cases SymmetricKey.ofBytes bs with
      | error fault => exact .failed (MaterialFault.crypto fault)
      | ok key => exact .done _
    exact announces_change (hset.map Material.shared)
  | keyType => exact .done _
  | commandKey => exact .done _
  | _ => exact .failed UseFault.notSigner

theorem announces_step_signer (s : SignerMaterial) (now : Instant) (huse : use.isOpening = false) :
    ((Material.signer s).step now use).2.Announces
      ((Material.signer s).outline.changeEvents use.withoutSecrets) := by
  cases use with
  | unprotect | unprotectCommand => exact absurd huse (by simp [Use.isOpening])
  | protect payload topicKey =>
    exact ((Report.announces_ofExcept _).map Answer.bytes).mapError UseFault.material
  | publicKeyOf bs =>
    exact ((Report.announces_ofExcept _).map Answer.bytes).mapError UseFault.material
  | setKey bs =>
    have hset : (s.setKey bs).Announces [.privateKeyRotated s.id] := by
      rw [SignerMaterial.setKey_eq]
      cases SecretKey.ofBytes bs with
      | error fault => exact .failed (MaterialFault.crypto fault)
      | ok key => exact .done _
    exact announces_change (hset.map Material.signer)
  | addPublicKey bs key =>
    exact announces_change ((s.announces_addPublicKey bs key).map Material.signer)
  | removePublicKey bs =>
    exact announces_change ((s.announces_removePublicKey bs).map Material.signer)
  | clearPublicKeys =>
    have hclear : s.clearPublicKeys.Announces [.keysCleared s.directory.keys.size] := by
      rw [SortedMap.size_keys]
      exact .done _
    exact announces_change (hclear.map Material.signer)
  | commandKey => exact .failed UseFault.notShared
  | _ => exact .done _

theorem events_inBytes {ε : Type} (r : Report ε Bytes) : (inBytes r).events = r.events :=
  Report.events_bind_ofExcept r fun bs => .ok (Answer.bytes bs)

/-- The events of opening can be told from how it ends. -/
theorem events_of_opening {m : Material} {r : Report MaterialFault Bytes}
    (h : r.events = openingEvents use.frame r.outcome) :
    (m.tell (inBytes r)).2.events = (use.ending (m.tell (inBytes r)).2.outcome).events := by
  rw [outcome_tell]
  refine (events_inBytes r).trans (h.trans ?_)
  cases r.outcome with
  | ok bs => rfl
  | error fault =>
    cases fault with
    | crypto fault => cases fault <;> rfl
    | _ => rfl

/-- **The events of a use can be told** from the outline, from what shows of the use, and from its
end. -/
theorem events_step (m : Material) (now : Instant) (use : Use) :
    (m.step now use).2.events =
      m.outline.events use.withoutSecrets (use.ending (m.step now use).2.outcome) := by
  cases hopening : use.isOpening with
  | false =>
    apply Outline.events_of_announces hopening
    cases m with
    | shared s => exact announces_step_shared s now hopening
    | signer s => exact announces_step_signer s now hopening
  | true =>
    cases use with
    | unprotect frame topicKey => exact events_of_opening (m.events_unprotect now frame topicKey)
    | unprotectCommand frame => exact events_of_opening (m.events_unprotectCommand now frame)
    | _ => exact absurd hopening (by simp [Use.isOpening])

end Material

/-! ## Changes -/

/-- **The outline after a change can be told** from the outline before and from what shows of it. -/
theorem Change.outline {m m' : Material} {use : Use} (h : Change m use m') :
    m'.outline = m.outline.after use.withoutSecrets := by
  cases h with
  | commandKey accepted => rfl
  | privateKey accepted => rfl
  | addition acceptedId acceptedKey =>
    unfold Material.outline Use.withoutSecrets Outline.after
    dsimp only
    rw [acceptedId, SortedMap.keys_insert]
    rfl
  | removal accepted known =>
    unfold Material.outline Use.withoutSecrets Outline.after
    dsimp only
    rw [accepted, SortedMap.keys_erase]
    rfl
  | clearing => rfl

end SealedMessaging
