import SealedMessaging.Proofs.Message
import SealedMessaging.Proofs.Session.History

/-!
# What a use reads and writes

The parts of material that ever change are its key and, one by one, the entries of its directory.
Each use reads some of them and writes some of them. Two materials that agree on what a use reads give
the same report on it; a use changes nothing but what it writes; and what it writes does not depend on
anything else.

* `Part`, `Use.Reads`, `Use.Writes`: the parts and what each use does with them.
* `Material.AgreeOn`: materials that differ outside some parts at most.
* `Material.report_of_agreeOn`: a use reports on nothing but what it reads.
* `Material.AgreeOn.step`, `Material.AgreeOn.skip`: the same use on both sides, and a use on one side
  that writes elsewhere, keep an agreement.
-/

namespace SealedMessaging

/-- A part of material that can change. -/
inductive Part where
  | key
  | entry (id : Id)

/-- Whose message a frame holds under a topic key, if it holds one. -/
def Frame.signer? (frame topicKey : Bytes) : Option Id :=
  match unsealBytes topicKey (frame.take stampLength) (frame.drop stampLength) with
  | .error _ => none
  | .ok opened =>
    match SignedMessage.ofBytes opened with
    | .error _ => none
    | .ok message => some message.signer

namespace Use

/-- **What a use reads**, by the kind of material. -/
def Reads : KeyType → Use → Part → Prop
  | .shared, .unprotectCommand _, part | .shared, .commandKey, part => part = .key
  | .shared, _, _ => False
  | .signer, .protect .., part | .signer, .unprotectCommand _, part | .signer, .publicKey, part =>
    part = .key
  | .signer, .unprotect frame topicKey, part =>
    ∃ id, Frame.signer? frame topicKey = some id ∧ part = .entry id
  | .signer, .addPublicKey bs _, part | .signer, .publicKeyOf bs, part
  | .signer, .removePublicKey bs, part => ∃ id : Id, id.octets.toList = bs ∧ part = .entry id
  | .signer, .publicKeys, part | .signer, .clearPublicKeys, part => ∃ id, part = .entry id
  | .signer, _, _ => False

/-- **What a use writes.** -/
def Writes : KeyType → Use → Part → Prop
  | _, .setKey _, part => part = .key
  | .signer, .addPublicKey bs _, part | .signer, .removePublicKey bs, part =>
    ∃ id : Id, id.octets.toList = bs ∧ part = .entry id
  | .signer, .clearPublicKeys, part => ∃ id, part = .entry id
  | _, _, _ => False

end Use

/-! ## The parts after a use -/

/-- The key of a signer in the directory of material. -/
def Material.entry (m : Material) (id : Id) : Option PublicKey :=
  m.directory?.bind (SortedMap.get? · id)

/-- What a use puts for an identifier, if it concerns it: a key or, by a removal, none. -/
def Use.entryGiven? (kind : KeyType) (use : Use) (id : Id) : Option (Option PublicKey) :=
  match kind, use with
  | .signer, .addPublicKey bs key =>
    if id.octets.toList = bs then (PublicKey.ofBytes key).toOption.map some else none
  | .signer, .removePublicKey bs => if id.octets.toList = bs then some none else none
  | .signer, .clearPublicKeys => some none
  | _, _ => none

namespace Material

variable {m m' : Material}

theorem keyType_eq_of_identity (h : m.identity = m'.identity) : m.keyType = m'.keyType := by
  cases m <;> cases m' <;> first | rfl | exact absurd h (by simp [identity])

theorem identity_step (m : Material) (now : Instant) (use : Use) :
    (m.step now use).1.identity = m.identity := by
  rcases m.step_cases now use with ⟨hm, -⟩ | ⟨-, -, ⟨hm, -⟩ | hchange⟩
  · rw [hm]
  · rw [hm]
  · exact hchange.identity

/-- **The key after a use** is the one set, if it is accepted, or the key before. -/
theorem heldKey_step (m : Material) (now : Instant) (use : Use) :
    (m.step now use).1.heldKey =
      match use with
      | .setKey bs => (m.keyOf bs).toOption.getD m.heldKey
      | _ => m.heldKey := by
  rcases m.step_cases now use with ⟨hm, fault, hfault⟩ | ⟨-, -, ⟨hm, hquestion⟩ | hchange⟩
  · rw [hm]
    cases use with
    | setKey bs =>
      cases hkey : m.keyOf bs with
      | error keyFault => simp only [hkey, Except.toOption, Option.getD_none]
      | ok key =>
        -- a key that is accepted would have been set
        obtain ⟨m', hchange⟩ := exists_change_of_keyOf hkey
        exact absurd (hfault.symm.trans (step_of_change hchange now).2) (by simp)
    | _ => rfl
  · rw [hm]
    cases use with
    | setKey bs => exact absurd hquestion (by simp [Use.isQuestion])
    | _ => rfl
  · generalize (m.step now use).1 = m' at hchange
    cases hchange with
    | commandKey accepted => simp [keyOf, accepted, heldKey, Except.map, Except.toOption]
    | privateKey accepted => simp [keyOf, accepted, heldKey, Except.map, Except.toOption]
    | addition | removal | clearing => rfl

theorem entry_signer (s : SignerMaterial) (id : Id) :
    (Material.signer s).entry id = SortedMap.get? s.directory id := rfl

/-- The identifier of bytes is the only one that has these bytes. -/
theorem toList_eq_iff_of_ofBytes {bs : Bytes} {i : Id} (h : Id.ofBytes bs = .ok i) (id : Id) :
    id.octets.toList = bs ↔ id = i := by
  rw [← Id.ofBytes_eq_ok_iff, h, Except.ok.injEq, eq_comm]

/-- A use that cannot change material gives its entries nothing new. -/
theorem entryGiven?_of_unchanged {use : Use} (h : ∀ m', ¬ Change m use m') (id : Id) :
    (use.entryGiven? m.keyType id).getD (m.entry id) = m.entry id := by
  cases m with
  | shared s => rfl
  | signer s =>
    cases use with
    | addPublicKey bs key =>
      simp only [keyType, Use.entryGiven?]
      split
      · rename_i hid
        cases hkey : PublicKey.ofBytes key with
        | error keyFault => rfl
        | ok k => exact absurd (.addition (Id.ofBytes_eq_ok_iff.2 hid) hkey) (h _)
      · rfl
    | removePublicKey bs =>
      simp only [keyType, Use.entryGiven?, entry_signer]
      split
      · rename_i hid
        -- a key that is there would have been removed
        have hunknown : SortedMap.get? s.directory id = none := by
          rw [← Option.not_isSome_iff_eq_none]
          exact fun hknown => h _ (.removal (Id.ofBytes_eq_ok_iff.2 hid) hknown)
        exact hunknown.symm
      · rfl
    | clearPublicKeys => exact absurd .clearing (h _)
    | _ => rfl

/-- A question gives nothing. -/
theorem entryGiven?_of_isQuestion {kind : KeyType} {use : Use} (h : use.isQuestion = true)
    (id : Id) : use.entryGiven? kind id = none := by
  cases use with
  | addPublicKey | removePublicKey | clearPublicKeys => exact absurd h (by simp [Use.isQuestion])
  | _ => cases kind <;> rfl

/-- A change leaves the entries that it gives. -/
theorem entry_of_change {use : Use} (h : Change m use m') (id : Id) :
    m'.entry id = (use.entryGiven? m.keyType id).getD (m.entry id) := by
  cases h with
  | commandKey | privateKey => rfl
  | addition acceptedId acceptedKey =>
    simp only [keyType, Use.entryGiven?, toList_eq_iff_of_ofBytes acceptedId, acceptedKey,
      entry_signer, SortedMap.get?_insert]
    split <;> rfl
  | removal accepted known =>
    simp only [keyType, Use.entryGiven?, toList_eq_iff_of_ofBytes accepted, entry_signer,
      SortedMap.get?_erase]
    split <;> rfl
  | clearing => rfl

/-- **The entry of a signer after a use** is what the use gives, or the entry before. -/
theorem entry_step (m : Material) (now : Instant) (use : Use) (id : Id) :
    (m.step now use).1.entry id = (use.entryGiven? m.keyType id).getD (m.entry id) := by
  rcases m.step_cases now use with ⟨hm, fault, hfault⟩ | ⟨-, -, ⟨hm, hquestion⟩ | hchange⟩
  · -- a change that is possible would have been made
    have hnot : ∀ m', ¬ Change m use m' := fun m' hchange =>
      absurd (hfault.symm.trans (step_of_change hchange now).2) (by simp)
    rw [hm, entryGiven?_of_unchanged hnot]
  · rw [hm, entryGiven?_of_isQuestion hquestion, Option.getD_none]
  · exact entry_of_change hchange id

/-! ## Agreement -/

/-- **Materials that agree on some parts**, and are made as the same. -/
structure AgreeOn (parts : Part → Prop) (m m' : Material) : Prop where
  identity : m.identity = m'.identity
  key : parts .key → m.heldKey = m'.heldKey
  entry : ∀ id, parts (.entry id) → m.entry id = m'.entry id

theorem AgreeOn.refl (parts : Part → Prop) (m : Material) : AgreeOn parts m m :=
  ⟨rfl, fun _ => rfl, fun _ _ => rfl⟩

theorem AgreeOn.mono {parts parts' : Part → Prop} (h : AgreeOn parts m m')
    (hparts : ∀ part, parts' part → parts part) : AgreeOn parts' m m' :=
  ⟨h.identity, fun hkey => h.key (hparts _ hkey), fun id hid => h.entry id (hparts _ hid)⟩

theorem keyOf_eq_of_identity (h : m.identity = m'.identity) (bs : Bytes) :
    m.keyOf bs = m'.keyOf bs := by
  cases m <;> cases m' <;> first | rfl | exact absurd h (by simp [identity])

/-- **The same use on both sides keeps an agreement**, on every part by itself. -/
theorem AgreeOn.step {parts : Part → Prop} (h : AgreeOn parts m m') (now : Instant) (use : Use) :
    AgreeOn parts (m.step now use).1 (m'.step now use).1 where
  identity := by rw [identity_step, identity_step, h.identity]
  key hkey := by
    rw [heldKey_step, heldKey_step, h.key hkey]
    cases use with
    | setKey bs => simp only [keyOf_eq_of_identity h.identity]
    | _ => rfl
  entry id hid := by
    rw [entry_step, entry_step, keyType_eq_of_identity h.identity, h.entry id hid]

theorem entryGiven?_eq_none {kind : KeyType} {use : Use} {id : Id}
    (h : ¬ use.Writes kind (.entry id)) : use.entryGiven? kind id = none := by
  cases kind with
  | shared => rfl
  | signer =>
    cases use with
    | addPublicKey bs key => exact if_neg fun hid => h ⟨id, hid, rfl⟩
    | removePublicKey bs => exact if_neg fun hid => h ⟨id, hid, rfl⟩
    | clearPublicKeys => exact absurd ⟨id, rfl⟩ h
    | _ => rfl

/-- **So does a use on one side that writes none of the parts.** -/
theorem AgreeOn.skip {parts : Part → Prop} (h : AgreeOn parts m m') (now : Instant) {use : Use}
    (hwrites : ∀ part, parts part → ¬ use.Writes m.keyType part) :
    AgreeOn parts (m.step now use).1 m' where
  identity := by rw [identity_step, h.identity]
  key hkey := by
    rw [heldKey_step, ← h.key hkey]
    cases use with
    | setKey bs => exact absurd (by cases m <;> rfl) (hwrites _ hkey)
    | _ => rfl
  entry id hid := by
    rw [entry_step, entryGiven?_eq_none (hwrites _ hid)]
    exact h.entry id hid

end Material

/-! ## Reports -/

/-- **The answer to a message depends on the directory only through the entry of its signer.** -/
theorem SignerMaterial.unprotect_congr {m m' : SignerMaterial} {frame topicKey : Bytes}
    (h : ∀ id, Frame.signer? frame topicKey = some id →
      SortedMap.get? m.directory id = SortedMap.get? m'.directory id) (now : Instant) :
    m.unprotect now frame topicKey = m'.unprotect now frame topicKey := by
  cases hopened : (Frame.unprotect now frame topicKey).outcome with
  | error fault => rw [unprotect_of_refused hopened, unprotect_of_refused hopened]
  | ok opened =>
    cases hread : SignedMessage.ofBytes opened with
    | error fault => rw [unprotect_of_unreadable hopened hread, unprotect_of_unreadable hopened hread]
    | ok message =>
      have hunsealed := (Frame.outcome_unprotect_eq_ok_iff.1 hopened).2.2
      have hsigner : Frame.signer? frame topicKey = some message.signer := by
        unfold Frame.signer?
        simp only [hunsealed, hread]
      have hentry := h message.signer hsigner
      obtain rfl := SignedMessage.toBytes_of_ofBytes hread
      cases hkey : SortedMap.get? m'.directory message.signer with
      | none =>
        rw [unprotect_of_unknown hopened (hentry.trans hkey), unprotect_of_unknown hopened hkey]
      | some key =>
        rw [unprotect_of_known hopened (hentry.trans hkey), unprotect_of_known hopened hkey]

namespace SignerMaterial

/-! What a signer answers to a use of the directory depends on the entries that the use is about. -/

variable {m m' : SignerMaterial} {bs : Bytes}

theorem answered_setKey_congr (hid : m.id = m'.id) (bs : Bytes) :
    (m.setKey bs).answered = (m'.setKey bs).answered := by
  rw [setKey_eq, setKey_eq, hid]
  cases SecretKey.ofBytes bs <;> rfl

section Entry

variable (h : ∀ i : Id, i.octets.toList = bs →
  SortedMap.get? m.directory i = SortedMap.get? m'.directory i)

include h

theorem answered_addPublicKey_congr (key : Bytes) :
    (m.addPublicKey bs key).answered = (m'.addPublicKey bs key).answered := by
  rw [addPublicKey_eq, addPublicKey_eq]
  cases hid : Id.ofBytes bs with
  | error fault => rfl
  | ok i =>
    cases PublicKey.ofBytes key with
    | error fault => rfl
    | ok k =>
      dsimp only
      rw [h i (Id.ofBytes_eq_ok_iff.1 hid)]
      rfl

theorem answered_removePublicKey_congr :
    (m.removePublicKey bs).answered = (m'.removePublicKey bs).answered := by
  rw [removePublicKey_eq, removePublicKey_eq]
  cases hid : Id.ofBytes bs with
  | error fault => rfl
  | ok i =>
    dsimp only
    rw [h i (Id.ofBytes_eq_ok_iff.1 hid)]
    split <;> rfl

theorem publicKeyOf_congr : m.publicKeyOf bs = m'.publicKeyOf bs := by
  unfold publicKeyOf
  cases hid : Id.ofBytes bs with
  | error fault => rfl
  | ok i =>
    show (Directory.get m.directory i).mapError _ = (Directory.get m'.directory i).mapError _
    unfold Directory.get
    rw [h i (Id.ofBytes_eq_ok_iff.1 hid)]

end Entry

end SignerMaterial

namespace Material

variable {m m' : Material}

theorem report_of_agreeOn_shared {s s' : SharedMaterial} {use : Use}
    (h : AgreeOn (use.Reads .shared) (.shared s) (.shared s')) (now : Instant) :
    ((Material.shared s).step now use).2 = ((Material.shared s').step now use).2 := by
  have hread : use.Reads .shared .key → s = s' := fun hkey => by
    obtain ⟨key⟩ := s
    obtain ⟨key'⟩ := s'
    exact congrArg SharedMaterial.mk (HeldKey.command.inj (h.key hkey))
  -- all that is not listed here does not look at the key
  cases use with
  | unprotectCommand frame => rw [hread rfl]
  | commandKey => rw [hread rfl]
  | setKey bs =>
    show (Material.change _ _).2 = (Material.change _ _).2
    rw [snd_change, snd_change]
    rfl
  | _ => rfl

/-- What is reported on a change of a signer is what the change answers. -/
theorem snd_changeSigner (s : SignerMaterial)
    (r : SignerMaterial → Report MaterialFault SignerMaterial) :
    ((Material.signer s).changeSigner r).2 = (r s).answered.mapError .material := by
  show ((Material.signer s).change do return .signer (← r s)).2 = _
  rw [snd_change, Report.answered_map]

theorem report_of_agreeOn_signer {s s' : SignerMaterial} {use : Use}
    (h : AgreeOn (use.Reads .signer) (.signer s) (.signer s')) (now : Instant) :
    ((Material.signer s).step now use).2 = ((Material.signer s').step now use).2 := by
  obtain ⟨id, key, controller, directory⟩ := s
  obtain ⟨id', key', controller', directory'⟩ := s'
  obtain ⟨rfl, rfl⟩ := Identity.signer.inj h.identity
  have hkey : use.Reads .signer .key → key = key' := fun hkey => HeldKey.signing.inj (h.key hkey)
  have hentry : ∀ i, use.Reads .signer (.entry i) →
      SortedMap.get? directory i = SortedMap.get? directory' i := h.entry
  -- all that is not listed here looks at the identity alone
  cases use with
  | protect payload topicKey =>
    obtain rfl := hkey rfl
    rfl
  | unprotectCommand frame =>
    obtain rfl := hkey rfl
    rfl
  | publicKey =>
    obtain rfl := hkey rfl
    rfl
  | unprotect frame topicKey =>
    exact congrArg (fun r => ((inBytes r).mapError UseFault.material))
      (SignerMaterial.unprotect_congr (fun i hi => hentry i ⟨i, hi, rfl⟩) now)
  | setKey bs =>
    show (changeSigner (.signer _) (·.setKey bs)).2 = (changeSigner (.signer _) (·.setKey bs)).2
    rw [snd_changeSigner, snd_changeSigner]
    apply congrArg
    refine SignerMaterial.answered_setKey_congr ?_ bs
    rfl
  | addPublicKey bs key =>
    show (changeSigner _ _).2 = (changeSigner _ _).2
    rw [snd_changeSigner, snd_changeSigner]
    apply congrArg
    exact SignerMaterial.answered_addPublicKey_congr (fun i hi => hentry i ⟨i, hi, rfl⟩) key
  | removePublicKey bs =>
    show (changeSigner _ _).2 = (changeSigner _ _).2
    rw [snd_changeSigner, snd_changeSigner]
    apply congrArg
    exact SignerMaterial.answered_removePublicKey_congr fun i hi => hentry i ⟨i, hi, rfl⟩
  | publicKeyOf bs =>
    have hfound : SignerMaterial.publicKeyOf ⟨id, key, controller, directory⟩ bs =
        SignerMaterial.publicKeyOf ⟨id, key', controller, directory'⟩ bs :=
      SignerMaterial.publicKeyOf_congr fun i hi => hentry i ⟨i, hi, rfl⟩
    show Report.mapError _ (inBytes (.ofExcept (Except.map _ (SignerMaterial.publicKeyOf _ _)))) = _
    rw [hfound]
    rfl
  | publicKeys =>
    obtain rfl := SortedMap.ext_get? fun i => hentry i ⟨i, rfl⟩
    rfl
  | clearPublicKeys =>
    obtain rfl := SortedMap.ext_get? fun i => hentry i ⟨i, rfl⟩
    rfl
  | _ => rfl

/-- **A use reports on nothing but what it reads.** -/
theorem report_of_agreeOn {use : Use} (h : AgreeOn (use.Reads m.keyType) m m') (now : Instant) :
    (m.step now use).2 = (m'.step now use).2 := by
  cases m with
  | shared s =>
    cases m' with
    | shared s' => exact report_of_agreeOn_shared h now
    | signer s' => exact absurd h.identity (by simp [identity])
  | signer s =>
    cases m' with
    | shared s' => exact absurd h.identity (by simp [identity])
    | signer s' => exact report_of_agreeOn_signer h now

end Material

end SealedMessaging
