import SealedMessaging.Proofs.Material.Footprints

/-!
# Runs of independent uses

In a run on one material, each use has its own time. A use that writes nothing that another reads can
be put anywhere in the run, or left out, without any effect on the reports about the other. Which uses
these are follows from what they read and write.

* `Session.reportsOn`: the reports of a run on some of its uses.
* `Session.Unaffected`: uses that can be inserted and deleted without an effect on others.
* `Material.reportsOn_filter`: a run and the same run without some uses, by induction.
* `Session.uses_do_not_interfere`: the uses that do not interfere, and sequences of them in any order.
-/

namespace SealedMessaging

/-- A use of material at a time of its own. -/
structure TimedUse where
  now : Instant
  use : Use
  deriving DecidableEq

/-- The step of a session that makes the use of the material of a name. -/
def TimedUse.step (name : String) (t : TimedUse) : Step :=
  ⟨name, some t.now, none, .use t.use⟩

namespace Use

/-! ## Classes of uses -/

/-- Whether a use protects or opens a message. -/
def isMessage : Use → Bool
  | .protect .. | .unprotect .. => true
  | _ => false

/-- Whether a use protects a message. -/
def isProtect : Use → Bool
  | .protect .. => true
  | _ => false

/-- Whether a use opens a message. -/
def isUnprotect : Use → Bool
  | .unprotect .. => true
  | _ => false

/-- Whether a use opens a command. -/
def isCommand : Use → Bool
  | .unprotectCommand _ => true
  | _ => false

/-- Whether a use replaces the material's own key. -/
def isKeyChange : Use → Bool
  | .setKey _ => true
  | _ => false

/-- Whether a use registers, removes or asks for public keys of other signers. -/
def isOnDirectory : Use → Bool
  | .addPublicKey .. | .publicKeyOf _ | .publicKeys | .removePublicKey _ | .clearPublicKeys => true
  | _ => false

/-- Whether a use registers or removes the public key of someone else than a given signer. -/
def isOnOther (signer : Option Id) : Use → Bool
  | .addPublicKey bs _ | .removePublicKey bs => signer.all fun id => id.octets.toList ≠ bs
  | _ => false

section Classes

variable {u : Use} {kind : KeyType} {part : Part}

theorem not_reads_of_isMessage (h : u.isMessage = true) : ¬ u.Reads .shared part := by
  cases u with
  | protect | unprotect => exact id
  | _ => exact absurd h (by simp [isMessage])

theorem not_writes_of_isMessage (h : u.isMessage = true) : ¬ u.Writes kind part := by
  cases u with
  | protect | unprotect => cases kind <;> exact id
  | _ => exact absurd h (by simp [isMessage])

/-- Protecting messages and opening commands takes the key alone. -/
theorem eq_key_of_reads (h : (u.isProtect || u.isCommand) = true) (hreads : u.Reads .signer part) :
    part = .key := by
  cases u with
  | protect | unprotectCommand => exact hreads
  | _ => exact absurd h (by simp [isProtect, isCommand])

theorem eq_key_of_writes (h : u.isKeyChange = true) (hwrites : u.Writes .signer part) :
    part = .key := by
  cases u with
  | setKey bs => exact hwrites
  | _ => exact absurd h (by simp [isKeyChange])

theorem exists_entry_of_reads (h : u.isUnprotect = true) (hreads : u.Reads .signer part) :
    ∃ id, part = .entry id := by
  cases u with
  | unprotect frame topicKey =>
    obtain ⟨id, -, hpart⟩ := hreads
    exact ⟨id, hpart⟩
  | _ => exact absurd h (by simp [isUnprotect])

theorem exists_entry_of_writes (h : u.isOnDirectory = true) (hwrites : u.Writes .signer part) :
    ∃ id, part = .entry id := by
  cases u with
  | addPublicKey | removePublicKey =>
    obtain ⟨id, -, hpart⟩ := hwrites
    exact ⟨id, hpart⟩
  | clearPublicKeys => exact hwrites
  | publicKeyOf | publicKeys => exact absurd hwrites id
  | _ => exact absurd h (by simp [isOnDirectory])

/-- What is done with others does not touch the entry of the signer. -/
theorem ne_of_isOnOther {signer id : Id} (h : u.isOnOther (some signer) = true)
    (hwrites : u.Writes .signer (.entry id)) : id ≠ signer := by
  cases u with
  | addPublicKey | removePublicKey =>
    obtain ⟨written, hbytes, hpart⟩ := hwrites
    obtain rfl := Part.entry.inj hpart
    rintro rfl
    simp only [isOnOther, Option.all_some, decide_eq_true_eq] at h
    exact h hbytes
  | _ => exact absurd h (by simp [isOnOther])

end Classes

/-- **Two uses are independent** if neither writes what the other reads. -/
def Independent (kind : KeyType) (u v : Use) : Prop :=
  ∀ part, (u.Reads kind part → ¬ v.Writes kind part) ∧ (v.Reads kind part → ¬ u.Writes kind part)

end Use

namespace Session

/-- **The reports of a run on some of its uses**, each with the use it is about. -/
def reportsOn (s : Session) (name : String) (observed : Use → Bool) (uses : List TimedUse) :
    List (TimedUse × Report StepFault Answer) :=
  (uses.zip ((s.run (uses.map (TimedUse.step name))).map Prod.fst)).filter fun r => observed r.1.use

/-- **Some uses have no effect on others**: wherever they are inserted into a run or deleted from it,
the reports on the others stay as they are. -/
def Unaffected (s : Session) (name : String) (changing observed : Use → Bool) : Prop :=
  ∀ uses uses' : List TimedUse,
    (uses.filter fun t => !changing t.use) = (uses'.filter fun t => !changing t.use) →
      s.reportsOn name observed uses = s.reportsOn name observed uses'

end Session

namespace Material

/-! ## Runs of material -/

/-- The reports on some of several uses of material. -/
def reportsOn (observed : Use → Bool) (m : Material) :
    List TimedUse → List (TimedUse × Report StepFault Answer)
  | [] => []
  | t :: rest =>
    if observed t.use then
      (t, (m.step t.now t.use).2.mapError .use) :: reportsOn observed (m.step t.now t.use).1 rest
    else reportsOn observed (m.step t.now t.use).1 rest

theorem keyType_step (m : Material) (now : Instant) (use : Use) :
    (m.step now use).1.keyType = m.keyType :=
  keyType_eq_of_identity (m.identity_step now use)

/-- **Uses can be left out of a run** if they write none of the parts that the observed uses read. The
two runs go on from materials that agree on these parts, and every step keeps the agreement. -/
theorem reportsOn_filter (parts : Part → Prop) (kept : Use → Bool) {observed : Use → Bool}
    {m m' : Material} {uses : List TimedUse} (hagree : AgreeOn parts m m')
    (hobserved : ∀ t ∈ uses, observed t.use = true →
      kept t.use = true ∧ ∀ part, t.use.Reads m.keyType part → parts part)
    (hleft : ∀ t ∈ uses, kept t.use = false → ∀ part, parts part → ¬ t.use.Writes m.keyType part) :
    reportsOn observed m uses = reportsOn observed m' (uses.filter fun t => kept t.use) := by
  induction uses generalizing m m' with
  | nil => rfl
  | cons t rest ih =>
    obtain ⟨hfirst, hobserved⟩ := List.forall_mem_cons.1 hobserved
    obtain ⟨hleftFirst, hleft⟩ := List.forall_mem_cons.1 hleft
    rw [← keyType_step m t.now t.use] at hobserved hleft
    cases hkept : kept t.use with
    | false =>
      have hnot : observed t.use = false := by
        cases h : observed t.use with
        | false => rfl
        | true => exact absurd ((hfirst h).1.symm.trans hkept) (by simp)
      have hskip := hagree.skip t.now (hleftFirst hkept)
      rw [List.filter_cons_of_neg (by simp [hkept]), ← ih hskip hobserved hleft]
      simp only [reportsOn, hnot, Bool.false_eq_true, if_false]
    | true =>
      have hrest := ih (hagree.step t.now t.use) hobserved hleft
      rw [List.filter_cons_of_pos (by simp [hkept])]
      simp only [reportsOn, hrest]
      cases h : observed t.use with
      | false => rfl
      | true =>
        have hreport := report_of_agreeOn (hagree.mono (hfirst h).2) t.now
        simp only [hreport]

end Material

namespace Session

variable {s : Session} {name : String} {m : Material}

/-- The run of a session is that of the material. -/
theorem reportsOn_eq (hheld : s.material? name = some m) (observed : Use → Bool)
    (uses : List TimedUse) : s.reportsOn name observed uses = m.reportsOn observed uses := by
  induction uses generalizing s m with
  | nil => rfl
  | cons t rest ih =>
    have hstep : s.step (t.step name) = ((s.prepare (t.step name)).put name (m.step t.now t.use).1,
        (m.step t.now t.use).2.mapError .use) := step_use rfl hheld
    have hnext : (s.step (t.step name)).1.material? name = some (m.step t.now t.use).1 := by
      rw [hstep]
      show ((s.prepare (t.step name)).materials.insert name _).get? name = _
      rw [SortedMap.get?_insert, if_pos rfl]
    have hreport : (s.step (t.step name)).2 = (m.step t.now t.use).2.mapError .use := by
      rw [hstep]
    have hrest := ih hnext
    unfold reportsOn at hrest ⊢
    rw [List.map_cons, run, List.map_cons, List.zip_cons_cons, List.filter_cons, hrest, hreport]
    rfl

/-- **What writes nothing that the observed uses read has no effect on them.** -/
theorem unaffected_of_independent (hheld : s.material? name = some m)
    {changing observed : Use → Bool} (hapart : ∀ v, observed v = true → changing v = false)
    (hindependent : ∀ u v, changing u = true → observed v = true →
      ∀ part, v.Reads m.keyType part → ¬ u.Writes m.keyType part) :
    s.Unaffected name changing observed := by
  intro uses uses' h
  have hleft : ∀ uses, m.reportsOn observed uses =
      m.reportsOn observed (uses.filter fun t => !changing t.use) := by
    intro uses
    refine Material.reportsOn_filter (fun part => ∃ v, observed v = true ∧ v.Reads m.keyType part)
      (fun u => !changing u) (.refl _ m) (fun t _ ht => ?_) fun t _ ht part => ?_
    · exact ⟨by simp [hapart _ ht], fun part hpart => ⟨t.use, ht, hpart⟩⟩
    · rintro ⟨v, hv, hread⟩
      exact hindependent t.use v (by simpa using ht) hv part hread
  rw [reportsOn_eq hheld, reportsOn_eq hheld, hleft uses, hleft uses', h]

/-- A class of uses gives the same reports alone, if it is independent of the others in the run. -/
theorem reportsOn_alone (hheld : s.material? name = some m) (kept : Use → Bool)
    {uses : List TimedUse} (hindependent : ∀ t ∈ uses, ∀ u ∈ uses, kept t.use = true →
      kept u.use = false → ∀ part, t.use.Reads m.keyType part → ¬ u.use.Writes m.keyType part) :
    s.reportsOn name kept uses = m.reportsOn kept (uses.filter fun t => kept t.use) := by
  rw [reportsOn_eq hheld]
  refine Material.reportsOn_filter
    (fun part => ∃ t ∈ uses, kept t.use = true ∧ t.use.Reads m.keyType part) kept
    (.refl _ m) (fun t ht hkept => ?_) fun u hu hleft part => ?_
  · exact ⟨hkept, fun part hpart => ⟨t, ht, hkept, hpart⟩⟩
  · rintro ⟨t, ht, hkept, hread⟩
    exact hindependent t ht u hu hkept hleft part hread

/-- **Two sequences of uses that are independent of each other** can be put together in any way. -/
theorem reportsOn_of_orders (hheld : s.material? name = some m) {traffic : Use → Bool}
    {uses uses' : List TimedUse}
    (htraffic : (uses.filter fun t => traffic t.use) = uses'.filter fun t => traffic t.use)
    (hothers : (uses.filter fun t => !traffic t.use) = uses'.filter fun t => !traffic t.use)
    (hindependent : ∀ t ∈ uses, ∀ u ∈ uses, traffic t.use = true → traffic u.use = false →
      t.use.Independent m.keyType u.use) :
    s.reportsOn name traffic uses = s.reportsOn name traffic uses' ∧
      s.reportsOn name (fun u => !traffic u) uses =
        s.reportsOn name (fun u => !traffic u) uses' := by
  have hsame : ∀ t ∈ uses', t ∈ uses := by
    intro t ht
    cases h : traffic t.use with
    | true =>
      have hmem : t ∈ uses'.filter fun t => traffic t.use := List.mem_filter.2 ⟨ht, h⟩
      exact (List.mem_filter.1 (htraffic ▸ hmem)).1
    | false =>
      have hmem : t ∈ uses'.filter fun t => !traffic t.use := List.mem_filter.2 ⟨ht, by simp [h]⟩
      exact (List.mem_filter.1 (hothers ▸ hmem)).1
  have hreads : ∀ t ∈ uses, ∀ u ∈ uses, traffic t.use = true → traffic u.use = false →
      ∀ part, t.use.Reads m.keyType part → ¬ u.use.Writes m.keyType part :=
    fun t ht u hu h h' part => (hindependent t ht u hu h h' part).1
  have hread : ∀ t ∈ uses, ∀ u ∈ uses, (!traffic t.use) = true → (!traffic u.use) = false →
      ∀ part, t.use.Reads m.keyType part → ¬ u.use.Writes m.keyType part :=
    fun t ht u hu h h' part =>
      (hindependent u hu t ht (by simpa using h') (by simpa using h) part).2
  constructor
  · rw [reportsOn_alone hheld traffic hreads, htraffic]
    exact (reportsOn_alone hheld traffic
      fun t ht u hu => hreads t (hsame t ht) u (hsame u hu)).symm
  · rw [reportsOn_alone hheld (fun u => !traffic u) hread, hothers]
    exact (reportsOn_alone hheld (fun u => !traffic u)
      fun t ht u hu => hread t (hsame t ht) u (hsame u hu)).symm

/-- **Independent uses do not interfere**, in any order. On shared material, changes of the key and
commands have no effect on messages, and messages none on commands. On a signer's material, what is
done with the directory has no effect on protecting messages and on opening commands, and a change of
the key none on opening messages; the answer to a message depends on the directory only through the
entry of the signer whose identifier it carries, so that what is done with other entries has no effect
on it. And two sequences of uses, none of which writes what one of the other sequence reads, give the
same reports however they are put together. -/
theorem uses_do_not_interfere (s : Session) (name : String) :
    (∀ m, s.material? name = some (.shared m) →
      s.Unaffected name (fun u => u.isKeyChange || u.isCommand) Use.isMessage ∧
      s.Unaffected name Use.isMessage Use.isCommand) ∧
    (∀ m, s.material? name = some (.signer m) →
      s.Unaffected name Use.isOnDirectory (fun u => u.isProtect || u.isCommand) ∧
      s.Unaffected name Use.isKeyChange Use.isUnprotect ∧
      ∀ frame topicKey, s.Unaffected name (Use.isOnOther (Frame.signer? frame topicKey))
        fun u => u = .unprotect frame topicKey) ∧
    (∀ (m m' : SignerMaterial) (now : Instant) (frame topicKey : Bytes),
      (∀ id, Frame.signer? frame topicKey = some id →
        m.directory.get? id = m'.directory.get? id) →
      m.unprotect now frame topicKey = m'.unprotect now frame topicKey) ∧
    ∀ m, s.material? name = some m → ∀ (traffic : Use → Bool) (uses uses' : List TimedUse),
      (uses.filter fun t => traffic t.use) = (uses'.filter fun t => traffic t.use) →
      (uses.filter fun t => !traffic t.use) = (uses'.filter fun t => !traffic t.use) →
      (∀ t ∈ uses, ∀ u ∈ uses, traffic t.use = true → traffic u.use = false →
        t.use.Independent m.keyType u.use) →
      s.reportsOn name traffic uses = s.reportsOn name traffic uses' ∧
        s.reportsOn name (fun u => !traffic u) uses =
          s.reportsOn name (fun u => !traffic u) uses' := by
  refine ⟨fun m hheld => ⟨?_, ?_⟩, fun m hheld => ⟨?_, ?_, fun frame topicKey => ?_⟩, ?_, ?_⟩
  · refine unaffected_of_independent hheld (fun v hv => ?_) fun u v hu hv part hread => ?_
    · cases v <;> simp_all [Use.isMessage, Use.isKeyChange, Use.isCommand]
    · exact absurd hread (Use.not_reads_of_isMessage hv)
  · refine unaffected_of_independent hheld (fun v hv => ?_) fun u v hu hv part hread => ?_
    · cases v <;> simp_all [Use.isMessage, Use.isCommand]
    · exact Use.not_writes_of_isMessage hu
  · refine unaffected_of_independent hheld (fun v hv => ?_) fun u v hu hv part hread hwrite => ?_
    · cases v <;> simp_all [Use.isOnDirectory, Use.isProtect, Use.isCommand]
    · obtain ⟨id, hentry⟩ := Use.exists_entry_of_writes hu hwrite
      exact absurd ((Use.eq_key_of_reads hv hread).symm.trans hentry) (by simp)
  · refine unaffected_of_independent hheld (fun v hv => ?_) fun u v hu hv part hread hwrite => ?_
    · cases v <;> simp_all [Use.isKeyChange, Use.isUnprotect]
    · obtain ⟨id, hentry⟩ := Use.exists_entry_of_reads hv hread
      exact absurd ((Use.eq_key_of_writes hu hwrite).symm.trans hentry) (by simp)
  · refine unaffected_of_independent hheld (fun v hv => ?_) fun u v hu hv part hread hwrite => ?_
    · rw [of_decide_eq_true hv]
      rfl
    · rw [of_decide_eq_true hv] at hread
      obtain ⟨id, hsigner, rfl⟩ := hread
      rw [hsigner] at hu
      exact Use.ne_of_isOnOther hu hwrite rfl
  · intro m m' now frame topicKey h
    exact SignerMaterial.unprotect_congr h now
  · intro m hheld traffic uses uses' htraffic hothers hindependent
    exact reportsOn_of_orders hheld htraffic hothers hindependent

/-- The material of a signer who knows nobody. -/
def lonelySigner : SignerMaterial :=
  ⟨⟨.zero 16⟩, ⟨.zero 32⟩, .fit 32 [9], SortedMap.empty⟩

/-- A payload of one byte is protected. -/
def protecting : TimedUse := ⟨.epoch, .protect [7] (List.replicate 32 1)⟩

/-- A public key is registered. -/
def registering : TimedUse := ⟨.epoch, .addPublicKey (List.replicate 16 1) (List.replicate 32 1)⟩

/-- A registration before a message is protected, left out and put after it. -/
theorem uses_do_not_interfere_registering :
    let s := (start .epoch).put "signer" (.signer lonelySigner)
    s.reportsOn "signer" (fun u => u.isProtect || u.isCommand) [registering, protecting] =
        s.reportsOn "signer" (fun u => u.isProtect || u.isCommand) [protecting] ∧
      s.reportsOn "signer" Use.isMessage [registering, protecting] =
        s.reportsOn "signer" Use.isMessage [protecting, registering] := by
  intro s
  have hheld : s.material? "signer" = some (.signer lonelySigner) := SortedMap.get?_insert _ _ _ _
  obtain ⟨-, hsigner, -, horders⟩ := uses_do_not_interfere s "signer"
  refine ⟨(hsigner _ hheld).1 _ _ rfl, (horders _ hheld Use.isMessage _ _ rfl rfl ?_).1⟩
  intro t ht u hu hmessage hother part
  have ht : t = protecting := by
    rcases List.mem_pair.1 ht with rfl | rfl
    · exact absurd hmessage (by decide)
    · rfl
  have hu : u = registering := by
    rcases List.mem_pair.1 hu with rfl | rfl
    · rfl
    · exact absurd hother (by decide)
  subst ht hu
  refine ⟨?_, fun _ hwrite => hwrite⟩
  rintro rfl ⟨id, -, hentry⟩
  exact absurd hentry (by simp)

end Session

end SealedMessaging
