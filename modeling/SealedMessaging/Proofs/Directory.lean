import SealedMessaging.Directory
import SealedMessaging.Proofs.Keys
import SealedMessaging.Proofs.SortedMap

/-!
# A directory is a finite map

What is registered after some commands is what is left when those that succeeded are replayed on a
map without entries. What a command answers, and what is reported on it, depends on this map alone.

* `Directory.after`, `Directory.run`: a directory over several commands.
* `Directory.replayed`: the map that is replayed.
* `Directory.Responds`: what a command answers where given keys are registered, and the lines that
  are reported.
* `Directory.acts_as_map`: a directory holds the map that is replayed, and responds by it.
-/

namespace SealedMessaging

namespace Directory

/-! ## The map -/

/-- **What is registered after a command that succeeds**, by what is registered before it. -/
def Command.write (keys : Id → Option PublicKey) : Command → Id → Option PublicKey
  | .add id key, i => if i.octets.toList = id then some ⟨.fit 32 key⟩ else keys i
  | .insert id key, i => if i = id then some ⟨.fit 32 key⟩ else keys i
  | .remove id, i => if i = id then none else keys i
  | .clear, _ => none
  | .get _, i | .size, i | .isEmpty, i => keys i

/-- The directory after several commands. -/
def after (d : Directory) (commands : List Command) : Directory :=
  commands.foldl (fun d c => (d.step c).1) d

/-- Several commands, each with the report on it. -/
def run (d : Directory) : List Command → List (Command × Report CommandFault Answer)
  | [] => []
  | c :: rest => (c, (d.step c).2) :: run (d.step c).1 rest

/-- **What is registered after commands on a given map** when those that succeeded are replayed. -/
def replay (keys : Id → Option PublicKey) :
    List (Command × Report CommandFault Answer) → Id → Option PublicKey
  | [] => keys
  | (c, r) :: rest =>
    match r.outcome with
    | .ok _ => replay (c.write keys) rest
    | .error _ => replay keys rest

/-- **What is registered after commands**, from no keys on. -/
def replayed (commands : List (Command × Report CommandFault Answer)) : Id → Option PublicKey :=
  replay (fun _ => none) commands

/-! ## What a command responds -/

/-- **The commands that register a key**: both bytes pass their checks. -/
inductive Command.Registers : Command → Id → PublicKey → Prop where
  | add {id : Id} {key : PublicKey} (nonzero : ∃ b ∈ key.toBytes, b ≠ 0) :
      Registers (.add id.octets.toList key.toBytes) id key
  | insert {id : Id} {key : PublicKey} (nonzero : ∃ b ∈ key.toBytes, b ≠ 0) :
      Registers (.insert id key.toBytes) id key

/-- **The identifiers that have a key**, each once. -/
structure Live (keys : Id → Option PublicKey) (ids : List Id) : Prop where
  nodup : ids.Nodup
  mem : ∀ id, id ∈ ids ↔ keys id ≠ none

/-- **What a command answers where given keys are registered**, and the lines that are reported. -/
inductive Responds (keys : Id → Option PublicKey) :
    Command → Except CommandFault Answer → List String → Prop where
  | added {c : Command} {id : Id} {key : PublicKey} (registers : c.Registers id key)
      (new : keys id = none) :
      Responds keys c (.ok .done) ["DEBUG added public key for " ++ id.toHex]
  | replaced {c : Command} {id : Id} {key old : PublicKey} (registers : c.Registers id key)
      (known : keys id = some old) :
      Responds keys c (.ok .done) ["DEBUG replaced public key for " ++ id.toHex]
  | badId {id key : Bytes} (wrong : id.length ≠ 16) :
      Responds keys (.add id key) (.error (.directory (.badId (.wrongLength .id 16 id.length)))) []
  | badKey {id : Id} {key : Bytes} {fault : InputFault} (refused : PublicKey.Refused key fault) :
      Responds keys (.add id.octets.toList key) (.error (.directory (.badKey (.input fault)))) []
  | noKey {id : Id} {key : Bytes} {fault : InputFault} (refused : PublicKey.Refused key fault) :
      Responds keys (.insert id key) (.error (.key (.input fault))) []
  | found {id : Id} {key : PublicKey} (known : keys id = some key) :
      Responds keys (.get id) (.ok (.key key)) []
  | missing {id : Id} (unknown : keys id = none) :
      Responds keys (.get id) (.error (.directory (.unknown id))) []
  | removed {id : Id} {key : PublicKey} (known : keys id = some key) :
      Responds keys (.remove id) (.ok .done) ["DEBUG removed public key for " ++ id.toHex]
  | unremoved {id : Id} (unknown : keys id = none) :
      Responds keys (.remove id) (.error (.directory (.unknown id))) []
  | cleared {ids : List Id} (live : Live keys ids) :
      Responds keys .clear (.ok .done)
        ["DEBUG clearing " ++ toString ids.length ++ " public keys"]
  | counted {ids : List Id} (live : Live keys ids) :
      Responds keys .size (.ok (.count ids.length)) []
  | questioned {ids : List Id} (live : Live keys ids) :
      Responds keys .isEmpty (.ok (.truth (ids.length = 0))) []

/-! ## One command -/

variable {d : Directory} {id : Id} {key : PublicKey} {c : Command}

theorem line_keyAdded (id : Id) :
    (Event.keyAdded id).line = "DEBUG added public key for " ++ id.toHex := by
  unfold Event.line Event.message
  rw [← String.append_assoc]
  rfl

theorem line_keyReplaced (id : Id) :
    (Event.keyReplaced id).line = "DEBUG replaced public key for " ++ id.toHex := by
  unfold Event.line Event.message
  rw [← String.append_assoc]
  rfl

theorem line_keyRemoved (id : Id) :
    (Event.keyRemoved id).line = "DEBUG removed public key for " ++ id.toHex := by
  unfold Event.line Event.message
  rw [← String.append_assoc]
  rfl

theorem line_keysCleared (count : Nat) :
    (Event.keysCleared count).line = "DEBUG clearing " ++ toString count ++ " public keys" := by
  unfold Event.line Event.message
  simp only [← String.append_assoc]
  rfl

/-- A key that passes its check is registered, whichever command it comes with. -/
theorem step_of_registers (registers : c.Registers id key) :
    d.step c = (SortedMap.insert d id key,
      ⟨.ok .done, [if (SortedMap.get? d id).isSome then .keyReplaced id else .keyAdded id]⟩) := by
  have hid : Id.ofBytes id.octets.toList = .ok id := Id.ofBytes_eq_ok_iff.2 rfl
  have hkey : (∃ b ∈ key.toBytes, b ≠ 0) → PublicKey.ofBytes key.toBytes = .ok key := fun nonzero =>
    PublicKey.ofBytes_eq_ok_iff.2 ⟨rfl, Bytes.isZero_eq_false_iff.2 nonzero⟩
  cases registers with
  | add nonzero =>
    simp only [step, add, hid, hkey nonzero]
    rfl
  | insert nonzero =>
    simp only [step, hkey nonzero]
    rfl

theorem step_of_badId {id key : Bytes} (wrong : id.length ≠ 16) :
    d.step (.add id key) =
      (d, .fail (.directory (.badId (.wrongLength .id 16 id.length)))) := by
  simp only [step, add, Id.ofBytes_of_length_ne wrong]
  rfl

theorem step_of_badKey {key : Bytes} {fault : InputFault} (refused : PublicKey.Refused key fault) :
    d.step (.add id.octets.toList key) = (d, .fail (.directory (.badKey (.input fault)))) ∧
      d.step (.insert id key) = (d, .fail (.key (.input fault))) := by
  have hid : Id.ofBytes id.octets.toList = .ok id := Id.ofBytes_eq_ok_iff.2 rfl
  have hkey := PublicKey.ofBytes_of_refused refused
  constructor
  · simp only [step, add, hid, hkey]
    rfl
  · simp only [step, hkey]

theorem step_get_of_some (known : SortedMap.get? d id = some key) :
    d.step (.get id) = (d, ⟨.ok (.key key), []⟩) := by
  simp only [step, get, known]
  rfl

theorem step_of_none (unknown : SortedMap.get? d id = none) :
    d.step (.get id) = (d, .fail (.directory (.unknown id))) ∧
      d.step (.remove id) = (d, .fail (.directory (.unknown id))) := by
  constructor
  · simp only [step, get, unknown]
    rfl
  · simp only [step, remove, unknown]
    rfl

theorem step_remove_of_some (known : SortedMap.get? d id = some key) :
    d.step (.remove id) = (SortedMap.erase d id, ⟨.ok .done, [.keyRemoved id]⟩) := by
  simp only [step, remove, known]
  rfl

/-- The identifiers that have a key are those of the entries. -/
theorem live_entries (d : Directory) : Live (SortedMap.get? d) (d.entries.map Prod.fst) where
  nodup := d.ascending.nodup
  mem id := by
    have hnone : SortedMap.get? d id = none ↔ id ∉ d.entries.map Prod.fst := lookup_eq_none_iff
    rw [ne_eq, hnone, not_not]

/-- There are as many as there are entries, however they are listed. -/
theorem Live.length_eq {ids : List Id} (h : Live (SortedMap.get? d) ids) : ids.length = d.size := by
  have hentries := live_entries d
  have hperm := (List.perm_ext_iff_of_nodup h.nodup hentries.nodup).2 fun id =>
    (h.mem id).trans (hentries.mem id).symm
  rw [hperm.length_eq, List.length_map]
  rfl

/-- A directory can only respond in this way. -/
theorem step_of_responds {result : Except CommandFault Answer} {lines : List String}
    (h : Responds (SortedMap.get? d) c result lines) :
    (d.step c).2.outcome = result ∧ (d.step c).2.events.map Event.line = lines := by
  cases h with
  | added registers new =>
    rw [step_of_registers registers, new]
    exact ⟨rfl, congrArg (fun line => [line]) (line_keyAdded _)⟩
  | replaced registers known =>
    rw [step_of_registers registers, known]
    exact ⟨rfl, congrArg (fun line => [line]) (line_keyReplaced _)⟩
  | badId wrong =>
    rw [step_of_badId wrong]
    exact ⟨rfl, rfl⟩
  | badKey refused =>
    rw [(step_of_badKey refused).1]
    exact ⟨rfl, rfl⟩
  | noKey refused =>
    rw [(step_of_badKey refused).2]
    exact ⟨rfl, rfl⟩
  | found known =>
    rw [step_get_of_some known]
    exact ⟨rfl, rfl⟩
  | missing unknown =>
    rw [(step_of_none unknown).1]
    exact ⟨rfl, rfl⟩
  | removed known =>
    rw [step_remove_of_some known]
    exact ⟨rfl, congrArg (fun line => [line]) (line_keyRemoved _)⟩
  | unremoved unknown =>
    rw [(step_of_none unknown).2]
    exact ⟨rfl, rfl⟩
  | cleared live =>
    rw [live.length_eq]
    exact ⟨rfl, congrArg (fun line => [line]) (line_keysCleared _)⟩
  | counted live =>
    rw [live.length_eq]
    exact ⟨rfl, rfl⟩
  | questioned live =>
    rw [live.length_eq]
    exact ⟨rfl, rfl⟩

/-- It always responds in some way. -/
theorem exists_responds (d : Directory) (c : Command) :
    ∃ result lines, Responds (SortedMap.get? d) c result lines := by
  -- what is to be registered is registered or refused, by what is found for the identifier
  have hregister : ∀ {c : Command} {id : Id} {key : PublicKey}, c.Registers id key →
      ∃ result lines, Responds (SortedMap.get? d) c result lines := by
    intro c id key registers
    cases hget : SortedMap.get? d id with
    | none => exact ⟨_, _, .added registers hget⟩
    | some old => exact ⟨_, _, .replaced registers hget⟩
  cases c with
  | add id key =>
    by_cases hlen : id.length = 16
    · obtain ⟨id, rfl⟩ := Id.exists_of_length hlen
      rcases PublicKey.exists_or_refused key with ⟨k, rfl, hk⟩ | ⟨fault, hfault⟩
      · exact hregister (.add hk)
      · exact ⟨_, _, .badKey hfault⟩
    · exact ⟨_, _, .badId hlen⟩
  | insert id key =>
    rcases PublicKey.exists_or_refused key with ⟨k, rfl, hk⟩ | ⟨fault, hfault⟩
    · exact hregister (.insert hk)
    · exact ⟨_, _, .noKey hfault⟩
  | get id =>
    cases hget : SortedMap.get? d id with
    | none => exact ⟨_, _, .missing hget⟩
    | some key => exact ⟨_, _, .found hget⟩
  | remove id =>
    cases hget : SortedMap.get? d id with
    | none => exact ⟨_, _, .unremoved hget⟩
    | some key => exact ⟨_, _, .removed hget⟩
  | clear => exact ⟨_, _, .cleared (live_entries d)⟩
  | size => exact ⟨_, _, .counted (live_entries d)⟩
  | isEmpty => exact ⟨_, _, .questioned (live_entries d)⟩

/-- **A directory responds by what is found in it.** -/
theorem responds_iff {result : Except CommandFault Answer} {lines : List String} :
    ((d.step c).2.outcome = result ∧ (d.step c).2.events.map Event.line = lines) ↔
      Responds (SortedMap.get? d) c result lines := by
  refine ⟨fun ⟨hresult, hlines⟩ => ?_, step_of_responds⟩
  obtain ⟨result', lines', h⟩ := exists_responds d c
  obtain ⟨hresult', hlines'⟩ := step_of_responds h
  rwa [← hresult, ← hlines, hresult', hlines']

/-! ## What commands leave -/

theorem Command.write_of_registers (registers : c.Registers id key)
    (keys : Id → Option PublicKey) (i : Id) :
    c.write keys i = if i = id then some key else keys i := by
  have hkey : (⟨.fit 32 key.toBytes⟩ : PublicKey) = key :=
    congrArg PublicKey.mk (Octets.fit_toList key.octets)
  cases registers with
  | add =>
    have hid : i.octets.toList = id.octets.toList ↔ i = id :=
      ⟨fun h => congrArg Id.mk (Octets.ext h), fun h => h ▸ rfl⟩
    simp only [write, hid, hkey]
  | insert => simp only [write, hkey]

/-- **All that a command does to a directory**, with its result. -/
inductive Effect (d : Directory) :
    Command → Except CommandFault Answer → Directory → Prop where
  | registered {c : Command} {id : Id} {key : PublicKey} (registers : c.Registers id key) :
      Effect d c (.ok .done) (SortedMap.insert d id key)
  | removed {id : Id} : Effect d (.remove id) (.ok .done) (SortedMap.erase d id)
  | cleared : Effect d .clear (.ok .done) .empty
  | asked {c : Command} {answer : Answer} (asks : ∀ keys, c.write keys = keys) :
      Effect d c (.ok answer) d
  | refused {c : Command} {fault : CommandFault} : Effect d c (.error fault) d

theorem effect_step (d : Directory) (c : Command) :
    Effect d c (d.step c).2.outcome (d.step c).1 := by
  obtain ⟨result, lines, h⟩ := exists_responds d c
  cases h with
  | added registers new =>
    rw [step_of_registers registers]
    exact .registered registers
  | replaced registers known =>
    rw [step_of_registers registers]
    exact .registered registers
  | badId wrong =>
    rw [step_of_badId wrong]
    exact .refused
  | badKey refused =>
    rw [(step_of_badKey refused).1]
    exact .refused
  | noKey refused =>
    rw [(step_of_badKey refused).2]
    exact .refused
  | found known =>
    rw [step_get_of_some known]
    exact .asked fun _ => rfl
  | missing unknown =>
    rw [(step_of_none unknown).1]
    exact .refused
  | removed known =>
    rw [step_remove_of_some known]
    exact .removed
  | unremoved unknown =>
    rw [(step_of_none unknown).2]
    exact .refused
  | cleared live => exact .cleared
  | counted live => exact .asked fun _ => rfl
  | questioned live => exact .asked fun _ => rfl

/-- **A command that succeeds writes to the map**, one that fails leaves the directory. -/
theorem step_cases (d : Directory) (c : Command) :
    (∃ answer, (d.step c).2.outcome = .ok answer ∧
      SortedMap.get? (d.step c).1 = c.write (SortedMap.get? d)) ∨
    ∃ fault, (d.step c).2.outcome = .error fault ∧ (d.step c).1 = d := by
  have heffect := effect_step d c
  generalize (d.step c).2.outcome = result, (d.step c).1 = d' at heffect ⊢
  cases heffect with
  | registered registers =>
    refine Or.inl ⟨_, rfl, funext fun i => ?_⟩
    rw [SortedMap.get?_insert, Command.write_of_registers registers]
  | removed => exact Or.inl ⟨_, rfl, funext fun i => SortedMap.get?_erase d _ i⟩
  | cleared => exact Or.inl ⟨_, rfl, rfl⟩
  | asked asks => exact Or.inl ⟨_, rfl, (asks _).symm⟩
  | refused => exact Or.inr ⟨_, rfl, rfl⟩

theorem step_of_error {fault : CommandFault} (h : (d.step c).2.outcome = .error fault) :
    (d.step c).1 = d := by
  rcases step_cases d c with ⟨answer, hok, -⟩ | ⟨-, -, hkept⟩
  · exact absurd (hok.symm.trans h) (by simp)
  · exact hkept

/-- **A directory holds what is replayed**, whatever it held before. -/
theorem get?_after (d : Directory) (commands : List Command) :
    SortedMap.get? (after d commands) = replay (SortedMap.get? d) (run d commands) := by
  -- along the commands, each of which writes to the map or leaves the directory
  induction commands generalizing d with
  | nil => rfl
  | cons c rest ih =>
    rw [run, replay]
    rcases step_cases d c with ⟨answer, hok, hwrite⟩ | ⟨fault, herror, hkept⟩
    · rw [hok]
      exact (ih _).trans (congrArg (replay · _) hwrite)
    · rw [herror]
      exact (ih _).trans (congrArg (replay · _) (congrArg SortedMap.get? hkept))

/-- An identifier without a key gets one only if it is registered. -/
theorem get?_step_eq_none (unknown : SortedMap.get? d id = none)
    (h : ∀ key, ¬ c.Registers id key) : SortedMap.get? (d.step c).1 id = none := by
  have heffect := effect_step d c
  generalize (d.step c).2.outcome = result, (d.step c).1 = d' at heffect ⊢
  cases heffect with
  | @registered _ id' key registers =>
    have hne : id ≠ id' := by
      rintro rfl
      exact h key registers
    rw [SortedMap.get?_insert, if_neg hne, unknown]
  | removed => rw [SortedMap.get?_erase, unknown, ite_self]
  | cleared => rfl
  | asked asks => exact unknown
  | refused => exact unknown

theorem get?_after_eq_none {commands : List Command} (unknown : SortedMap.get? d id = none)
    (h : ∀ c ∈ commands, ∀ key, ¬ c.Registers id key) :
    SortedMap.get? (after d commands) id = none := by
  induction commands generalizing d with
  | nil => exact unknown
  | cons c rest ih =>
    exact ih (get?_step_eq_none unknown (h c List.mem_cons_self)) fun c' hc' =>
      h c' (List.mem_cons_of_mem c hc')

/-- Nothing is found for an identifier that was just removed, whether it had a key or not. -/
theorem get?_step_remove (d : Directory) (id : Id) :
    SortedMap.get? (d.step (.remove id)).1 id = none := by
  rcases step_cases d (.remove id) with ⟨-, -, hwrite⟩ | ⟨fault, herror, hkept⟩
  · rw [hwrite]
    exact if_pos rfl
  · cases hget : SortedMap.get? d id with
    | none => rw [hkept, hget]
    | some key =>
      rw [step_remove_of_some hget] at herror
      exact absurd herror (by simp)

/-- **A directory is a finite map.** After any commands on a directory without keys, let `keys` be
the map that is left when those that succeeded are replayed. Then `keys` is what is found in the
directory; the entries are those of `keys`, one for each identifier and in ascending order; every
command has the answer, and leads to the reported lines, that `keys` gives; and a command that fails
leaves the directory as it was. So an identifier that is removed, or any after clearing, is unknown
to removal and to look up until a key is to be registered for it. -/
theorem acts_as_map (before : List Command) :
    let d := after .empty before
    let keys := replayed (run .empty before)
    (∀ id, SortedMap.get? d id = keys id) ∧
    Ascending d.entries ∧
    (∀ id key, (id, key) ∈ d.entries ↔ keys id = some key) ∧
    (∀ c result lines,
      ((d.step c).2.outcome = result ∧ (d.step c).2.events.map Event.line = lines) ↔
        Responds keys c result lines) ∧
    (∀ c fault, (d.step c).2.outcome = .error fault → (d.step c).1 = d) ∧
    (∀ id, ∀ c ∈ [Command.remove id, .clear], ∀ between : List Command,
      (∀ c' ∈ between, ∀ key, ¬ c'.Registers id key) →
        ∀ c' ∈ [Command.remove id, .get id],
          ((after d (c :: between)).step c').2.outcome = .error (.directory (.unknown id))) := by
  intro d keys
  have hkeys : SortedMap.get? d = keys := get?_after .empty before
  refine ⟨congrFun hkeys, d.ascending, fun id key => ?_, fun c result lines => ?_, fun c fault =>
    step_of_error, fun id c hc between hbetween c' hc' => ?_⟩
  · rw [← hkeys]
    exact SortedMap.get?_eq_some_iff.symm
  · rw [← hkeys]
    exact responds_iff
  · have hgone : SortedMap.get? (d.step c).1 id = none := by
      rcases List.mem_pair.1 hc with rfl | rfl
      · exact get?_step_remove d id
      · rfl
    have hunknown := step_of_none (get?_after_eq_none hgone hbetween)
    rcases List.mem_pair.1 hc' with rfl | rfl
    · exact congrArg (fun step => step.2.outcome) hunknown.2
    · exact congrArg (fun step => step.2.outcome) hunknown.1

/-- A key is registered and removed: a second removal fails, and another key can be registered. -/
theorem acts_as_map_removedTwice :
    let id : Id := ⟨.zero 16⟩
    let key : Bytes := List.replicate 32 1
    let d := after .empty [.insert id key]
    ((after d [.remove id]).step (.remove id)).2.outcome = .error (.directory (.unknown id)) ∧
    Responds (replayed (run .empty [.insert id key, .remove id]))
      (.add id.octets.toList key) (.ok .done) ["DEBUG added public key for " ++ id.toHex] := by
  intro id key d
  have hbetween : ∀ c' ∈ ([] : List Command), ∀ key, ¬ c'.Registers id key := by simp
  constructor
  · obtain ⟨-, -, -, -, -, hunknown⟩ := acts_as_map [.insert id key]
    exact hunknown id (.remove id) List.mem_cons_self [] hbetween (.remove id) List.mem_cons_self
  · obtain ⟨-, -, -, hresponds, -, -⟩ := acts_as_map [.insert id key, .remove id]
    exact (hresponds (.add id.octets.toList key) _ _).1 ⟨by decide +kernel, by decide +kernel⟩

end Directory

end SealedMessaging
