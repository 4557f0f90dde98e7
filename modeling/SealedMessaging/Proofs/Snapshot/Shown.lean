import SealedMessaging.Proofs.Material.Outline
import SealedMessaging.Proofs.Snapshot.RoundTrip

/-!
# What shows of a snapshot

Loading a signer's material reports every public key that is registered, in the order of the
identifiers, until one is refused. So the events depend on no key: whose keys are listed tells them,
together with where loading fails.

* `Snapshot.Obstacle`, `Snapshot.Shown`: where loading fails, and what shows of a snapshot whose data
  can be read.
* `Snapshot.events_load`: the events of loading can be told from it.
* `Snapshot.shown?_of_load`: of a snapshot that loads, the outline of its material shows.
* `Snapshot.shown?_write_shared`: what shows of shared material that is written, whatever its key.
-/

namespace SealedMessaging

namespace Snapshot

open Json

/-! ## What loading fails at -/

/-- **What loading fails at**, if the data can be read: at a key of the material itself, or at the public
key of an identifier. -/
inductive Obstacle where
  | ownKey
  | entry (id : Id)
  deriving DecidableEq

/-- The identifiers in front of what loading fails at. -/
def registered (ids : List Id) : Option Obstacle → List Id
  | none => ids
  | some .ownKey => []
  | some (.entry id) => ids.takeWhile (· ≠ id)

/-- The public key that a text stands for. -/
def keyOfText (text : String) : Except Fault PublicKey := do
  let bs ← hexField "pubKeys" text
  (PublicKey.ofBytes bs).mapError fun fault => .material (.directory (.badKey fault))

/-- A signer's material before its public keys are registered. -/
def SignerData.bare (data : SignerData) : Except Fault SignerMaterial := do
  let privateKey ← hexField "privateKey" data.privateKey
  let controller ← hexField "c2PublicKey" data.controller
  (SignerMaterial.ofBytes data.id.octets.toList privateKey controller).mapError .material

/-- What loading a signer's data fails at, if it fails. -/
def SignerData.obstacle? (data : SignerData) : Option Obstacle :=
  match data.bare with
  | .error _ => some .ownKey
  | .ok _ => (data.publicKeys.entries.find? fun e => !(keyOfText e.2).isOk).map fun e => .entry e.1

/-! ## Registering public keys -/

theorem keyOfText_of_hexField {text : String} {bs : Bytes} (h : hexField "pubKeys" text = .ok bs) :
    keyOfText text =
      (PublicKey.ofBytes bs).mapError fun fault => .material (.directory (.badKey fault)) := by
  unfold keyOfText
  rw [h]
  rfl

/-- A public key is registered before the next text is looked at. -/
theorem events_addPublicKeys_cons (m : SignerMaterial) (id : Id) (text : String)
    (rest : List (Id × String)) :
    (addPublicKeys m ((id, text) :: rest)).events =
      match keyOfText text with
      | .error _ => []
      | .ok key =>
        (if (SortedMap.get? m.directory id).isSome then .keyReplaced id else .keyAdded id) ::
          (addPublicKeys { m with directory := SortedMap.insert m.directory id key } rest).events := by
  have hid : Id.ofBytes id.octets.toList = .ok id := Id.ofBytes_eq_ok_iff.2 rfl
  rw [addPublicKeys]
  cases hhex : hexField "pubKeys" text with
  | error fault =>
    unfold keyOfText
    rw [hhex]
    rfl
  | ok bs =>
    rw [keyOfText_of_hexField hhex, Report.ofExcept_ok_bind, SignerMaterial.addPublicKey_eq, hid]
    cases PublicKey.ofBytes bs <;> rfl

/-- **New identifiers are reported in order** up to the first text that stands for no key. -/
theorem events_addPublicKeys {m : SignerMaterial} {texts : List (Id × String)}
    (hnew : ∀ e ∈ texts, SortedMap.get? m.directory e.1 = none)
    (hnodup : (texts.map Prod.fst).Nodup) :
    (addPublicKeys m texts).events =
      (texts.takeWhile fun e => (keyOfText e.2).isOk).map fun e => .keyAdded e.1 := by
  -- by the texts; what has been registered is not listed again
  induction texts generalizing m with
  | nil => rfl
  | cons e rest ih =>
    obtain ⟨id, text⟩ := e
    obtain ⟨hid, hrest⟩ := List.nodup_cons.1 hnodup
    rw [events_addPublicKeys_cons, List.takeWhile_cons]
    cases hkey : keyOfText text with
    | error fault => rfl
    | ok key =>
      have hadded : (SortedMap.get? m.directory id).isSome = false := by
        rw [hnew (id, text) List.mem_cons_self]
        rfl
      have hstill : ∀ e ∈ rest,
          SortedMap.get? (SortedMap.insert m.directory id key) e.1 = none := by
        intro e he
        have hne : e.1 ≠ id := fun h => hid (h ▸ List.mem_map.2 ⟨e, he, rfl⟩)
        rw [SortedMap.get?_insert, if_neg hne]
        exact hnew e (List.mem_cons_of_mem _ he)
      dsimp only [Except.isOk]
      rw [hadded, ih hstill hrest]
      rfl

/-- Up to the first entry that does not pass, the keys are those in front of its key. -/
theorem map_takeWhile_eq_registered {ν : Type} {entries : List (Id × ν)} {p : Id × ν → Bool}
    (hnodup : (entries.map Prod.fst).Nodup) :
    (entries.takeWhile p).map Prod.fst =
      registered (entries.map Prod.fst) ((entries.find? fun e => !p e).map fun e => .entry e.1) := by
  induction entries with
  | nil => rfl
  | cons e rest ih =>
    obtain ⟨hid, hrest⟩ := List.nodup_cons.1 hnodup
    rw [List.takeWhile_cons, List.find?_cons]
    cases hp : p e with
    | false =>
      simp [registered]
    | true =>
      rw [if_pos rfl, List.map_cons, ih hrest]
      cases hfind : rest.find? fun e => !p e with
      | none => rfl
      | some e' =>
        have hne : e.1 ≠ e'.1 := fun h =>
          hid (h ▸ List.mem_map_of_mem (List.mem_of_find?_eq_some hfind))
        simp [registered, hne]

/-! ## What shows -/

/-- **What shows of a snapshot** whose data can be read: the outline that is written in it, and what
loading it fails at. Of data of another shape nothing shows, and nothing is reported. -/
structure Shown where
  outline : Outline
  obstacle : Option Obstacle
  deriving DecidableEq

/-- **The events of loading**, as far as can be told from outside. -/
def Shown.events (shown : Shown) : List Event :=
  match shown.outline with
  | .shared => []
  | .signer _ known => (registered (known.entries.map Prod.fst) shown.obstacle).map .keyAdded

/-- What shows of the data of shared material. -/
def sharedShown? (v : Value) : Option Shown :=
  (sharedRecord.read v).toOption.map fun _ =>
    ⟨.shared, if (decodeShared v).isOk then none else some .ownKey⟩

/-- What shows of the data of a signer's material. -/
def signerShown? (v : Value) : Option Shown :=
  (signerRecord.read v).toOption.map fun data =>
    ⟨.signer data.id data.publicKeys.keys, data.obstacle?⟩

/-- What shows of an envelope. -/
def Envelope.shown? (envelope : Envelope) : Option Shown :=
  match KeyType.ofTag? envelope.keyType with
  | none => none
  | some .shared => sharedShown? envelope.keyData
  | some .signer => signerShown? envelope.keyData

/-- The envelope in front of a snapshot. Only in a document can there be something wrong behind it. -/
def Route.envelope? (route : Route) (text : String) : Option Envelope :=
  match route with
  | .text => (envelopeOfText text).toOption
  | .value => (Value.parse text).toOption.bind fun v => (Envelope.ofValue v).toOption
  | .document => (Envelope.read text.toList).toOption.map Prod.fst

/-- **What shows of a snapshot** that is loaded one way or another. -/
def shown? (route : Route) (text : String) : Option Shown :=
  (route.envelope? text).bind Envelope.shown?

/-! ## Events of loading -/

/-- A signer's material is read without its public keys first. -/
theorem decodeSigner_of_read {v : Value} {data : SignerData} (h : signerRecord.read v = .ok data) :
    decodeSigner v =
      (Report.ofExcept data.bare >>= fun m => addPublicKeys m data.publicKeys.entries) := by
  unfold decodeSigner shaped SignerData.bare
  rw [h, Except.mapError_ok, Report.ofExcept_ok_bind]
  cases hexField "privateKey" data.privateKey with
  | error fault => rfl
  | ok privateKey => cases hexField "c2PublicKey" data.controller <;> rfl

theorem SignerData.directory_of_bare {data : SignerData} {m : SignerMaterial}
    (h : data.bare = .ok m) : m.directory = SortedMap.empty := by
  unfold bare at h
  simp only [Except.bind_eq_ok_iff, Except.mapError_eq_ok_iff,
    SignerMaterial.ofBytes_eq_ok_iff] at h
  obtain ⟨-, -, -, -, -, -, -, hdirectory⟩ := h
  exact hdirectory

theorem events_decodeSigner (v : Value) :
    (decodeSigner v).events = (signerShown? v).elim [] Shown.events := by
  unfold signerShown?
  cases hread : signerRecord.read v with
  | error fault =>
    unfold decodeSigner shaped
    rw [hread]
    rfl
  | ok data =>
    rw [decodeSigner_of_read hread]
    show _ = (registered (data.publicKeys.keys.entries.map Prod.fst) data.obstacle?).map
      Event.keyAdded
    rw [SortedMap.map_fst_entries_keys]
    unfold SignerData.obstacle?
    cases hbare : data.bare with
    | error fault => rfl
    | ok m =>
      have hnodup := data.publicKeys.ascending.nodup
      have hnew : ∀ e ∈ data.publicKeys.entries, SortedMap.get? m.directory e.1 = none := by
        rw [SignerData.directory_of_bare hbare]
        exact fun e _ => rfl
      show (addPublicKeys m data.publicKeys.entries).events =
        (registered _ (Option.map _ (List.find? _ _))).map Event.keyAdded
      rw [events_addPublicKeys hnew hnodup, ← map_takeWhile_eq_registered hnodup, List.map_map]
      rfl

theorem events_decode (envelope : Envelope) :
    (decode envelope).events = envelope.shown?.elim [] Shown.events := by
  unfold decode Envelope.shown? keyTypeOf
  cases KeyType.ofTag? envelope.keyType with
  | none => rfl
  | some keyType =>
    rw [Report.ofExcept_ok_bind]
    cases keyType with
    | shared =>
      dsimp only
      have h : (sharedShown? envelope.keyData).elim [] Shown.events = [] := by
        unfold sharedShown?
        cases sharedRecord.read envelope.keyData <;> rfl
      rw [h]
      cases decodeShared envelope.keyData <;> rfl
    | signer =>
      rw [← events_decodeSigner]
      exact Report.events_bind_ofExcept _ fun s => .ok (Material.signer s)

/-- **The events of loading can be told** from what shows of the snapshot. -/
theorem events_load (route : Route) (text : String) :
    (load route text).events = (shown? route text).elim [] Shown.events := by
  unfold load shown? Route.envelope?
  cases route with
  | text =>
    show (ofText text).events = _
    unfold ofText
    cases envelopeOfText text with
    | error stop => rfl
    | ok envelope => exact events_decode envelope
  | value =>
    show (ofValueText text).events = _
    unfold ofValueText ofValue shaped
    cases Value.parse text with
    | error stop => rfl
    | ok v =>
      rw [Except.mapError_ok, Report.ofExcept_ok_bind]
      show _ = ((Envelope.ofValue v).toOption.bind Envelope.shown?).elim [] Shown.events
      cases Envelope.ofValue v with
      | error fault => rfl
      | ok envelope => exact events_decode envelope
  | document =>
    show (ofDocument text).events = _
    unfold ofDocument
    cases Envelope.read text.toList with
    | error stop => rfl
    | ok found =>
      obtain ⟨envelope, rest⟩ := found
      -- what is behind the envelope is looked at when all has been registered
      show ((decode envelope).mapError DocumentFault.contents >>= fun m =>
        .ofExcept ((readEnd m rest).mapError .reading)).events =
          envelope.shown?.elim [] Shown.events
      rw [← events_decode, Report.events_bind_ofExcept]
      rfl

/-! ## What is loaded -/

theorem keyOfText_of_spells {e : Id × String} {k : Id × PublicKey} (h : Spells e k) :
    keyOfText e.2 = .ok k.2 := by
  obtain ⟨-, hdecode, hzero⟩ := h
  have hkey : PublicKey.ofBytes k.2.toBytes = .ok k.2 :=
    PublicKey.ofBytes_eq_ok_iff.2 ⟨rfl, hzero⟩
  rw [keyOfText_of_hexField (hexField_eq_ok_iff.2 hdecode), hkey]
  rfl

theorem keys_insertAll_of_spells {texts : SortedMap Id String} {keys : List (Id × PublicKey)}
    (h : List.Forall₂ Spells texts.entries keys) :
    ((SortedMap.empty : Directory).insertAll keys).keys = texts.keys := by
  have hids : keys.map Prod.fst = texts.entries.map Prod.fst := map_fst_of_spells h
  have hascending : Ascending keys := by
    have htexts : (texts.entries.map Prod.fst).Pairwise (· < ·) :=
      List.pairwise_map.2 texts.ascending
    exact List.pairwise_map.1 (hids ▸ htexts)
  apply SortedMap.ext
  unfold SortedMap.keys
  dsimp only
  rw [SortedMap.entries_insertAll_empty hascending]
  have hunits := congrArg (List.map fun id => (id, ())) hids
  rw [List.map_map, List.map_map] at hunits
  exact hunits

theorem signerShown?_of_decodeSigner {v : Value} {m : SignerMaterial}
    (h : (decodeSigner v).outcome = .ok m) :
    signerShown? v = some ⟨(Material.signer m).outline, none⟩ := by
  obtain ⟨data, hread, hid, -, -, keys, hkeys, hdirectory⟩ := outcome_decodeSigner_eq_ok_iff.1 h
  have hobstacle : data.obstacle? = none := by
    rw [decodeSigner_of_read hread] at h
    obtain ⟨bare, hbare, -⟩ := Report.outcome_bind_eq_ok_iff.1 h
    rw [Report.outcome_ofExcept] at hbare
    unfold SignerData.obstacle?
    rw [hbare]
    dsimp only
    rw [Option.map_eq_none_iff, List.find?_eq_none]
    intro e he
    obtain ⟨k, -, hspells⟩ := hkeys.exists_of_mem_left he
    rw [keyOfText_of_spells hspells]
    simp [Except.isOk, Except.toBool]
  have houtline : (Material.signer m).outline = .signer data.id data.publicKeys.keys := by
    show Outline.signer m.id (SortedMap.keys m.directory) = _
    rw [hdirectory, keys_insertAll_of_spells hkeys, hid]
  unfold signerShown?
  rw [hread, houtline, ← hobstacle]
  rfl

theorem sharedShown?_of_decodeShared {v : Value} {m : SharedMaterial}
    (h : decodeShared v = .ok m) : sharedShown? v = some ⟨.shared, none⟩ := by
  obtain ⟨text, hread, -⟩ := decodeShared_eq_ok_iff.1 h
  unfold sharedShown?
  rw [hread, h]
  rfl

theorem Envelope.shown?_of_decode {envelope : Envelope} {m : Material}
    (h : (decode envelope).outcome = .ok m) : envelope.shown? = some ⟨m.outline, none⟩ := by
  obtain ⟨htag, hdata⟩ := outcome_decode_eq_ok_iff.1 h
  unfold Envelope.shown?
  rw [htag]
  cases m with
  | shared s => exact sharedShown?_of_decodeShared hdata
  | signer s => exact signerShown?_of_decodeSigner hdata

theorem Route.envelope?_of_finds {route : Route} {text : String} {envelope : Envelope}
    (h : route.Finds text envelope) : route.envelope? text = some envelope := by
  unfold Route.envelope?
  cases route with
  | text =>
    obtain ⟨rest, hread, hend⟩ := h
    have henvelope : envelopeOfText text = .ok envelope :=
      Except.bind_eq_ok_iff.2 ⟨(envelope, rest), hread, readEnd_eq_ok_iff.2 ⟨hend, rfl⟩⟩
    rw [henvelope]
    rfl
  | value =>
    obtain ⟨v, hv, henvelope⟩ := h
    rw [hv]
    exact congrArg Except.toOption henvelope
  | document =>
    obtain ⟨rest, hread, -⟩ := h
    rw [hread]
    rfl

/-- **Of a snapshot that loads, the outline of its material shows.** -/
theorem shown?_of_load {route : Route} {text : String} {m : Material}
    (h : (load route text).outcome = .ok m) : shown? route text = some ⟨m.outline, none⟩ := by
  obtain ⟨envelope, hfinds, hm⟩ := outcome_load_eq_ok_iff.1 h
  unfold shown?
  rw [Route.envelope?_of_finds hfinds]
  exact Envelope.shown?_of_decode hm

/-! ## What is written -/

theorem shown?_write_of_loadable {m : Material} (h : m.Loadable) (route : Route) :
    shown? route (write m) = some ⟨m.outline, none⟩ :=
  shown?_of_load (outcome_load_write.2 ⟨h, rfl⟩)

theorem isOk_decodeShared_sharedValue {m : SharedMaterial} :
    (decodeShared (sharedValue m)).isOk = true ↔ (Material.shared m).Loadable := by
  constructor
  · intro h
    cases hdecode : decodeShared (sharedValue m) with
    | ok m' => exact (decodeShared_sharedValue.1 hdecode).1
    | error fault => exact absurd (hdecode ▸ h) (by simp [Except.isOk, Except.toBool])
  · intro h
    rw [decodeShared_sharedValue.2 ⟨h, rfl⟩]
    rfl

/-- **Of shared material that is written** shows whether its key can be loaded. -/
theorem shown?_write_shared (route : Route) (m : SharedMaterial) :
    shown? route (write (.shared m)) =
      some ⟨.shared, if (Material.shared m).Loadable then none else some .ownKey⟩ := by
  unfold shown?
  rw [Route.envelope?_of_finds (finds_write route (.shared m))]
  show sharedShown? (sharedValue m) = _
  unfold sharedShown?
  rw [sharedRecord_read_sharedValue]
  simp only [isOk_decodeShared_sharedValue]
  rfl

end Snapshot

end SealedMessaging
