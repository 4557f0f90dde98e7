import SealedMessaging.Proofs.Snapshot.Printed
import SealedMessaging.Proofs.Snapshot.PublicKeys

/-!
# What is written as a snapshot loads again

Loading checks what it reads, so material that would not pass the checks does not load. It never
loads as other material.

* `Material.Loadable`: the checks, on the material itself.
* `outcome_decode_printed`: the envelope that is written holds the material and nothing else.
* `finds_write`: this is the envelope that is found.
* `outcome_load_write`: the three ways to load what is written.
-/

namespace SealedMessaging

/-- **Material that passes the checks of loading.** -/
def Material.Loadable : Material → Prop
  | .shared m => m.key.toBytes.isZero = false
  | .signer m => m.controller.toList.isZero = false ∧
      ∀ e ∈ m.directory.entries, e.2.toBytes.isZero = false

instance : (m : Material) → Decidable m.Loadable
  | .shared m => inferInstanceAs (Decidable (m.key.toBytes.isZero = false))
  | .signer m => inferInstanceAs (Decidable (m.controller.toList.isZero = false ∧
      ∀ e ∈ m.directory.entries, e.2.toBytes.isZero = false))

namespace Snapshot

open Json

/-! ## Shared material -/

theorem sharedRecord_read_sharedValue (m : SharedMaterial) :
    sharedRecord.read (sharedValue m) = .ok (Hex.encode m.key.toBytes) := rfl

theorem decodeShared_sharedValue {m m' : SharedMaterial} :
    decodeShared (sharedValue m) = .ok m' ↔ m.key.toBytes.isZero = false ∧ m' = m := by
  unfold decodeShared shaped SharedMaterial.ofBytes
  simp only [Except.bind_eq_ok_iff, Except.mapError_eq_ok_iff, Except.map_eq_ok_iff,
    hexField_eq_ok_iff, sharedRecord_read_sharedValue, Except.ok.injEq, exists_eq_left',
    Hex.decode_encode, SymmetricKey.ofBytes_eq_ok_iff]
  constructor
  · rintro ⟨key, ⟨hkey, hzero⟩, rfl⟩
    obtain rfl : key = m.key := congrArg SymmetricKey.mk (Octets.ext hkey)
    exact ⟨hzero, rfl⟩
  · rintro ⟨hzero, rfl⟩
    exact ⟨m'.key, ⟨rfl, hzero⟩, rfl⟩

/-! ## Signers -/

/-- The hex texts of the keys of a directory. -/
def keyTexts (d : Directory) : SortedMap Id String :=
  ⟨d.entries.map fun e => (e.1, Hex.encode e.2.toBytes), by
    unfold Ascending
    rw [List.pairwise_map]
    exact d.ascending⟩

theorem publicKeysOf_directoryMembers (d : Directory) :
    publicKeysOf (.object (directoryMembers d)) = .ok (keyTexts d) := by
  refine takePublicKeys_eq_ok_iff.2 ⟨(keyTexts d).entries, ?_, SortedMap.insertAll_empty _⟩
  unfold directoryMembers keyTexts
  rw [List.forall₂_map_left_iff, List.forall₂_map_right_iff, List.forall₂_same]
  intro e _
  exact ⟨Id.ofHex_toHex e.1, rfl⟩

/-- The data that are read of a signer's material. -/
def signerData (m : SignerMaterial) : SignerData :=
  ⟨m.id, Hex.encode m.key.toBytes, Hex.encode m.controller.toList, keyTexts m.directory⟩

theorem signerRecord_read_signerValue (m : SignerMaterial) :
    signerRecord.read (signerValue m) = .ok (signerData m) := by
  have hid : Value.asId (hexValue m.id.octets.toList) = .ok m.id :=
    Except.bind_eq_ok_iff.2
      ⟨m.id.toHex, rfl, Except.mapError_eq_ok_iff.2 (Id.ofHex_toHex m.id)⟩
  have htext : ∀ bs, Value.asString (hexValue bs) = .ok (Hex.encode bs) := fun _ => rfl
  have hkeys := publicKeysOf_directoryMembers m.directory
  simp [signerValue, Record.read, signerRecord, Record.takeMembers, PartialSigner.finish, required,
    signerData, bind, Except.bind, pure, Except.pure, hid, htext, hkeys]

/-- The text of a key spells that key alone, and a key of zeros not at all. -/
theorem spells_keyText_iff (e k : Id × PublicKey) :
    Spells (e.1, Hex.encode e.2.toBytes) k ↔ e.2.toBytes.isZero = false ∧ k = e := by
  obtain ⟨i, a⟩ := e
  obtain ⟨j, b⟩ := k
  unfold Spells
  rw [Hex.decode_encode]
  constructor
  · rintro ⟨rfl, hbytes, hzero⟩
    obtain rfl : a = b := congrArg PublicKey.mk (Octets.ext (Except.ok.inj hbytes))
    exact ⟨hzero, rfl⟩
  · rintro ⟨hzero, heq⟩
    obtain ⟨rfl, rfl⟩ := Prod.mk.inj heq
    exact ⟨rfl, rfl, hzero⟩

theorem forall₂_spells_keyTexts {entries keys : List (Id × PublicKey)} :
    List.Forall₂ Spells (entries.map fun e => (e.1, Hex.encode e.2.toBytes)) keys ↔
      (∀ e ∈ entries, e.2.toBytes.isZero = false) ∧ keys = entries := by
  rw [List.forall₂_map_left_iff]
  simp only [spells_keyText_iff]
  induction entries generalizing keys with
  | nil => simp
  | cons e entries ih =>
    rw [List.forall₂_cons_left_iff]
    simp only [ih, List.forall_mem_cons]
    constructor
    · rintro ⟨k, keys, ⟨hzero, rfl⟩, ⟨hall, rfl⟩, rfl⟩
      exact ⟨⟨hzero, hall⟩, rfl⟩
    · rintro ⟨⟨hzero, hall⟩, rfl⟩
      exact ⟨e, entries, ⟨hzero, rfl⟩, ⟨hall, rfl⟩, rfl⟩

theorem outcome_decodeSigner_signerValue {m m' : SignerMaterial} :
    (decodeSigner (signerValue m)).outcome = .ok m' ↔
      (Material.signer m).Loadable ∧ m' = m := by
  rw [outcome_decodeSigner_eq_ok_iff]
  simp only [signerRecord_read_signerValue, Except.ok.injEq, exists_eq_left', signerData, keyTexts,
    Hex.decode_encode, forall₂_spells_keyTexts]
  constructor
  · rintro ⟨hid, hkey, ⟨hcontroller, hzero⟩, keys, ⟨hkeys, rfl⟩, hdirectory⟩
    rw [SortedMap.insertAll_empty] at hdirectory
    refine ⟨⟨hcontroller ▸ hzero, hkeys⟩, ?_⟩
    obtain ⟨id, key, controller, directory⟩ := m
    obtain ⟨id', key', controller', directory'⟩ := m'
    obtain rfl : id = id' := hid
    obtain rfl : key = key' := SecretKey.toBytes_inj.1 hkey
    obtain rfl : controller = controller' := Octets.ext hcontroller
    obtain rfl : directory' = directory := hdirectory
    rfl
  · rintro ⟨⟨hzero, hkeys⟩, rfl⟩
    exact ⟨rfl, rfl, ⟨rfl, hzero⟩, _, ⟨hkeys, rfl⟩, (SortedMap.insertAll_empty _).symm⟩

/-! ## All ways to load -/

theorem keyTypeOf_tag (keyType : KeyType) : keyTypeOf keyType.tag = .ok keyType := by
  cases keyType <;> rfl

theorem outcome_decode_printed {m m' : Material} :
    (decode ⟨m.keyType.tag, dataValue m⟩).outcome = .ok m' ↔ m.Loadable ∧ m' = m := by
  unfold decode
  simp only [keyTypeOf_tag, Report.outcome_bind_eq_ok_iff, Report.outcome_ofExcept,
    Except.ok.injEq, exists_eq_left']
  cases m with
  | shared m =>
    simp only [Material.keyType, dataValue, Report.outcome_bind_eq_ok_iff, Report.outcome_ofExcept,
      Report.outcome_pure, decodeShared_sharedValue, Except.ok.injEq]
    constructor
    · rintro ⟨s, ⟨hzero, rfl⟩, rfl⟩
      exact ⟨hzero, rfl⟩
    · rintro ⟨hzero, rfl⟩
      exact ⟨m, ⟨hzero, rfl⟩, rfl⟩
  | signer m =>
    simp only [Material.keyType, dataValue, Report.outcome_bind_eq_ok_iff, Report.outcome_pure,
      outcome_decodeSigner_signerValue, Except.ok.injEq]
    constructor
    · rintro ⟨s, ⟨hload, rfl⟩, rfl⟩
      exact ⟨hload, rfl⟩
    · rintro ⟨hload, rfl⟩
      exact ⟨m, ⟨hload, rfl⟩, rfl⟩

theorem ofValue_printedValue (m : Material) :
    Envelope.ofValue (printedValue m) = .ok ⟨m.keyType.tag, dataValue m⟩ := by
  cases m <;> rfl

/-- What is written is found on each way. -/
theorem finds_write (route : Route) (m : Material) :
    route.Finds (write m) ⟨m.keyType.tag, dataValue m⟩ := by
  obtain ⟨rest, hread, hend⟩ := parse_eq_ok_iff.1 (parse_write m)
  have henvelope := (Envelope.read_eq_ok_iff hread).2
    ⟨rfl, envelopeOnce_write m, ofValue_printedValue m⟩
  cases route with
  | text => exact ⟨rest, henvelope, hend⟩
  | document => exact ⟨rest, henvelope, hend⟩
  | value => exact ⟨_, parse_write m, ofValue_printedValue m⟩

theorem outcome_ofValue_printedValue {m m' : Material} :
    (ofValue (printedValue m)).outcome = .ok m' ↔ m.Loadable ∧ m' = m := by
  rw [outcome_ofValue_eq_ok_iff, ofValue_printedValue]
  simp only [Except.ok.injEq, exists_eq_left', outcome_decode_printed]

/-- **What is written loads as what it was written for**, on each way, if it passes the checks. -/
theorem outcome_load_write {route : Route} {m m' : Material} :
    (load route (write m)).outcome = .ok m' ↔ m.Loadable ∧ m' = m := by
  rw [outcome_load_eq_ok_iff, ← outcome_decode_printed]
  constructor
  · rintro ⟨envelope, hfinds, hm⟩
    obtain rfl := hfinds.unique (finds_write route m)
    exact hm
  · intro hm
    exact ⟨_, finds_write route m, hm⟩

end Snapshot

end SealedMessaging
