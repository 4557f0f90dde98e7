import SealedMessaging.Proofs.Json.Parts
import SealedMessaging.Proofs.Snapshot.RoundTrip

/-!
# The public keys that are loaded

Names of members are identifiers in hex of either case, so two members of one object can name one
identifier. Only the last of them counts; what the others hold is neither checked nor kept.

* `publicKeyMembers?`: the members in the value of a snapshot.
* `registered_of_spells`: the keys that texts are turned into, each under its identifier.
* `loaded_public_keys`: what is loaded, and that nothing is lost if no two names agree.
* `loaded_public_keys_lost`: what happens if two do.
-/

namespace SealedMessaging

namespace Snapshot

open Json

/-- **The members of the public keys** in the value of a snapshot. -/
def publicKeyMembers? (v : Value) : Option (List (String × Value)) :=
  match (v.part? "keyData" 1).bind (·.part? "pubKeys" 3) with
  | some (.object members) => some members
  | _ => none

/-! ## Finding the members -/

theorem determines_keyData :
    Determines Envelope.record.fields "keyData" (fun v => .ok v) Envelope.Partial.keyData := by
  intro field hfield s v s' htake
  simp only [Envelope.record, List.mem_cons, List.not_mem_nil, or_false] at hfield
  rcases hfield with rfl | rfl
  · obtain ⟨b, -, hs⟩ := Except.bind_eq_ok_iff.1 htake
    obtain rfl := Except.ok.inj hs
    exact ⟨fun h => absurd h (by simp), fun _ => rfl⟩
  · obtain rfl := Except.ok.inj htake
    exact ⟨fun _ => ⟨v, rfl, rfl⟩, fun h => absurd rfl h⟩

/-- Each field of a signer settles its own part of what has been read. -/
theorem determines_signer :
    Determines signerRecord.fields "signerId" Value.asId PartialSigner.id ∧
      Determines signerRecord.fields "privateKey" Value.asString PartialSigner.privateKey ∧
      Determines signerRecord.fields "c2PublicKey" Value.asString PartialSigner.controller ∧
      Determines signerRecord.fields "pubKeys" publicKeysOf PartialSigner.publicKeys := by
  refine ⟨?_, ?_, ?_, ?_⟩
  all_goals
    intro field hfield s v s' htake
    simp only [signerRecord, List.mem_cons, List.not_mem_nil, or_false] at hfield
    rcases hfield with rfl | rfl | rfl | rfl
  all_goals
    obtain ⟨b, hb, hs⟩ := Except.bind_eq_ok_iff.1 htake
    obtain rfl := Except.ok.inj hs
    first
    | exact ⟨fun _ => ⟨b, hb, rfl⟩, fun h => absurd rfl h⟩
    | exact ⟨fun h => absurd h (by simp), fun _ => rfl⟩

/-- A signer's data are read if all four fields have been. -/
theorem finish_signer_eq_ok_iff {s : PartialSigner} {data : SignerData} :
    s.finish = .ok data ↔
      s.id = some data.id ∧ s.privateKey = some data.privateKey ∧
        s.controller = some data.controller ∧ s.publicKeys = some data.publicKeys := by
  unfold PartialSigner.finish
  simp only [Except.bind_eq_ok_iff, required_eq_ok_iff, Except.pure_eq_ok_iff]
  constructor
  · rintro ⟨id, hid, key, hkey, controller, hcontroller, keys, hkeys, rfl⟩
    exact ⟨hid, hkey, hcontroller, hkeys⟩
  · rintro ⟨hid, hkey, hcontroller, hkeys⟩
    exact ⟨_, hid, _, hkey, _, hcontroller, _, hkeys, rfl⟩

theorem publicKeysOf_eq_ok_iff {v : Value} {keys : SortedMap Id String} :
    publicKeysOf v = .ok keys ↔
      ∃ members, v = .object members ∧ takePublicKeys .empty members = .ok keys := by
  cases v <;> simp [publicKeysOf]

theorem exists_keyData {v : Value} {envelope : Envelope} (h : Envelope.ofValue v = .ok envelope) :
    v.part? "keyData" 1 = some envelope.keyData := by
  obtain ⟨w, hpart, hw⟩ := Record.exists_part 1 h determines_keyData rfl
    (fun s hs => (Envelope.finish_eq_ok_iff.1 hs).2) (by decide) rfl
  rw [hpart, Except.ok.inj hw]

theorem exists_pubKeys {v : Value} {data : SignerData} (h : signerRecord.read v = .ok data) :
    ∃ members, v.part? "pubKeys" 3 = some (.object members) ∧
      takePublicKeys .empty members = .ok data.publicKeys := by
  obtain ⟨w, hpart, hw⟩ := Record.exists_part 3 h determines_signer.2.2.2 rfl
    (fun s hs => (finish_signer_eq_ok_iff.1 hs).2.2.2) (by decide) rfl
  obtain ⟨members, rfl, htake⟩ := publicKeysOf_eq_ok_iff.1 hw
  exact ⟨members, hpart, htake⟩

/-! ## From texts to the directory -/

/-- A key that stands for a text and is found under its identifier. -/
def Registered (m : SignerMaterial) (e : Id × String) : Prop :=
  ∃ key : PublicKey, Hex.decode e.2 = .ok key.toBytes ∧ (∃ b ∈ key.toBytes, b ≠ 0) ∧
    m.publicKeyOf e.1.octets.toList = .ok key

theorem publicKeyOf_eq_ok_iff {m : SignerMaterial} {id : Id} {key : PublicKey} :
    m.publicKeyOf id.octets.toList = .ok key ↔ SortedMap.get? m.directory id = some key := by
  unfold SignerMaterial.publicKeyOf Directory.get
  simp only [Except.bind_eq_ok_iff, Except.mapError_eq_ok_iff, Id.ofBytes_eq_ok_iff]
  constructor
  · rintro ⟨i, hi, h⟩
    obtain rfl : i = id := congrArg Id.mk (Octets.ext hi)
    cases hget : SortedMap.get? m.directory i with
    | none => exact absurd (hget ▸ h) (by simp)
    | some k =>
      rw [hget] at h
      exact congrArg some (Except.ok.inj h)
  · intro h
    exact ⟨id, rfl, by rw [h]⟩

/-- **Each text becomes the key of its identifier**, and there are no other keys. -/
theorem registered_of_spells {m : SignerMaterial} {texts : SortedMap Id String}
    {keys : List (Id × PublicKey)} (h : List.Forall₂ Spells texts.entries keys)
    (hdirectory : m.directory = SortedMap.insertAll SortedMap.empty keys) :
    (∀ e ∈ texts.entries, Registered m e) ∧
      (∀ id key, SortedMap.get? m.directory id = some key → ∃ text, (id, text) ∈ texts.entries) ∧
      m.directory.size = texts.size := by
  have hnodup : (keys.map Prod.fst).Nodup := map_fst_of_spells h ▸ texts.ascending.nodup
  rw [hdirectory]
  refine ⟨fun e he => ?_, fun id key hkey => ?_, ?_⟩
  · obtain ⟨k, hk, hid, hdecode, hzero⟩ := h.exists_of_mem_left he
    refine ⟨k.2, hdecode, Bytes.isZero_eq_false_iff.1 hzero, publicKeyOf_eq_ok_iff.2 ?_⟩
    rw [hdirectory, SortedMap.get?_insertAll_of_nodup hnodup, hid]
    exact hk
  · obtain ⟨e, he, hid, -⟩ :=
      h.exists_of_mem_right ((SortedMap.get?_insertAll_of_nodup hnodup).1 hkey)
    obtain ⟨i, text⟩ := e
    obtain rfl : i = id := hid
    exact ⟨text, he⟩
  · rw [SortedMap.size_insertAll hnodup]
    exact h.length_eq.symm

/-! ## What is loaded -/

/-- **The public keys that are loaded.** In a value that is a signer's material, the name of every
member of the public keys is that of an identifier, and its value is a text. Of the members for one
identifier the last is registered: its text is hex of 32 bytes that are not all zero, and these are
the key that is found. No other identifier has a key. If no two names stand for one identifier, then
all members are registered, and there are as many keys as members. -/
theorem loaded_public_keys (v : Value) (m : SignerMaterial)
    (h : (ofValue v).outcome = .ok (.signer m)) :
    ∃ members entries, publicKeyMembers? v = some members ∧ List.Forall₂ Names members entries ∧
      (∀ id text, entries.reverse.lookup id = some text → Registered m (id, text)) ∧
      (∀ id key, m.publicKeyOf id.octets.toList = .ok key → ∃ text, (id, text) ∈ entries) ∧
      ((entries.map Prod.fst).Nodup →
        (∀ e ∈ entries, Registered m e) ∧ m.directory.size = members.length) := by
  obtain ⟨envelope, henvelope, hdecode⟩ := outcome_ofValue_eq_ok_iff.1 h
  rcases outcome_decode_cases hdecode with ⟨s, hs⟩ | ⟨s, hs, hsigner⟩
  · exact absurd hs (by simp)
  obtain rfl := Material.signer.inj hs
  obtain ⟨data, hread, -, -, -, keys, hkeys, hdirectory⟩ :=
    outcome_decodeSigner_eq_ok_iff.1 hsigner
  obtain ⟨members, hpart, htake⟩ := exists_pubKeys hread
  obtain ⟨entries, hnames, htexts⟩ := takePublicKeys_eq_ok_iff.1 htake
  obtain ⟨hregistered, hothers, hsize⟩ := registered_of_spells hkeys hdirectory
  -- the texts that are kept are the last ones, and only these are turned into keys
  have hlookup : ∀ id text, entries.reverse.lookup id = some text ↔
      (id, text) ∈ data.publicKeys.entries := by
    intro id text
    rw [← SortedMap.get?_eq_some_iff, ← htexts, SortedMap.get?_insertAll, SortedMap.get?_empty,
      Option.or_none]
  refine ⟨members, entries, ?_, hnames, fun id text htext => ?_, fun id key hkey => ?_,
    fun hnodup => ?_⟩
  · unfold publicKeyMembers?
    rw [exists_keyData henvelope, Option.bind_some, hpart]
  · exact hregistered _ ((hlookup id text).1 htext)
  · obtain ⟨text, htext⟩ := hothers id key (publicKeyOf_eq_ok_iff.1 hkey)
    exact ⟨text, List.mem_reverse.1 (mem_of_lookup ((hlookup id text).2 htext))⟩
  · refine ⟨fun e he => ?_, ?_⟩
    · have hget := (SortedMap.get?_insertAll_of_nodup hnodup).2 he
      rw [htexts] at hget
      exact hregistered e (SortedMap.get?_eq_some_iff.1 hget)
    · rw [hsize, ← htexts, SortedMap.size_insertAll hnodup]
      exact hnames.length_eq.symm

/-- A signer of the seed zero who knows one key. -/
def knowingSigner : SignerMaterial :=
  ⟨⟨.zero 16⟩, ⟨.zero 32⟩, ⟨List.replicate 32 2, rfl⟩,
    SortedMap.insert .empty ⟨⟨List.replicate 16 0xaa, rfl⟩⟩ ⟨⟨List.replicate 32 4, rfl⟩⟩⟩

/-- The value that is written for this signer, loaded: the one member is registered. -/
theorem loaded_public_keys_written :
    (ofValue (printedValue (.signer knowingSigner))).outcome = .ok (.signer knowingSigner) ∧
      ∃ members entries, publicKeyMembers? (printedValue (.signer knowingSigner)) = some members ∧
        List.Forall₂ Names members entries ∧ entries.length = 1 ∧
        ∀ e ∈ entries, Registered knowingSigner e := by
  have hload := outcome_ofValue_printedValue.2
    ⟨(by decide : (Material.signer knowingSigner).Loadable), rfl⟩
  obtain ⟨members, entries, hmembers, hnames, -, -, hall⟩ := loaded_public_keys _ _ hload
  have hlength : entries.length = 1 := by
    have hone : publicKeyMembers? (printedValue (.signer knowingSigner)) = some [_] := rfl
    obtain rfl := Option.some.inj (hone.symm.trans hmembers)
    exact hnames.length_eq.symm
  obtain ⟨e, rfl⟩ := List.length_eq_one_iff.1 hlength
  exact ⟨hload, members, [e], hmembers, hnames, hlength, (hall (List.nodup_singleton e.1)).1⟩

/-- The value of a signer with two public keys, whose names differ only in case. The text of the first
is no hex. -/
def twinValue : Value :=
  .object
    [("keyData", .object
      [("c2PublicKey", hexValue (List.replicate 32 2)),
       ("privateKey", hexValue (SecretKey.toBytes ⟨.zero 32⟩)),
       ("pubKeys", .object
        [(String.ofList (List.replicate 32 'A'), .string "zz"),
         (String.ofList (List.replicate 32 'a'), hexValue (List.replicate 32 4))]),
       ("signerId", hexValue (List.replicate 16 0))]),
     ("keyType", .number (.integer 1))]

/-- **A member can be lost without having been checked**: the second of two names for one identifier
takes the place of the first, whose text is no key. -/
theorem loaded_public_keys_lost :
    (ofValue twinValue).outcome = .ok (.signer knowingSigner) ∧
      (∃ members, publicKeyMembers? twinValue = some members ∧
        (String.ofList (List.replicate 32 'A'), Value.string "zz") ∈ members ∧
        knowingSigner.directory.size < members.length) ∧
      ∀ bs, Hex.decode "zz" ≠ .ok bs := by
  have hload : (ofValue twinValue).outcome.toOption = some (.signer knowingSigner) := by
    decide +kernel
  have hhex : Hex.decode "zz" = .error (.badDigit 122 0) := by decide
  refine ⟨Except.eq_ok_of_toOption hload, ⟨_, rfl, List.mem_cons_self, ?_⟩, fun bs h => ?_⟩
  · decide
  · exact absurd (hhex.symm.trans h) (by simp)

end Snapshot

end SealedMessaging
