import SealedMessaging.Proofs.Material.Changes
import SealedMessaging.Proofs.Related
import SealedMessaging.Proofs.SortedMap
import SealedMessaging.Snapshot

/-!
# Public keys of a snapshot

The public keys of a signer are read in two rounds: first the name of each member is turned into an
identifier, and the text of the member is kept under it; then the texts are turned into keys. A later
member takes the place of an earlier one for the same identifier in the first round.

* `takePublicKeys_eq_ok_iff`: the first round.
* `outcome_addPublicKeys_eq_ok_iff`: the second.
* `decodeShared_eq_ok_iff`, `outcome_decodeSigner_eq_ok_iff`: the material of a value with the fields
  of one kind or the other.
* `outcome_decode_eq_ok_iff`: the material of an envelope.
-/

namespace SealedMessaging

namespace Snapshot

open Json

/-! ## From members to texts -/

/-- A member whose name is that of an identifier and whose value is a text. -/
def Names (member : String × Value) (e : Id × String) : Prop :=
  Id.ofHex member.1 = .ok e.1 ∧ member.2 = .string e.2

theorem asString_eq_ok_iff {v : Value} {s : String} : v.asString = .ok s ↔ v = .string s := by
  cases v <;> simp [Value.asString]

/-- **Members are taken in if all names are those of identifiers and all values are texts.** -/
theorem takePublicKeys_eq_ok_iff {keys keys' : SortedMap Id String}
    {members : List (String × Value)} :
    takePublicKeys keys members = .ok keys' ↔
      ∃ entries, List.Forall₂ Names members entries ∧ keys.insertAll entries = keys' := by
  induction members generalizing keys with
  | nil => simp [takePublicKeys, SortedMap.insertAll]
  | cons member rest ih =>
    obtain ⟨name, v⟩ := member
    rw [takePublicKeys]
    simp only [Except.bind_eq_ok_iff, asString_eq_ok_iff, ih, Value.idOfText,
      Except.mapError_eq_ok_iff, List.forall₂_cons_left_iff]
    constructor
    · rintro ⟨id, hid, text, rfl, entries, hentries, rfl⟩
      exact ⟨_, ⟨(id, text), entries, ⟨hid, rfl⟩, hentries, rfl⟩, rfl⟩
    · rintro ⟨_, ⟨⟨id, text⟩, entries, ⟨hid, hv⟩, hentries, rfl⟩, rfl⟩
      exact ⟨id, hid, text, hv, entries, hentries, rfl⟩

/-! ## From texts to keys -/

/-- A text that stands for the key of the same identifier. -/
def Spells (e : Id × String) (k : Id × PublicKey) : Prop :=
  e.1 = k.1 ∧ Hex.decode e.2 = .ok k.2.toBytes ∧ k.2.toBytes.isZero = false

theorem map_fst_of_spells {texts : List (Id × String)} {keys : List (Id × PublicKey)}
    (h : List.Forall₂ Spells texts keys) : keys.map Prod.fst = texts.map Prod.fst := by
  induction h with
  | nil => rfl
  | cons hspells _ ih => rw [List.map_cons, List.map_cons, ih, hspells.1]

theorem hexField_eq_ok_iff {field text : String} {bs : Bytes} :
    hexField field text = .ok bs ↔ Hex.decode text = .ok bs :=
  Except.mapError_eq_ok_iff

/-- **Texts are registered if each of them stands for a key.** -/
theorem outcome_addPublicKeys_eq_ok_iff {m m' : SignerMaterial} {texts : List (Id × String)} :
    (addPublicKeys m texts).outcome = .ok m' ↔
      ∃ keys, List.Forall₂ Spells texts keys ∧
        { m with directory := SortedMap.insertAll m.directory keys } = m' := by
  -- by the texts, each of which is registered before the next is looked at
  induction texts generalizing m with
  | nil => simp [addPublicKeys, SortedMap.insertAll]
  | cons e rest ih =>
    obtain ⟨id, text⟩ := e
    rw [addPublicKeys]
    simp only [Report.outcome_bind_eq_ok_iff, Report.outcome_ofExcept, Report.outcome_mapError,
      Except.mapError_eq_ok_iff, hexField_eq_ok_iff, ih, List.forall₂_cons_left_iff,
      SignerMaterial.outcome_addPublicKey_eq_ok_iff, Id.ofBytes_eq_ok_iff,
      PublicKey.ofBytes_eq_ok_iff]
    constructor
    · rintro ⟨bs, hbs, _, ⟨i, k, hi, ⟨rfl, hzero⟩, rfl⟩, keys, hkeys, rfl⟩
      obtain rfl : i = id := congrArg Id.mk (Octets.ext hi)
      exact ⟨_, ⟨(i, k), keys, ⟨rfl, hbs, hzero⟩, hkeys, rfl⟩, rfl⟩
    · rintro ⟨_, ⟨⟨i, k⟩, keys, ⟨hi, hbs, hzero⟩, hkeys, rfl⟩, rfl⟩
      obtain rfl : id = i := hi
      exact ⟨_, hbs, _, ⟨id, k, rfl, ⟨rfl, hzero⟩, rfl⟩, keys, hkeys, rfl⟩

/-! ## Materials -/

/-- **A value is a signer's material** if it has the four fields, and they spell the material. -/
theorem outcome_decodeSigner_eq_ok_iff {v : Value} {m : SignerMaterial} :
    (decodeSigner v).outcome = .ok m ↔
      ∃ data, signerRecord.read v = .ok data ∧ data.id = m.id ∧
        Hex.decode data.privateKey = .ok m.key.toBytes ∧
        (Hex.decode data.controller = .ok m.controller.toList ∧
          m.controller.toList.isZero = false) ∧
        ∃ keys, List.Forall₂ Spells data.publicKeys.entries keys ∧
          m.directory = SortedMap.insertAll SortedMap.empty keys := by
  unfold decodeSigner shaped
  simp only [Report.outcome_bind_eq_ok_iff, Report.outcome_ofExcept, Except.mapError_eq_ok_iff,
    hexField_eq_ok_iff, SignerMaterial.ofBytes_eq_ok_iff, outcome_addPublicKeys_eq_ok_iff]
  refine exists_congr fun data => and_congr_right fun _ => ?_
  constructor
  · rintro ⟨_, hkey, _, hcontroller, m₀, ⟨rfl, hid, ⟨rfl, hzero⟩, hempty⟩, keys, hkeys, rfl⟩
    exact ⟨congrArg Id.mk (Octets.ext hid.symm), hkey, ⟨hcontroller, hzero⟩, keys, hkeys,
      congrArg (SortedMap.insertAll · keys) hempty⟩
  · rintro ⟨hid, hkey, ⟨hcontroller, hzero⟩, keys, hkeys, hdirectory⟩
    refine ⟨_, hkey, _, hcontroller, { m with directory := SortedMap.empty },
      ⟨rfl, by rw [hid], ⟨rfl, hzero⟩, rfl⟩, keys, hkeys, ?_⟩
    rw [← hdirectory]

/-- **A value is shared material** if it has the one field, and that spells the key. -/
theorem decodeShared_eq_ok_iff {v : Value} {m : SharedMaterial} :
    decodeShared v = .ok m ↔
      ∃ text, sharedRecord.read v = .ok text ∧ Hex.decode text = .ok m.key.toBytes ∧
        m.key.toBytes.isZero = false := by
  unfold decodeShared shaped SharedMaterial.ofBytes
  simp only [Except.bind_eq_ok_iff, Except.mapError_eq_ok_iff, Except.map_eq_ok_iff,
    hexField_eq_ok_iff, SymmetricKey.ofBytes_eq_ok_iff]
  refine exists_congr fun text => and_congr_right fun _ => ?_
  constructor
  · rintro ⟨_, hbytes, key, ⟨rfl, hzero⟩, rfl⟩
    exact ⟨hbytes, hzero⟩
  · rintro ⟨hbytes, hzero⟩
    exact ⟨_, hbytes, m.key, ⟨rfl, hzero⟩, rfl⟩

theorem keyTypeOf_eq_ok_iff {tag : UInt8} {keyType : KeyType} :
    keyTypeOf tag = .ok keyType ↔ tag = keyType.tag := by
  unfold keyTypeOf KeyType.ofTag?
  by_cases hzero : tag = 0
  · subst hzero
    cases keyType <;> simp [KeyType.tag]
  · by_cases hone : tag = 1
    · subst hone
      cases keyType <;> simp [KeyType.tag]
    · cases keyType <;> simp [KeyType.tag, hzero, hone]

/-- **The material of an envelope** is what its data are for the kind that its number stands for. -/
theorem outcome_decode_eq_ok_iff {envelope : Envelope} {m : Material} :
    (decode envelope).outcome = .ok m ↔
      envelope.keyType = m.keyType.tag ∧
        match m with
        | .shared s => decodeShared envelope.keyData = .ok s
        | .signer s => (decodeSigner envelope.keyData).outcome = .ok s := by
  unfold decode
  simp only [Report.outcome_bind_eq_ok_iff, Report.outcome_ofExcept, keyTypeOf_eq_ok_iff]
  constructor
  · rintro ⟨keyType, htag, h⟩
    cases keyType with
    | shared =>
      obtain ⟨s, hs, hm⟩ := Report.outcome_bind_eq_ok_iff.1 h
      obtain rfl := Except.ok.inj hm
      exact ⟨htag, hs⟩
    | signer =>
      obtain ⟨s, hs, hm⟩ := Report.outcome_bind_eq_ok_iff.1 h
      obtain rfl := Except.ok.inj hm
      exact ⟨htag, hs⟩
  · rintro ⟨htag, h⟩
    cases m with
    | shared s => exact ⟨.shared, htag, Report.outcome_bind_eq_ok_iff.2 ⟨s, h, rfl⟩⟩
    | signer s => exact ⟨.signer, htag, Report.outcome_bind_eq_ok_iff.2 ⟨s, h, rfl⟩⟩

/-- A material that an envelope holds is shared or that of a signer. -/
theorem outcome_decode_cases {envelope : Envelope} {m : Material}
    (h : (decode envelope).outcome = .ok m) :
    (∃ s, m = .shared s) ∨
      ∃ s, m = .signer s ∧ (decodeSigner envelope.keyData).outcome = .ok s := by
  obtain ⟨keyType, -, h⟩ := Report.outcome_bind_eq_ok_iff.1 h
  cases keyType with
  | shared =>
    obtain ⟨s, -, hs⟩ := Report.outcome_bind_eq_ok_iff.1 h
    exact Or.inl ⟨s, (Except.ok.inj hs).symm⟩
  | signer =>
    obtain ⟨s, hsigner, hs⟩ := Report.outcome_bind_eq_ok_iff.1 h
    exact Or.inr ⟨s, (Except.ok.inj hs).symm, hsigner⟩

end Snapshot

end SealedMessaging
