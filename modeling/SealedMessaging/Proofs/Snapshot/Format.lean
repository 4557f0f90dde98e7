import SealedMessaging.Proofs.Json.Proper
import SealedMessaging.Proofs.Json.Records
import SealedMessaging.Proofs.Snapshot.Loaded

/-!
# The snapshot format

A value loads as a material exactly if it has the format of snapshots for it. The format is stated
without any reading: an envelope that may have other members, data that may not, and texts that are
hex of either case.

* `Value.IsEnvelope`, `Format`: the format.
* `Envelope.ofValue_eq_ok_iff`, `sharedRecord_read_eq_ok_iff`, `signerRecord_read_eq_ok_iff`: what is
  read, layer by layer.
* `directory_iff`: the public keys.
* `outcome_ofValue_iff_format`: a value loads if and only if it has the format.
-/

namespace SealedMessaging.Snapshot

open Json

/-! ## The format -/

/-- **A value with a type and data**: an object that has these two members, or the list of the two. -/
inductive IsEnvelope (type data : Value) : Value → Prop where
  | object {members : List (String × Value)} (hasType : ("keyType", type) ∈ members)
      (hasData : ("keyData", data) ∈ members) : IsEnvelope type data (.object members)
  | array : IsEnvelope type data (.array [type, data])

/-- The parts of a signer's data. -/
def signerParts (id key controller : String) (members : List (String × Value)) :
    List (String × Value) :=
  [("signerId", .string id), ("privateKey", .string key), ("c2PublicKey", .string controller),
    ("pubKeys", .object members)]

/-- A text in hex for bytes that are not all zero. -/
def IsKey (text : String) (bs : Bytes) : Prop :=
  Hex.Denotes text bs ∧ ∃ b ∈ bs, b ≠ 0

/-- A member whose name is that of an identifier and whose value is a public key. -/
def IsEntry (member : String × Value) (id : Id) (key : PublicKey) : Prop :=
  Hex.Denotes member.1 id.octets.toList ∧ ∃ text, member.2 = .string text ∧ IsKey text key.toBytes

/-- **The format of snapshots** for a material. -/
inductive Format (v : Value) : Material → Prop where
  /-- The one field of shared material is its key. -/
  | shared {data : Value} {text : String} {m : SharedMaterial}
      (envelope : IsEnvelope (.number (.integer 0)) data v)
      (fields : data.IsRecord [("key", .string text)])
      (key : IsKey text m.key.toBytes) : Format v (.shared m)
  /-- A signer has four fields, of which the last holds a member for each public key. -/
  | signer {data : Value} {idText keyText controllerText : String} {bs : Bytes}
      {members : List (String × Value)} {m : SignerMaterial}
      (envelope : IsEnvelope (.number (.integer 1)) data v)
      (fields : data.IsRecord (signerParts idText keyText controllerText members))
      (id : Hex.Denotes idText m.id.octets.toList)
      (privateKey : Hex.Denotes keyText bs) (accepted : SecretKey.ofBytes bs = .ok m.key)
      (controller : IsKey controllerText m.controller.toList)
      (entries : ∀ member ∈ members, ∃ id key, IsEntry member id key)
      (directory : ∀ id key, SortedMap.get? m.directory id = some key ↔
        ∃ member ∈ members, IsEntry member id key) : Format v (.signer m)

/-! ## Envelopes -/

theorem asByte_eq_ok_iff {v : Value} {b : UInt8} :
    v.asByte = .ok b ↔ v = .number (.integer b.toNat) := by
  cases v with
  | number n =>
    cases n with
    | integer n =>
      have hb := b.toNat_lt
      unfold Value.asByte
      simp only [Value.number.injEq, Number.integer.injEq]
      split
      · rw [Except.ok.injEq, ← UInt8.toNat_inj, UInt8.toNat_ofNat']
        omega
      · exact ⟨nofun, fun h => by omega⟩
    | float negative m => simp [Value.asByte]
  | _ => simp [Value.asByte]

/-- **The envelope of a value** is its type and data, if the type is the integer of a byte. -/
theorem Envelope.ofValue_eq_ok_iff {v : Value} (hv : v.names.Nodup) {envelope : Envelope} :
    Envelope.ofValue v = .ok envelope ↔
      IsEnvelope (.number (.integer envelope.keyType.toNat)) envelope.keyData v := by
  cases v with
  | object members =>
    have hcount := List.nodup_iff_count.1 hv
    rw [ofValue_object_eq_ok_iff (hcount _) (hcount _)]
    simp only [asByte_eq_ok_iff, exists_eq_right, lookup_eq_some_iff hv]
    constructor
    · intro h
      exact .object h.2 h.1
    · intro h
      cases h with
      | object htype hdata => exact ⟨hdata, htype⟩
  | array items =>
    rw [ofValue_array_eq_ok_iff]
    simp only [asByte_eq_ok_iff, exists_eq_right]
    constructor
    · intro h
      rw [h]
      exact .array
    · intro h
      cases h with
      | array => rfl
  | _ =>
    constructor
    · intro h
      exact absurd h (by simp [ofValue, Record.read])
    · intro h
      cases h

/-! ## Fields -/

theorem determines_key :
    Determines sharedRecord.fields "key" Value.asString fun s : Option String => s := by
  intro field hfield s v s' htake
  obtain rfl := List.mem_singleton.1 hfield
  obtain ⟨text, htext, rfl⟩ := Except.map_eq_ok_iff.1 htake
  exact ⟨fun _ => ⟨text, htext, rfl⟩, fun h => absurd rfl h⟩

theorem finish_shared_eq_ok_iff {s : Option String} {text : String} :
    sharedRecord.finish s = .ok text ↔ s = some text :=
  required_eq_ok_iff

/-- **The data of shared material** have one field. -/
theorem sharedRecord_read_eq_ok_iff {v : Value} (hv : v.names.Nodup) {text : String} :
    sharedRecord.read v = .ok text ↔ v.IsRecord [("key", .string text)] := by
  constructor
  · intro h
    obtain ⟨w, hpart, hw⟩ : ∃ w, v.part? "key" 0 = some w ∧ w.asString = .ok (id text) :=
      Record.exists_part 0 h determines_key rfl (fun s => finish_shared_eq_ok_iff.1) (by decide) rfl
    obtain rfl := asString_eq_ok_iff.1 hw
    refine Record.isRecord_of_read rfl hv h rfl (by decide) (forall_getElem?_cons.2 ⟨hpart, ?_⟩)
    exact fun _ _ hi => nomatch hi
  · intro h
    have htakes : List.Forall₂ Record.Takes sharedRecord.fields [("key", .string text)] :=
      .cons ⟨rfl, fun _ => ⟨_, rfl⟩⟩ .nil
    obtain ⟨s, hs⟩ := Record.exists_takeAll (by decide) htakes h
    obtain ⟨text', htext, hview⟩ := Record.view_of_takeAll (i := 0) determines_key (by decide)
      rfl (h.part? (List.nodup_singleton _) rfl) hs
    obtain rfl := Value.string.inj (asString_eq_ok_iff.1 htext)
    rw [Record.read_eq_takeAll, hs]
    exact finish_shared_eq_ok_iff.2 hview

theorem asId_eq_ok_iff {v : Value} {id : Id} :
    v.asId = .ok id ↔ ∃ text, v = .string text ∧ Id.ofHex text = .ok id := by
  unfold Value.asId Value.idOfText
  simp only [Except.bind_eq_ok_iff, asString_eq_ok_iff, Except.mapError_eq_ok_iff]

/-- The fields of a signer take its parts in. -/
theorem takes_signerParts {idText key controller : String} {members : List (String × Value)} {id : Id}
    {texts : SortedMap Id String} (hid : Value.asId (.string idText) = .ok id)
    (htake : takePublicKeys .empty members = .ok texts) :
    List.Forall₂ Record.Takes signerRecord.fields (signerParts idText key controller members) :=
  .cons ⟨rfl, fun _ => ⟨_, Except.bind_eq_ok_iff.2 ⟨_, hid, rfl⟩⟩⟩
    (.cons ⟨rfl, fun _ => ⟨_, rfl⟩⟩ (.cons ⟨rfl, fun _ => ⟨_, rfl⟩⟩
      (.cons ⟨rfl, fun _ => ⟨_, Except.bind_eq_ok_iff.2 ⟨_, htake, rfl⟩⟩⟩ .nil)))

/-- **The data of a signer** have four fields. -/
theorem signerRecord_read_eq_ok_iff {v : Value} (hv : v.names.Nodup) {data : SignerData} :
    signerRecord.read v = .ok data ↔
      ∃ idText members,
        v.IsRecord (signerParts idText data.privateKey data.controller members) ∧
          Id.ofHex idText = .ok data.id ∧ takePublicKeys .empty members = .ok data.publicKeys := by
  obtain ⟨hdid, hdkey, hdcontroller, hdkeys⟩ := determines_signer
  constructor
  · intro h
    have hfinish := fun s : PartialSigner => (@finish_signer_eq_ok_iff s data).1
    obtain ⟨w₀, hpart₀, hw₀⟩ := Record.exists_part 0 h hdid rfl
      (fun s hs => (hfinish s hs).1) (by decide) rfl
    obtain ⟨w₁, hpart₁, hw₁⟩ := Record.exists_part 1 h hdkey rfl
      (fun s hs => (hfinish s hs).2.1) (by decide) rfl
    obtain ⟨w₂, hpart₂, hw₂⟩ := Record.exists_part 2 h hdcontroller rfl
      (fun s hs => (hfinish s hs).2.2.1) (by decide) rfl
    obtain ⟨members, hpart₃, htake⟩ := exists_pubKeys h
    obtain ⟨idText, rfl, hid⟩ := asId_eq_ok_iff.1 hw₀
    obtain rfl := asString_eq_ok_iff.1 hw₁
    obtain rfl := asString_eq_ok_iff.1 hw₂
    refine ⟨idText, members, ?_, hid, htake⟩
    refine Record.isRecord_of_read rfl hv h rfl (by decide) ?_
    simp only [signerParts, forall_getElem?_cons]
    exact ⟨hpart₀, hpart₁, hpart₂, hpart₃, fun _ _ hi => nomatch hi⟩
  · rintro ⟨idText, members, h, hid, htake⟩
    have hidOk : Value.asId (.string idText) = .ok data.id := asId_eq_ok_iff.2 ⟨idText, rfl, hid⟩
    have hnames : (signerRecord.fields.map Field.name).Nodup := by decide
    have hpart : ∀ {i name w}, (signerParts idText data.privateKey data.controller members)[i]? =
        some (name, w) → v.part? name i = some w := h.part? hnames
    obtain ⟨s, hs⟩ := Record.exists_takeAll hnames (takes_signerParts hidOk htake) h
    obtain ⟨_, hb₀, hview₀⟩ := Record.view_of_takeAll (i := 0) hdid hnames rfl (hpart rfl) hs
    obtain ⟨_, hb₁, hview₁⟩ := Record.view_of_takeAll (i := 1) hdkey hnames rfl (hpart rfl) hs
    obtain ⟨_, hb₂, hview₂⟩ := Record.view_of_takeAll (i := 2) hdcontroller hnames rfl (hpart rfl) hs
    obtain ⟨_, hb₃, hview₃⟩ := Record.view_of_takeAll (i := 3) hdkeys hnames rfl (hpart rfl) hs
    obtain rfl := Except.ok.inj (hidOk.symm.trans hb₀)
    obtain rfl := Except.ok.inj hb₁
    obtain rfl := Except.ok.inj hb₂
    obtain rfl := Except.ok.inj (htake.symm.trans hb₃)
    rw [Record.read_eq_takeAll, hs]
    exact finish_signer_eq_ok_iff.2 ⟨hview₀, hview₁, hview₂, hview₃⟩

/-! ## Public keys -/

/-- No two members have names that stand for one identifier. -/
def DistinctIds (members : List (String × Value)) : Prop :=
  members.Pairwise fun a b => ∀ id, Id.ofHex a.1 = .ok id → Id.ofHex b.1 ≠ .ok id

theorem isEntry_iff {member : String × Value} {id : Id} {key : PublicKey} :
    IsEntry member id key ↔ ∃ text, Names member (id, text) ∧ Spells (id, text) (id, key) := by
  unfold IsEntry IsKey Names Spells
  simp only [Id.ofHex_eq_ok_iff, Hex.decode_eq_ok_iff, Bytes.isZero_eq_false_iff, true_and]
  constructor
  · rintro ⟨hid, text, htext, hkey⟩
    exact ⟨text, ⟨hid, htext⟩, hkey⟩
  · rintro ⟨text, ⟨hid, htext⟩, hkey⟩
    exact ⟨hid, text, htext, hkey⟩

theorem Names.unique {member : String × Value} {e e' : Id × String} (h : Names member e)
    (h' : Names member e') : e = e' :=
  Prod.ext (Except.ok.inj (h.1.symm.trans h'.1)) (Value.string.inj (h.2.symm.trans h'.2))

theorem nodup_of_names {members : List (String × Value)} {entries : List (Id × String)}
    (h : List.Forall₂ Names members entries) (hids : DistinctIds members) :
    (entries.map Prod.fst).Nodup := by
  induction h with
  | nil => exact List.nodup_nil
  | @cons member e members entries hname hrest ih =>
    obtain ⟨hfirst, hothers⟩ := List.pairwise_cons.1 hids
    refine List.nodup_cons.2 ⟨fun hmem => ?_, ih hothers⟩
    obtain ⟨e', he', heq⟩ := List.mem_map.1 hmem
    obtain ⟨member', hmember', hname'⟩ := hrest.exists_of_mem_right he'
    exact hfirst member' hmember' e.1 hname.1 (heq ▸ hname'.1)

/-- The texts that are taken in are those of the members, if no two stand for one identifier. -/
theorem mem_texts_iff {members : List (String × Value)} (hids : DistinctIds members)
    {texts : SortedMap Id String} (h : takePublicKeys .empty members = .ok texts)
    {e : Id × String} : e ∈ texts.entries ↔ ∃ member ∈ members, Names member e := by
  obtain ⟨entries, hnames, rfl⟩ := takePublicKeys_eq_ok_iff.1 h
  have hmem : e ∈ (SortedMap.insertAll .empty entries).entries ↔ e ∈ entries := by
    obtain ⟨id, text⟩ := e
    rw [← SortedMap.get?_eq_some_iff, SortedMap.get?_insertAll_of_nodup (nodup_of_names hnames hids)]
  rw [hmem]
  constructor
  · exact hnames.exists_of_mem_right
  · rintro ⟨member, hmember, hname⟩
    obtain ⟨e', he', hname'⟩ := hnames.exists_of_mem_left hmember
    exact hname.unique hname' ▸ he'

/-- The keys that are found are those of the texts. -/
theorem get?_keys_iff {texts : SortedMap Id String} {keys : List (Id × PublicKey)}
    (h : List.Forall₂ Spells texts.entries keys) {id : Id} {key : PublicKey} :
    SortedMap.get? (SortedMap.insertAll .empty keys) id = some key ↔
      ∃ text, (id, text) ∈ texts.entries ∧ Spells (id, text) (id, key) := by
  have hnodup : (keys.map Prod.fst).Nodup := map_fst_of_spells h ▸ texts.ascending.nodup
  rw [SortedMap.get?_insertAll_of_nodup hnodup]
  constructor
  · intro hkey
    obtain ⟨⟨id', text⟩, htext, hspells⟩ := h.exists_of_mem_right hkey
    obtain rfl : id' = id := hspells.1
    exact ⟨text, htext, hspells⟩
  · rintro ⟨text, htext, hspells⟩
    obtain ⟨⟨id', key'⟩, hkey', hspells'⟩ := h.exists_of_mem_left htext
    obtain rfl : id = id' := hspells'.1
    have hbytes := Except.ok.inj (hspells.2.1.symm.trans hspells'.2.1)
    obtain rfl : key = key' := congrArg PublicKey.mk (Octets.ext hbytes)
    exact hkey'

/-- A key is found under an identifier if it is spelled by a text under it, and so by a member. -/
theorem get?_keys_iff_exists_isEntry {members : List (String × Value)} (hids : DistinctIds members)
    {texts : SortedMap Id String} {keys : List (Id × PublicKey)}
    (htake : takePublicKeys .empty members = .ok texts) (hkeys : List.Forall₂ Spells texts.entries keys)
    (id : Id) (key : PublicKey) :
    SortedMap.get? (SortedMap.insertAll .empty keys) id = some key ↔
      ∃ member ∈ members, IsEntry member id key := by
  simp only [get?_keys_iff hkeys, mem_texts_iff hids htake, isEntry_iff]
  constructor
  · rintro ⟨text, ⟨member, hmember, hname⟩, hspells⟩
    exact ⟨member, hmember, text, hname, hspells⟩
  · rintro ⟨member, hmember, text, hname, hspells⟩
    exact ⟨text, ⟨member, hmember, hname⟩, hspells⟩

/-- **The public keys of a signer** are those of the members, each of which must be one. -/
theorem directory_iff {members : List (String × Value)} (hids : DistinctIds members)
    {d : Directory} :
    (∃ texts, takePublicKeys .empty members = .ok texts ∧
        ∃ keys, List.Forall₂ Spells texts.entries keys ∧ d = SortedMap.insertAll .empty keys) ↔
      (∀ member ∈ members, ∃ id key, IsEntry member id key) ∧
        ∀ id key, SortedMap.get? d id = some key ↔ ∃ member ∈ members, IsEntry member id key := by
  constructor
  · rintro ⟨texts, htake, keys, hkeys, rfl⟩
    refine ⟨fun member hmember => ?_, get?_keys_iff_exists_isEntry hids htake hkeys⟩
    obtain ⟨entries, hnames, -⟩ := takePublicKeys_eq_ok_iff.1 htake
    obtain ⟨⟨id, text⟩, -, hname⟩ := hnames.exists_of_mem_left hmember
    obtain ⟨⟨id', key⟩, -, hspells⟩ :=
      hkeys.exists_of_mem_left ((mem_texts_iff hids htake).2 ⟨member, hmember, hname⟩)
    obtain rfl : id = id' := hspells.1
    exact ⟨id, key, isEntry_iff.2 ⟨text, hname, hspells⟩⟩
  · rintro ⟨hentries, hd⟩
    -- a text for each member and a key for each text, which together make up the directory
    obtain ⟨entries, hnames⟩ : ∃ entries, List.Forall₂ Names members entries := by
      refine List.exists_forall₂ fun member hmember => ?_
      obtain ⟨id, key, hentry⟩ := hentries member hmember
      obtain ⟨text, hname, -⟩ := isEntry_iff.1 hentry
      exact ⟨(id, text), hname⟩
    have htake : takePublicKeys .empty members = .ok (SortedMap.insertAll .empty entries) :=
      takePublicKeys_eq_ok_iff.2 ⟨entries, hnames, rfl⟩
    obtain ⟨keys, hkeys⟩ : ∃ keys,
        List.Forall₂ Spells (SortedMap.insertAll .empty entries).entries keys := by
      refine List.exists_forall₂ fun e he => ?_
      obtain ⟨member, hmember, hname⟩ := (mem_texts_iff hids htake).1 he
      obtain ⟨id, key, hentry⟩ := hentries member hmember
      obtain ⟨text, hname', hspells⟩ := isEntry_iff.1 hentry
      exact ⟨(id, key), hname.unique hname' ▸ hspells⟩
    refine ⟨_, htake, keys, hkeys, SortedMap.ext_get? fun id => Option.ext fun key => ?_⟩
    rw [hd, get?_keys_iff_exists_isEntry hids htake hkeys]

/-! ## The whole value -/

theorem names_nodup {v : Value} (hv : v.Proper) : v.names.Nodup := by
  cases hv with
  | object names => exact names
  | _ => exact List.nodup_nil

namespace IsEnvelope

variable {type data v : Value}

theorem proper_data (h : IsEnvelope type data v) (hv : v.Proper) : data.Proper := by
  cases h with
  | object _ hasData =>
    cases hv with
    | object _ values => exact values _ hasData
  | array =>
    cases hv with
    | array values => exact values data (List.mem_cons_of_mem _ List.mem_cons_self)

theorem part?_data (h : IsEnvelope type data v) (hv : v.Proper) :
    v.part? "keyData" 1 = some data := by
  cases h with
  | @object members _ hasData =>
    exact (lookup_reverse_eq_some_iff (names_nodup hv)).2 hasData
  | array => rfl

theorem publicKeyMembers?_eq (h : IsEnvelope type data v) (hv : v.Proper)
    {members : List (String × Value)} (hmembers : data.part? "pubKeys" 3 = some (.object members)) :
    publicKeyMembers? v = some members := by
  unfold publicKeyMembers?
  rw [h.part?_data hv, Option.bind_some, hmembers]

end IsEnvelope

theorem decodeShared_iff {v : Value} (hv : v.names.Nodup) {m : SharedMaterial} :
    decodeShared v = .ok m ↔
      ∃ text, v.IsRecord [("key", .string text)] ∧ IsKey text m.key.toBytes := by
  rw [decodeShared_eq_ok_iff]
  simp only [sharedRecord_read_eq_ok_iff hv, Hex.decode_eq_ok_iff, IsKey, Bytes.isZero_eq_false_iff]

theorem outcome_decodeSigner_iff {v : Value} (hv : v.names.Nodup)
    (hids : ∀ members, v.part? "pubKeys" 3 = some (.object members) → DistinctIds members)
    {m : SignerMaterial} :
    (decodeSigner v).outcome = .ok m ↔
      ∃ idText keyText controllerText members,
        v.IsRecord (signerParts idText keyText controllerText members) ∧
        Hex.Denotes idText m.id.octets.toList ∧
        Hex.Denotes keyText m.key.toBytes ∧
        IsKey controllerText m.controller.toList ∧
        (∀ member ∈ members, ∃ id key, IsEntry member id key) ∧
        ∀ id key, SortedMap.get? m.directory id = some key ↔
          ∃ member ∈ members, IsEntry member id key := by
  rw [outcome_decodeSigner_eq_ok_iff]
  simp only [signerRecord_read_eq_ok_iff hv, Hex.decode_eq_ok_iff, Id.ofHex_eq_ok_iff,
    ← Bytes.isZero_eq_false_iff, IsKey]
  have hdistinct : ∀ {idText keyText controllerText members},
      v.IsRecord (signerParts idText keyText controllerText members) → DistinctIds members := by
    intro idText keyText controllerText members h
    exact hids members (h.part? (by decide : (signerRecord.fields.map Field.name).Nodup) rfl)
  constructor
  · rintro ⟨data, ⟨idText, members, hfields, hid, htake⟩, hidEq, hkey, hcontroller, hkeys⟩
    rw [hidEq] at hid
    obtain ⟨hentries, hdirectory⟩ :=
      (directory_iff (hdistinct hfields)).1 ⟨data.publicKeys, htake, hkeys⟩
    exact ⟨idText, data.privateKey, data.controller, members, hfields, hid, hkey, hcontroller,
      hentries, hdirectory⟩
  · rintro ⟨idText, keyText, controllerText, members, hfields, hid, hkey, hcontroller, hentries,
      hdirectory⟩
    obtain ⟨texts, htake, hkeys⟩ := (directory_iff (hdistinct hfields)).2 ⟨hentries, hdirectory⟩
    exact ⟨⟨m.id, keyText, controllerText, texts⟩, ⟨idText, members, hfields, hid, htake⟩, rfl,
      hkey, hcontroller, hkeys⟩

/-- **The snapshot format.** A value in which no two names of public keys stand for one identifier
loads as a material if and only if it has the format of snapshots for it. -/
theorem outcome_ofValue_iff_format (v : Value) (hv : v.Proper)
    (hids : ∀ members, publicKeyMembers? v = some members → DistinctIds members) (m : Material) :
    (ofValue v).outcome = .ok m ↔ Format v m := by
  rw [outcome_ofValue_eq_ok_iff]
  simp only [Envelope.ofValue_eq_ok_iff (names_nodup hv), outcome_decode_eq_ok_iff]
  have hdistinct : ∀ {type data}, IsEnvelope type data v → ∀ members,
      data.part? "pubKeys" 3 = some (.object members) → DistinctIds members :=
    fun h members hmembers => hids members (h.publicKeyMembers?_eq hv hmembers)
  constructor
  · rintro ⟨⟨tag, data⟩, henvelope, rfl, hdata⟩
    have hnames := names_nodup (henvelope.proper_data hv)
    cases m with
    | shared m =>
      obtain ⟨text, hfields, hkey⟩ := (decodeShared_iff hnames).1 hdata
      exact .shared henvelope hfields hkey
    | signer m =>
      obtain ⟨idText, keyText, controllerText, members, hfields, hid, hkey, hcontroller, hentries,
        hdirectory⟩ := (outcome_decodeSigner_iff hnames (hdistinct henvelope)).1 hdata
      exact .signer henvelope hfields hid hkey (SecretKey.ofBytes_eq_ok_iff.2 rfl) hcontroller
        hentries hdirectory
  · intro h
    cases h with
    | @shared data text m henvelope hfields hkey =>
      have hnames := names_nodup (henvelope.proper_data hv)
      exact ⟨⟨0, data⟩, henvelope, rfl, (decodeShared_iff hnames).2 ⟨text, hfields, hkey⟩⟩
    | @signer data idText keyText controllerText bs members m henvelope hfields hid hkey haccepted
        hcontroller hentries hdirectory =>
      have hnames := names_nodup (henvelope.proper_data hv)
      obtain rfl := SecretKey.ofBytes_eq_ok_iff.1 haccepted
      exact ⟨⟨1, data⟩, henvelope, rfl, (outcome_decodeSigner_iff hnames (hdistinct henvelope)).2
        ⟨idText, keyText, controllerText, members, hfields, hid, hkey, hcontroller, hentries,
          hdirectory⟩⟩

/-- A signer's snapshot as a list that holds a list. The one public key has a name in upper case. -/
def listedValue : Value :=
  .array
    [.number (.integer 1),
     .array
      [hexValue (List.replicate 16 0),
       hexValue (SecretKey.toBytes ⟨.zero 32⟩),
       hexValue (List.replicate 32 2),
       .object [(String.ofList (List.replicate 32 'A'), hexValue (List.replicate 32 4))]]]

theorem outcome_ofValue_iff_format_listed :
    listedValue.Proper ∧
      (∀ members, publicKeyMembers? listedValue = some members → DistinctIds members) ∧
      Format listedValue (.signer knowingSigner) := by
  have hproper : listedValue.Proper := by
    refine .array (List.forall_mem_cons.2 ⟨.number _, List.forall_mem_singleton.2 (.array ?_)⟩)
    simp only [List.forall_mem_cons]
    exact ⟨.string _, .string _, .string _,
      .object (List.nodup_singleton _) (List.forall_mem_singleton.2 (.string _)),
      fun v hv => absurd hv List.not_mem_nil⟩
  have hids : ∀ members, publicKeyMembers? listedValue = some members → DistinctIds members := by
    intro members hmembers
    have hone : publicKeyMembers? listedValue = some [_] := rfl
    obtain rfl := Option.some.inj (hone.symm.trans hmembers)
    exact List.pairwise_singleton _ _
  have hload : (ofValue listedValue).outcome.toOption = some (.signer knowingSigner) := by
    decide +kernel
  exact ⟨hproper, hids,
    (outcome_ofValue_iff_format _ hproper hids _).1 (Except.eq_ok_of_toOption hload)⟩

end SealedMessaging.Snapshot
