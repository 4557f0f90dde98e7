import SealedMessaging.Proofs.HexTexts
import SealedMessaging.Proofs.Material.Changes
import SealedMessaging.Proofs.Snapshot.Loaded

/-!
# Private keys come out as they went in

A private key is written as its seed with the public key of the seed behind it. Reading looks for a
point in the second half, but what decides is that the half is this public key byte for byte, so a
seed has one written form, and what is accepted is written again as it was.

* `SecretKey.exists_ofBytes_iff`: the byte strings that are private keys.
* `SecretKey.existsUnique_ofBytes`, `SecretKey.ofBytes_of_other`: one for each seed, and what comes of
  any other second half.
* `Snapshot.exists_privateKey_of_load`, `Snapshot.exists_privateKey_of_write`: private keys in
  snapshots.
* `private_key_form_exact`: all of this together.
-/

namespace SealedMessaging

namespace SecretKey

variable {bs : Bytes} {key : SecretKey}

/-- The two halves of the written form. -/
theorem take_drop_toBytes (key : SecretKey) :
    key.toBytes.take 32 = key.seed.toList ∧ key.toBytes.drop 32 = key.publicKey.toBytes :=
  ⟨Octets.take_append_toList _ _, Octets.drop_append_toList _ _⟩

/-- **The byte strings that are private keys** end with the public key of the seed they begin with. -/
theorem exists_ofBytes_iff :
    (∃ key, ofBytes bs = .ok key) ↔
      bs.length = 64 ∧ (∃ b ∈ bs, b ≠ 0) ∧
        bs.drop 32 = (Signature.publicOf (.fit 32 (bs.take 32))).toList := by
  simp only [ofBytes_eq_ok_iff]
  constructor
  · rintro ⟨key, rfl⟩
    obtain ⟨hseed, hpublic⟩ := key.take_drop_toBytes
    refine ⟨key.length_toBytes, Bytes.isZero_eq_false_iff.1 key.isZero_toBytes, ?_⟩
    rw [hseed, hpublic, Octets.fit_toList]
    rfl
  · rintro ⟨hlen, -, hpublic⟩
    refine ⟨⟨.fit 32 (bs.take 32)⟩, ?_⟩
    unfold toBytes publicKey PublicKey.toBytes
    rw [← hpublic, Octets.toList_fit_take (by omega), List.take_append_drop]

theorem toBytes_of_ofBytes (h : ofBytes bs = .ok key) :
    key.toBytes = bs ∧ key.publicKey.toBytes = bs.drop 32 ∧ key.seed.toList = bs.take 32 := by
  obtain rfl := ofBytes_eq_ok_iff.1 h
  obtain ⟨hseed, hpublic⟩ := key.take_drop_toBytes
  exact ⟨rfl, hpublic.symm, hseed.symm⟩

/-- **Each seed has one written form.** -/
theorem existsUnique_ofBytes (seed : Octets 32) :
    ∃! bs : Bytes, bs.take 32 = seed.toList ∧ ∃ key, ofBytes bs = .ok key := by
  refine ⟨toBytes ⟨seed⟩, ⟨(take_drop_toBytes _).1, ⟨seed⟩, ofBytes_eq_ok_iff.2 rfl⟩, ?_⟩
  rintro bs ⟨hseed, key, hkey⟩
  obtain ⟨rfl, -, hkeySeed⟩ := toBytes_of_ofBytes hkey
  obtain rfl : key.seed = seed := Octets.ext (hkeySeed.trans hseed)
  rfl

/-- **Any other second half is refused**, even if it is another form of the same point. -/
theorem ofBytes_of_other {seed other : Octets 32} (hother : other ≠ Signature.publicOf seed)
    (hnonzero : ∃ b ∈ seed.toList ++ other.toList, b ≠ 0) :
    ofBytes (seed.toList ++ other.toList) =
      .error (.keyPair (if (Point.decode? other).isSome then .mismatch else .notPoint)) := by
  have hlen : (seed.toList ++ other.toList).length = 64 := by
    rw [List.length_append, seed.length_toList, other.length_toList]
  have hpair : checked (nonzeroOctetsOf .privateKey 64 (seed.toList ++ other.toList)) =
      .ok ⟨seed.toList ++ other.toList, hlen⟩ :=
    checked_eq_ok_iff.2
      (nonzeroOctetsOf_eq_ok_iff.2 ⟨rfl, Bytes.isZero_eq_false_iff.2 hnonzero⟩)
  have hfirst : Octets.fit 32 ((seed.toList ++ other.toList).take 32) = seed :=
    Octets.fit_take_append seed other.toList
  have hsecond : Octets.fit 32 ((seed.toList ++ other.toList).drop 32) = other := by
    rw [Octets.drop_append_toList, Octets.fit_toList]
  have hpublic : ¬ other = (publicKey ⟨seed⟩).octets := hother
  unfold ofBytes
  rw [hpair]
  simp only [bind, Except.bind, hfirst, hsecond, if_neg hpublic]
  cases Point.decode? other <;> rfl

end SecretKey

theorem SignerMaterial.key_of_ofBytes {id key controller : Bytes} {m : SignerMaterial}
    (h : ofBytes id key controller = .ok m) : m.key.toBytes = key :=
  (ofBytes_eq_ok_iff.1 h).1

theorem Material.key_of_setKey {m : Material} {key : Bytes} {s : SignerMaterial}
    (h : (m.setKey key).outcome = .ok (.signer s)) : s.key.toBytes = key := by
  cases m with
  | shared m =>
    obtain ⟨s', -, hs'⟩ := Report.outcome_bind_eq_ok_iff.1 h
    exact absurd (Except.ok.inj hs') (by simp)
  | signer m =>
    obtain ⟨s', hset, hs'⟩ := Report.outcome_bind_eq_ok_iff.1 h
    obtain rfl := Material.signer.inj (Except.ok.inj hs')
    obtain ⟨k, hk, rfl⟩ := SignerMaterial.outcome_setKey_eq_ok_iff.1 hset
    exact SecretKey.ofBytes_eq_ok_iff.1 hk

namespace Snapshot

open Json

/-- **The private key that is loaded** is the one whose hex text stands in the snapshot. -/
theorem exists_privateKey_of_load {route : Route} {text : String} {m : SignerMaterial}
    (h : (load route text).outcome = .ok (.signer m)) :
    ∃ envelope keyText, route.Finds text envelope ∧
      envelope.keyData.part? "privateKey" 1 = some (.string keyText) ∧
      Hex.Denotes keyText m.key.toBytes := by
  obtain ⟨envelope, hfinds, hm⟩ := outcome_load_eq_ok_iff.1 h
  obtain ⟨-, hsigner⟩ := outcome_decode_eq_ok_iff.1 hm
  obtain ⟨data, hread, -, hkey, -⟩ := outcome_decodeSigner_eq_ok_iff.1 hsigner
  obtain ⟨w, hpart, hw⟩ := Record.exists_part 1 hread determines_signer.2.1 rfl
    (fun s hs => (finish_signer_eq_ok_iff.1 hs).2.1) (by decide) rfl
  cases w with
  | string keyText =>
    obtain rfl := Except.ok.inj hw
    exact ⟨envelope, _, hfinds, hpart, Hex.decode_eq_ok_iff.1 hkey⟩
  | _ => exact absurd hw (by simp [Value.asString])

/-- **The private key that is written** is the hex text of its bytes. -/
theorem exists_privateKey_of_write (route : Route) (m : SignerMaterial) :
    ∃ envelope, route.Finds (write (.signer m)) envelope ∧
      envelope.keyData.part? "privateKey" 1 = some (.string (Hex.encode m.key.toBytes)) :=
  ⟨_, finds_write route (.signer m), rfl⟩

end Snapshot

/-- **The 64-byte form of private keys is exact and unique.** A byte string is a private key if it is
64 bytes that are not all zero and its second half is the public key of the seed in its first half;
it is the written form of the key then. So each seed has one written form, any other second half is
refused, whether it is a point or not, and keys are told apart by their written forms. A private key
that is accepted for new material, as the next key or from a snapshot is written to snapshots as it
was. -/
theorem private_key_form_exact :
    (∀ bs : Bytes, (∃ key, SecretKey.ofBytes bs = .ok key) ↔
      bs.length = 64 ∧ (∃ b ∈ bs, b ≠ 0) ∧
        bs.drop 32 = (Signature.publicOf (.fit 32 (bs.take 32))).toList) ∧
    (∀ (bs : Bytes) key, SecretKey.ofBytes bs = .ok key →
      key.toBytes = bs ∧ key.publicKey.toBytes = bs.drop 32 ∧ key.seed.toList = bs.take 32) ∧
    (∀ seed : Octets 32,
      ∃! bs : Bytes, bs.take 32 = seed.toList ∧ ∃ key, SecretKey.ofBytes bs = .ok key) ∧
    (∀ seed other : Octets 32, other ≠ Signature.publicOf seed →
      (∃ b ∈ seed.toList ++ other.toList, b ≠ 0) →
      SecretKey.ofBytes (seed.toList ++ other.toList) =
        .error (.keyPair (if (Point.decode? other).isSome then .mismatch else .notPoint))) ∧
    (∀ a b : SecretKey, a = b ↔ a.toBytes = b.toBytes) ∧
    (∀ id key controller m, SignerMaterial.ofBytes id key controller = .ok m →
      m.key.toBytes = key) ∧
    (∀ (m : Material) key s, (m.setKey key).outcome = .ok (.signer s) → s.key.toBytes = key) ∧
    (∀ (route : Snapshot.Route) text m, (Snapshot.load route text).outcome = .ok (.signer m) →
      ∃ envelope keyText, route.Finds text envelope ∧
        envelope.keyData.part? "privateKey" 1 = some (.string keyText) ∧
        Hex.Denotes keyText m.key.toBytes ∧ Hex.encode m.key.toBytes = keyText.toLower) ∧
    (∀ (route : Snapshot.Route) (m : SignerMaterial),
      ∃ envelope, route.Finds (Snapshot.write (.signer m)) envelope ∧
        envelope.keyData.part? "privateKey" 1 = some (.string (Hex.encode m.key.toBytes))) := by
  refine ⟨fun bs => SecretKey.exists_ofBytes_iff, fun bs key => SecretKey.toBytes_of_ofBytes,
    SecretKey.existsUnique_ofBytes, fun seed other => SecretKey.ofBytes_of_other,
    fun a b => SecretKey.toBytes_inj.symm, fun id key controller m => SignerMaterial.key_of_ofBytes,
    fun m key s => Material.key_of_setKey, fun route text m h => ?_,
    Snapshot.exists_privateKey_of_write⟩
  obtain ⟨envelope, keyText, hfinds, hpart, hkey⟩ := Snapshot.exists_privateKey_of_load h
  exact ⟨envelope, keyText, hfinds, hpart, hkey, hkey.encode_eq⟩

/-- A signer with the key of the seed zero is written and loaded again; this seed is refused with the
neutral point behind it. -/
theorem private_key_form_exact_reloaded :
    let text := Snapshot.write (.signer Snapshot.knowingSigner)
    (Snapshot.load .text text).outcome = .ok (.signer Snapshot.knowingSigner) ∧
      (∃ envelope keyText, Snapshot.Route.text.Finds text envelope ∧
        envelope.keyData.part? "privateKey" 1 = some (.string keyText) ∧
        Hex.encode Snapshot.knowingSigner.key.toBytes = keyText.toLower) ∧
      ∃ fault, SecretKey.ofBytes ((Octets.zero 32).toList ++ (Octets.fit 32 [1]).toList) =
        .error (.keyPair fault) := by
  intro text
  have hload : (Snapshot.load .text text).outcome = .ok (.signer Snapshot.knowingSigner) :=
    Snapshot.outcome_load_write.2 ⟨by decide, rfl⟩
  have hother : Octets.fit 32 [1] ≠ Signature.publicOf (.zero 32) := by decide +kernel
  obtain ⟨-, -, -, hrefused, -, -, -, hloaded, -⟩ := private_key_form_exact
  obtain ⟨envelope, keyText, hfinds, hpart, -, hlower⟩ := hloaded .text text _ hload
  exact ⟨hload, ⟨envelope, keyText, hfinds, hpart, hlower⟩, _,
    hrefused _ _ hother ⟨1, by decide, by decide⟩⟩

end SealedMessaging
