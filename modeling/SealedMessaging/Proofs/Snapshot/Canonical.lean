import SealedMessaging.Proofs.Directory
import SealedMessaging.Proofs.Json.Places
import SealedMessaging.Proofs.Snapshot.Loaded

/-!
# Snapshots are canonical

What is written for a material tells its contents and nothing else, since the value of what is
written has all of them and a directory is kept by identifiers. In what is read, the members of an
object inside the envelope can stand in any order: the envelope reads the same then, up to where it
ends, and so does all that follows from it.

* `Material.SameContents`, `write_eq_write_iff`: when two materials are written alike.
* `Envelope.read_place`: an envelope with the members of an object inside it in another order.
* `snapshots_canonical`: both halves.
-/

namespace SealedMessaging

/-- **Materials with the same contents**: of one kind, with the same keys, and a signer's with the
same public key for each identifier. -/
def Material.SameContents : Material → Material → Prop
  | .shared m, .shared m' => m.key = m'.key
  | .signer m, .signer m' => m.id = m'.id ∧ m.key = m'.key ∧ m.controller = m'.controller ∧
      ∀ id, SortedMap.get? m.directory id = SortedMap.get? m'.directory id
  | _, _ => False

theorem Material.sameContents_iff {m m' : Material} : m.SameContents m' ↔ m = m' := by
  cases m with
  | shared m =>
    cases m' with
    | shared m' =>
      obtain ⟨key⟩ := m
      obtain ⟨key'⟩ := m'
      simp [SameContents]
    | signer m' => simp [SameContents]
  | signer m =>
    cases m' with
    | shared m' => simp [SameContents]
    | signer m' =>
      obtain ⟨id, key, controller, directory⟩ := m
      obtain ⟨id', key', controller', directory'⟩ := m'
      constructor
      · rintro ⟨rfl, rfl, rfl, hget⟩
        obtain rfl := SortedMap.ext_get? hget
        rfl
      · intro h
        injection h with h
        obtain ⟨rfl, rfl, rfl, rfl⟩ := SignerMaterial.mk.inj h
        exact ⟨rfl, rfl, rfl, fun _ => rfl⟩

namespace Snapshot

open Json

/-! ## Writing -/

theorem hexValue_inj {a b : Bytes} (h : hexValue a = hexValue b) : a = b := by
  have hread := congrArg Hex.decode (Value.string.inj h)
  rw [Hex.decode_encode, Hex.decode_encode] at hread
  exact Except.ok.inj hread

theorem octets_inj_of_hexValue {n : Nat} {a b : Octets n}
    (h : hexValue a.toList = hexValue b.toList) : a = b :=
  Octets.ext (hexValue_inj h)

theorem directoryMembers_inj {d d' : Directory} (h : directoryMembers d = directoryMembers d') :
    d = d' := by
  refine SortedMap.ext (List.map_injective_iff.2 (fun e e' heq => ?_) h)
  obtain ⟨hid, hkey⟩ := Prod.mk.inj heq
  have hid : e.1 = e'.1 := congrArg Id.mk (octets_inj_of_hexValue (congrArg Value.string hid))
  have hkey : e.2 = e'.2 := congrArg PublicKey.mk (octets_inj_of_hexValue hkey)
  exact Prod.ext hid hkey

/-- The value of a material has all of its contents. -/
theorem printedValue_inj {m m' : Material} (h : printedValue m = printedValue m') : m = m' := by
  have hmembers := Value.object.inj h
  simp only [List.cons.injEq, Prod.mk.injEq, true_and, and_true] at hmembers
  obtain ⟨hdata, htag⟩ := hmembers
  -- materials of two kinds differ in their tags
  cases m with
  | shared m =>
    cases m' with
    | shared m' =>
      have hkey := Value.object.inj hdata
      simp only [List.cons.injEq, Prod.mk.injEq, true_and, and_true] at hkey
      obtain ⟨⟨key⟩⟩ := m
      obtain ⟨⟨key'⟩⟩ := m'
      obtain rfl : key = key' := octets_inj_of_hexValue hkey
      rfl
    | signer m' => exact absurd htag (by simp [tagValue, Material.keyType, KeyType.tag])
  | signer m =>
    cases m' with
    | shared m' => exact absurd htag (by simp [tagValue, Material.keyType, KeyType.tag])
    | signer m' =>
      have hparts := Value.object.inj hdata
      simp only [List.cons.injEq, Prod.mk.injEq, true_and, and_true] at hparts
      obtain ⟨hcontroller, hkey, hkeys, hid⟩ := hparts
      obtain ⟨⟨id⟩, key, controller, directory⟩ := m
      obtain ⟨⟨id'⟩, key', controller', directory'⟩ := m'
      obtain rfl : id = id' := octets_inj_of_hexValue hid
      obtain rfl : key = key' := SecretKey.toBytes_inj.1 (hexValue_inj hkey)
      obtain rfl : controller = controller' := octets_inj_of_hexValue hcontroller
      obtain rfl : directory = directory' := directoryMembers_inj (Value.object.inj hkeys)
      rfl

/-- **Materials are written alike if and only if they have the same contents.** -/
theorem write_eq_write_iff {m m' : Material} : write m = write m' ↔ m.SameContents m' := by
  rw [Material.sameContents_iff]
  refine ⟨fun h => printedValue_inj ?_, congrArg write⟩
  have hparse := parse_write m
  rw [h, parse_write] at hparse
  exact (Except.ok.inj hparse).symm

/-! ## Reading -/

/-- A list is read as the envelope of its items, and as their value. -/
theorem Envelope.read_list {t u rest : Text} {vs : List Value} (h : skipBlanks t = '[' :: u)
    (hread : readItems (readValue dataDepth) (u.length + 1) true [] u = .ok (vs, rest)) :
    Envelope.read t = (listed vs).map (fun envelope => (envelope, rest)) ∧
      readValue maxDepth t = .ok (.array vs, rest) := by
  refine ⟨?_, readValue_list h hread⟩
  unfold Envelope.read
  rw [h]
  exact readList_eq_listed (rfl : dataDepth = 125 + 1) hread

/-- An object is read as the envelope of its members, each taken in once, and as their value. -/
theorem Envelope.read_object {t u rest : Text} {entries : List (String × Value)}
    (h : skipBlanks t = '\x7b' :: u)
    (hread : readEntries (readValue dataDepth) (u.length + 1) true u = .ok (entries, rest)) :
    Envelope.read t =
        (shaped (Partial.empty.takeOnce entries >>= Partial.finish)).map
          (fun envelope => (envelope, rest)) ∧
      readValue maxDepth t = .ok (.object (gather [] entries), rest) := by
  refine ⟨?_, readValue_object h hread⟩
  unfold Envelope.read
  rw [h]
  exact readObject_of_readEntries (rfl : dataDepth = 125 + 1) hread

/-- **An envelope reads the same if what stands at a place inside it does**, and so does its
value. -/
theorem Envelope.read_place {outer inner : Nat} {step : String × Nat} {path : List (String × Nat)}
    {place : Text → Text} (h : Place outer inner (step :: path) place) (houter : outer = maxDepth)
    {t t' : Text} {v : Value} (ht : Reads inner t v) (ht' : Reads inner t' v) :
    Envelope.read (place t) = Envelope.read (place t') ∧
      readValue maxDepth (place t) = readValue maxDepth (place t') := by
  cases h with
  | @item depth _ _ _ _ trail _ _ hlead _ before after _ within =>
    obtain rfl : depth = dataDepth := Nat.succ.inj houter
    obtain ⟨w, hw, hw'⟩ := within.standsFor ht ht'
    -- the items have the same values, whatever stands at the place
    obtain ⟨u, hu, hitems⟩ := exists_readItems_among hw before after hlead trail
    obtain ⟨u', hu', hitems'⟩ := exists_readItems_among hw' before after hlead trail
    obtain ⟨henvelope, hvalue⟩ := Envelope.read_list hu hitems
    obtain ⟨henvelope', hvalue'⟩ := Envelope.read_list hu' hitems'
    exact ⟨henvelope.trans henvelope'.symm, hvalue.trans hvalue'.symm⟩
  | @member depth _ _ _ _ trail _ _ _ hlead _ heads before after within =>
    obtain rfl : depth = dataDepth := Nat.succ.inj houter
    obtain ⟨w, hw, hw'⟩ := within.standsFor ht ht'
    obtain ⟨u, hu, hentries⟩ := exists_readEntries_among hw heads before after hlead trail
    obtain ⟨u', hu', hentries'⟩ := exists_readEntries_among hw' heads before after hlead trail
    obtain ⟨henvelope, hvalue⟩ := Envelope.read_object hu hentries
    obtain ⟨henvelope', hvalue'⟩ := Envelope.read_object hu' hentries'
    exact ⟨henvelope.trans henvelope'.symm, hvalue.trans hvalue'.symm⟩

/-- What is loaded, or why not, depends on how the envelope and the value of a text are read. -/
theorem load_congr {text text' : String}
    (henvelope : Envelope.read text.toList = Envelope.read text'.toList)
    (hvalue : readValue maxDepth text.toList = readValue maxDepth text'.toList) (route : Route) :
    load route text = load route text' := by
  cases route with
  | text =>
    show (ofText text).mapError _ = (ofText text').mapError _
    unfold ofText envelopeOfText
    rw [henvelope]
  | value =>
    show (ofValueText text).mapError _ = (ofValueText text').mapError _
    unfold ofValueText Value.parse
    rw [hvalue]
  | document =>
    show (ofDocument text).mapError _ = (ofDocument text').mapError _
    unfold ofDocument
    rw [henvelope]

/-- **The members of an object inside an envelope can stand in any order.** -/
theorem load_of_perm {depth : Nat} {step : String × Nat} {path : List (String × Nat)}
    {place : Text → Text} (hplace : Place maxDepth (depth + 1) (step :: path) place)
    {ms ms' : List (Member depth)} (hperm : ms.Perm ms') (hnames : (ms.map Member.name).Nodup)
    (route : Route) :
    load route (String.ofList (place (objectText (ms'.map Member.text)))) =
      load route (String.ofList (place (objectText (ms.map Member.text)))) := by
  obtain ⟨henvelope, hvalue⟩ := Envelope.read_place hplace rfl (reads_object_of_perm hperm hnames)
    (reads_object ms)
  refine load_congr ?_ ?_ route
  · rw [String.toList_ofList, String.toList_ofList]
    exact henvelope
  · rw [String.toList_ofList, String.toList_ofList]
    exact hvalue

/-- **Every object inside a text that parses has its place**, at the path that leads to it. -/
theorem exists_place_of_parse {text : String} {v : Value} {path : List (String × Nat)}
    {members : List (String × Value)} (hparse : Value.parse text = .ok v)
    (hinside : v.inside? path = some (.object members)) (hne : members ≠ []) :
    ∃ (depth : Nat) (place : Text → Text) (ms : List (Member depth)),
      Place maxDepth (depth + 1) path place ∧
        text = String.ofList (place (objectText (ms.map Member.text))) ∧
        gather [] (ms.map Member.entry) = members := by
  obtain ⟨rest, hread, hend⟩ := parse_eq_ok_iff.1 hparse
  obtain ⟨depth, place, ms, hplace, hs, hmembers⟩ := exists_place hread hend hinside hne
  refine ⟨depth, place, ms, hplace, ?_, hmembers⟩
  rw [hs, String.ofList_toList]

end Snapshot

open Json Snapshot in
/-- **Snapshots are canonical.** Two materials are written alike if and only if they have the same
contents; so of what was done to a directory only what is left of it shows. In a text that is read
the members of an object inside the envelope, no two with one name, can stand in any order: what is
loaded, what is refused and what is reported is the same on each way to read it. The object can be
any that a path leads to in the value of a text, such as the data, by `("keyData", 1)`, and from
there on the public keys, by `("pubKeys", 3)`. -/
theorem snapshots_canonical :
    (∀ m m' : Material, write m = write m' ↔ m.SameContents m') ∧
    (∀ (m : SignerMaterial) (before before' : List Directory.Command),
      write (.signer { m with directory := .after .empty before }) =
          write (.signer { m with directory := .after .empty before' }) ↔
        ∀ id, Directory.replayed (Directory.run .empty before) id =
          Directory.replayed (Directory.run .empty before') id) ∧
    (∀ (depth : Nat) (step : String × Nat) (path : List (String × Nat)) (place : Text → Text)
      (ms ms' : List (Member depth)) (route : Route),
      Place maxDepth (depth + 1) (step :: path) place → ms.Perm ms' → (ms.map Member.name).Nodup →
      load route (String.ofList (place (objectText (ms'.map Member.text)))) =
        load route (String.ofList (place (objectText (ms.map Member.text))))) ∧
    (∀ (text : String) (v : Value) (path : List (String × Nat)) (members : List (String × Value)),
      Value.parse text = .ok v → v.inside? path = some (.object members) → members ≠ [] →
      ∃ (depth : Nat) (place : Text → Text) (ms : List (Member depth)),
        Place maxDepth (depth + 1) path place ∧
          text = String.ofList (place (objectText (ms.map Member.text))) ∧
          gather [] (ms.map Member.entry) = members) := by
  refine ⟨fun m m' => write_eq_write_iff, fun m before before' => ?_,
    fun depth step path place ms ms' route hplace hperm hnames =>
      load_of_perm hplace hperm hnames route,
    fun text v path members => exists_place_of_parse⟩
  rw [write_eq_write_iff]
  simp only [Material.SameContents, true_and, Directory.get?_after]
  rfl

open Json Snapshot in
set_option maxRecDepth 4000 in
/-- The two members of the data change places, and the data are found again from the text. -/
theorem snapshots_canonical_swapped :
    load .text "\x7b\"keyType\":0,\"keyData\":\x7b\"name\":null,\"key\":\"ab\"\x7d\x7d" =
        load .text "\x7b\"keyType\":0,\"keyData\":\x7b\"key\":\"ab\",\"name\":null\x7d\x7d" ∧
      ∃ (depth : Nat) (place : Text → Text) (ms : List (Member depth)),
        Place maxDepth (depth + 1) [("keyData", 1)] place ∧
          "\x7b\"keyType\":0,\"keyData\":\x7b\"key\":\"ab\",\"name\":null\x7d\x7d" =
            String.ofList (place (objectText (ms.map Member.text))) ∧
          gather [] (ms.map Member.entry) = [("key", .string "ab"), ("name", .null)] := by
  -- the pieces of the two texts
  obtain ⟨tag, -, htag⟩ : ∃ m : Member 126, m.entry = ("keyType", .number (.integer 0)) ∧
      "\"keyType\":0".toList = m.text ++ [] :=
    (cut_readValue 126).exists_member (b := []) rfl rfl rfl rfl rfl
  obtain ⟨key, hkey, hkeyText⟩ : ∃ m : Member 125, m.entry = ("key", .string "ab") ∧
      "\"key\":\"ab\"".toList = m.text ++ [] :=
    (cut_readValue 125).exists_member (b := []) rfl rfl rfl rfl rfl
  obtain ⟨other, hother, hotherText⟩ : ∃ m : Member 125, m.entry = ("name", .null) ∧
      "\"name\":null".toList = m.text ++ [] :=
    (cut_readValue 125).exists_member (b := []) rfl rfl rfl rfl rfl
  have heads : Heads "\"keyData\":".toList "keyData" := fun t => ⟨_, _, rfl, rfl, rfl⟩
  have hblanks : skipBlanks [] = [] := rfl
  have hnames : ([key, other].map Member.name).Nodup := by
    have hne : key.name ≠ other.name := by
      rw [(Prod.mk.inj hkey).1, (Prod.mk.inj hother).1]
      decide
    simpa using hne
  obtain ⟨-, -, hload, hplaces⟩ := snapshots_canonical
  constructor
  · have hswapped := hload 125 ("keyData", 1) [] _ [key, other] [other, key] .text
      (.member hblanks hblanks heads [tag] [] (.here hblanks hblanks)) (List.Perm.swap _ _ _) hnames
    rw [List.append_nil] at htag hkeyText hotherText
    simp only [List.map_cons, List.map_nil, ← htag, ← hkeyText, ← hotherText] at hswapped
    exact hswapped
  · have hparse :
        Value.parse "\x7b\"keyType\":0,\"keyData\":\x7b\"key\":\"ab\",\"name\":null\x7d\x7d" =
          .ok (.object [("keyData", .object [("key", .string "ab"), ("name", .null)]),
            ("keyType", .number (.integer 0))]) := rfl
    exact hplaces _ _ [("keyData", 1)] _ hparse rfl (List.cons_ne_nil _ _)

end SealedMessaging
