import SealedMessaging.Proofs.Hex
import SealedMessaging.Proofs.Json.Printing
import SealedMessaging.Proofs.Snapshot.Routes

/-!
# The value that a snapshot is

What is written for a material is one value, with nothing behind it. Its members stand in the order
in which they are written; the value has them in the order of their names.

* `printedValue`: the value of a material.
* `readValue_print`, `parse_write`: what is written reads as this value.
* `envelopeOnce_write`: what is written repeats no member.
-/

namespace SealedMessaging

theorem Hex.plain_digit : ∀ n < 16, digit n ≠ '"' ∧ digit n ≠ '\\' ∧ 0x20 ≤ (digit n).toNat := by
  decide

theorem Hex.plain_digits (bs : Bytes) : Json.Plain (digits bs) := by
  intro c hc
  obtain ⟨b, -, hb⟩ := List.mem_flatMap.1 hc
  unfold pair at hb
  rcases List.mem_cons.1 hb with rfl | hb
  · exact plain_digit _ (high_lt b)
  · obtain rfl := List.mem_singleton.1 hb
    exact plain_digit _ (low_lt b)

namespace Snapshot

open Json

/-- A byte string as a value. -/
def hexValue (bs : Bytes) : Value := .string (Hex.encode bs)

theorem printsAs_printHex (bs : Bytes) (depth : Nat) : PrintsAs depth (printHex bs) (hexValue bs) :=
  printsAs_printString (Hex.plain_digits bs) depth

/-- A member that holds a byte string. -/
def hexMember (depth : Nat) (name : String) (hname : Plain name.toList) (bs : Bytes) :
    PrintedMember depth :=
  ⟨name.toList, printHex bs, hexValue bs, hname, printsAs_printHex bs depth⟩

/-! ## Directories -/

/-- A public key as the member it is written as. -/
def keyMember (depth : Nat) (e : Id × PublicKey) : PrintedMember depth :=
  ⟨Hex.digits e.1.octets.toList, printHex e.2.toBytes, hexValue e.2.toBytes, Hex.plain_digits _,
    printsAs_printHex _ depth⟩

/-- The members of a directory. -/
def directoryMembers (d : Directory) : List (String × Value) :=
  d.entries.map fun e => (e.1.toHex, hexValue e.2.toBytes)

/-- The hex texts of a directory are in the order of its identifiers. -/
theorem ascending_directoryMembers (d : Directory) : Ascending (directoryMembers d) := by
  unfold Ascending directoryMembers
  rw [List.pairwise_map]
  exact d.ascending.imp fun h => Hex.encode_lt_encode h

theorem printsAs_printDirectory (d : Directory) (depth : Nat) :
    PrintsAs (depth + 1) (printDirectory d) (.object (directoryMembers d)) := by
  -- the members are written in the order in which an object keeps them
  have hgather : gather [] ((d.entries.map (keyMember depth)).map PrintedMember.entry) =
      directoryMembers d := by
    rw [List.map_map]
    exact foldl_insertEntry (show Ascending ([] ++ directoryMembers d) from ascending_directoryMembers d)
  have hprint : printDirectory d =
      printObject ((d.entries.map (keyMember depth)).map fun m => (m.name, m.text)) := by
    rw [List.map_map]
    rfl
  rw [hprint, ← hgather]
  exact printsAs_printObject _

/-! ## Materials -/

/-- The value of the data of shared material. -/
def sharedValue (m : SharedMaterial) : Value :=
  .object [("key", hexValue m.key.toBytes)]

/-- The value of the data of a signer's material. -/
def signerValue (m : SignerMaterial) : Value :=
  .object
    [("c2PublicKey", hexValue m.controller.toList),
     ("privateKey", hexValue m.key.toBytes),
     ("pubKeys", .object (directoryMembers m.directory)),
     ("signerId", hexValue m.id.octets.toList)]

theorem printsAs_printShared (m : SharedMaterial) (depth : Nat) :
    PrintsAs (depth + 1) (printShared m) (sharedValue m) :=
  printsAs_printObject [hexMember depth "key" (by decide) m.key.toBytes]

theorem printsAs_printSigner (m : SignerMaterial) (depth : Nat) :
    PrintsAs (depth + 2) (printSigner m) (signerValue m) := by
  have hprinted := printsAs_printObject
    [hexMember (depth + 1) "signerId" (by decide) m.id.octets.toList,
     hexMember (depth + 1) "privateKey" (by decide) m.key.toBytes,
     hexMember (depth + 1) "c2PublicKey" (by decide) m.controller.toList,
     ⟨"pubKeys".toList, printDirectory m.directory, .object (directoryMembers m.directory),
      by decide, printsAs_printDirectory m.directory depth⟩]
  have hgather : ∀ a b c d : Value,
      gather [] [("signerId", a), ("privateKey", b), ("c2PublicKey", c), ("pubKeys", d)] =
        [("c2PublicKey", c), ("privateKey", b), ("pubKeys", d), ("signerId", a)] := by
    intro a b c d
    simp +decide only [gather, List.foldl_cons, List.foldl_nil, insertEntry, if_true, if_false]
  unfold signerValue
  rw [← hgather]
  exact hprinted

/-- The value of the data of a material. -/
def dataValue : Material → Value
  | .shared m => sharedValue m
  | .signer m => signerValue m

/-- The number of the kind of a material. -/
def tagValue (m : Material) : Value :=
  .number (.integer m.keyType.tag.toNat)

/-- **The value of a material.** -/
def printedValue (m : Material) : Value :=
  .object [("keyData", dataValue m), ("keyType", tagValue m)]

/-- The two members of what is written, in their order. -/
theorem exists_printedMembers (m : Material) (depth : Nat) :
    ∃ type data : PrintedMember (depth + 2),
      print m = printObject ([type, data].map fun e => (e.name, e.text)) ∧
        type.entry = ("keyType", tagValue m) ∧ data.entry = ("keyData", dataValue m) := by
  cases m with
  | shared m =>
    exact ⟨⟨"keyType".toList, ['0'], .number (.integer 0), by decide, printsAs_digit.1⟩,
      ⟨"keyData".toList, printShared m, sharedValue m, by decide, printsAs_printShared m (depth + 1)⟩,
      rfl, rfl, rfl⟩
  | signer m =>
    exact ⟨⟨"keyType".toList, ['1'], .number (.integer 1), by decide, printsAs_digit.2⟩,
      ⟨"keyData".toList, printSigner m, signerValue m, by decide, printsAs_printSigner m depth⟩,
      rfl, rfl, rfl⟩

/-- **What is written reads as the value of the material.** -/
theorem readValue_print (m : Material) (rest : Text) :
    readValue maxDepth (print m ++ rest) = .ok (printedValue m, rest) := by
  obtain ⟨type, data, hprint, htype, hdata⟩ := exists_printedMembers m 124
  have hgather : ∀ a b : Value, gather [] [("keyType", a), ("keyData", b)] =
      [("keyData", b), ("keyType", a)] := by
    intro a b
    simp +decide only [gather, List.foldl_cons, List.foldl_nil, insertEntry, if_true]
  have hread := readValue_printObject [type, data] rest
  rw [← hprint, List.map_cons, List.map_cons, List.map_nil, htype, hdata, hgather] at hread
  exact hread

theorem parse_write (m : Material) : Value.parse (write m) = .ok (printedValue m) := by
  have hread := readValue_print m []
  rw [List.append_nil] at hread
  refine parse_eq_ok_iff.2 ⟨[], ?_, rfl⟩
  unfold write
  rw [String.toList_ofList]
  exact hread

theorem envelopeOnce_write (m : Material) : EnvelopeOnce (write m).toList := by
  obtain ⟨type, data, hprint, htype, hdata⟩ := exists_printedMembers m 124
  obtain ⟨t, ht, hentries⟩ := exists_readEntries_printObject [type, data] []
  rw [← hprint, List.append_nil] at ht
  have hopen : skipBlanks (write m).toList = '\x7b' :: t := by
    unfold write
    rw [String.toList_ofList, ht]
    rfl
  have hnames : memberNames (write m).toList = ["keyType", "keyData"] := by
    rw [memberNames_of_object hopen hentries]
    show [type.entry.1, data.entry.1] = _
    rw [htype, hdata]
  unfold EnvelopeOnce
  rw [hnames]
  decide

end Snapshot

end SealedMessaging
