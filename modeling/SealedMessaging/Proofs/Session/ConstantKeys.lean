import SealedMessaging.Proofs.Curve.SmallOrder
import SealedMessaging.Proofs.Material.Opening
import SealedMessaging.Proofs.Session.Commands
import SealedMessaging.Proofs.Session.Reload

/-!
# Command keys that everyone knows

The command key of a signer is the digest of what its secret key and the controller's key agree on. The
controller's key is refused if its bytes are zero, but there are more keys that agree on zero with every
secret: then the command key is the digest of zeros, and whoever knows that can write commands.

* `SignerMaterial.outcome_unprotectCommand_of_zero`: what is opened once zero is agreed on.
* `Session.public_command_key_iff`: the controllers for which the command key is public.
* `Session.public_command_key_masked`: the checks let one of them through.
-/

namespace SealedMessaging

/-- The digest of 32 zeros. -/
def publicCommandKey : SymmetricKey := ⟨sha3 (List.replicate 32 0)⟩

theorem ofShared_zero : SymmetricKey.ofShared (Octets.zero 32).toList = .ok publicCommandKey := by
  have hzero : publicCommandKey.toBytes.isZero = false := by decide +kernel
  exact SymmetricKey.ofBytes_eq_ok_iff.2 ⟨rfl, hzero⟩

/-- A signer who agrees on zero opens commands under the digest of zeros. -/
theorem SignerMaterial.outcome_unprotectCommand_of_zero {m : SignerMaterial}
    (hagree : m.key.agree m.controller = .zero 32) (now : Instant) (frame : Bytes) :
    (m.unprotectCommand now frame).outcome =
      (Frame.unprotect now frame publicCommandKey.toBytes).outcome.mapError .crypto := by
  have hkey : (Material.signer m).commandKey = .ok publicCommandKey := by
    rw [Material.commandKey, hagree, ofShared_zero]
    rfl
  have hopen := Material.outcome_unprotectCommand (.signer m) now frame
  rw [hkey] at hopen
  exact hopen

/-- **The agreement with a controller is zero for every secret key or for none.** -/
theorem SecretKey.agree_eq_zero_iff (key : SecretKey) (controller : Octets 32) :
    key.agree controller = .zero 32 ↔ controller.toNat % 2 ^ 255 ∈ smallNumbers := by
  rw [agree, x25519_eq_zero_iff, ofOctets_mem_smallCoordinates_iff]

namespace Session

/-- **When the command key of a signer is public.** Take a signer under a name, made or loaded for some
controller, after any steps. The controller's key is not all zero. What it agrees on with a secret key,
the one held now or any that is set later, is zero if and only if the key stands for one of seven
numbers, its top bit aside. For those seven the signer opens as commands what is sealed under the
digest of zeros. -/
theorem public_command_key_iff (clock : Instant) (steps : List Step) (name : String) (id : Id)
    (controller : Octets 32)
    (hmade : last? madeAs? name (start clock) steps = some (.signer id controller)) :
    ∃ m, ((start clock).after steps).material? name = some (.signer m) ∧
      m.controller = controller ∧ (∃ b ∈ controller.toList, b ≠ 0) ∧
      (∀ key : SecretKey,
        key.agree m.controller = .zero 32 ↔ controller.toNat % 2 ^ 255 ∈ smallNumbers) ∧
      (controller.toNat % 2 ^ 255 ∈ smallNumbers → ∀ now frame,
        (m.unprotectCommand now frame).outcome =
          (Frame.unprotect now frame publicCommandKey.toBytes).outcome.mapError .crypto) := by
  obtain ⟨m, hheld, rfl⟩ := exists_signer_of_madeAs hmade
  have hsound := sound_after (sound_start clock) steps name _ hheld
  obtain ⟨hnonzero, -⟩ := hsound m rfl
  have hzero := fun key : SecretKey => key.agree_eq_zero_iff m.controller
  refine ⟨m, hheld, rfl, Bytes.isZero_eq_false_iff.1 hnonzero, hzero, fun hsmall now frame => ?_⟩
  have hagree := (hzero m.key).2 hsmall
  exact SignerMaterial.outcome_unprotectCommand_of_zero hagree now frame

/-- A signer is made for a controller and takes another secret key. -/
def rekeyedSteps (controller : Bytes) : List Step :=
  [⟨"client", none, some (List.replicate 32 3),
      .create (.signerRandom (List.replicate 16 1) controller)⟩,
   ⟨"client", none, none, .use (.setKey (SecretKey.toBytes ⟨.zero 32⟩))⟩]

/-- With the base point as the controller's key nothing agreed on is zero. -/
theorem public_command_key_base :
    ∃ m, ((start .epoch).after (rekeyedSteps (9 :: List.replicate 31 0))).material? "client" =
        some (.signer m) ∧
      ∀ key : SecretKey, key.agree m.controller ≠ .zero 32 := by
  have hmade : last? madeAs? "client" (start .epoch) (rekeyedSteps (9 :: List.replicate 31 0)) =
      some (.signer ⟨⟨List.replicate 16 1, rfl⟩⟩ ⟨9 :: List.replicate 31 0, rfl⟩) := by
    decide +kernel
  obtain ⟨m, hheld, -, -, hzero, -⟩ := public_command_key_iff _ _ _ _ _ hmade
  refine ⟨m, hheld, fun key hagree => ?_⟩
  have hsmall := (hzero key).1 hagree
  exact absurd hsmall (by decide)

/-- **The command key of a signer can be public**: a controller's key of zeros but for the top bit is
accepted, the signer agrees on zero with it, and opens a command sealed under the digest of zeros. -/
theorem public_command_key_masked :
    ∃ (m : SignerMaterial) (frame : Bytes),
      ((start .epoch).after (rekeyedSteps (List.replicate 31 0 ++ [0x80]))).material? "client" =
        some (.signer m) ∧
      m.key.agree m.controller = .zero 32 ∧
      Frame.protectAt [7] (sha3 (List.replicate 32 0)).toList 0 = .ok frame ∧
      (m.unprotectCommand .epoch frame).outcome = .ok [7] := by
  have hmade : last? madeAs? "client" (start .epoch)
      (rekeyedSteps (List.replicate 31 0 ++ [0x80])) =
        some (.signer ⟨⟨List.replicate 16 1, rfl⟩⟩ ⟨List.replicate 31 0 ++ [0x80], rfl⟩) := by
    decide +kernel
  obtain ⟨m, hheld, hcontroller⟩ := exists_signer_of_madeAs hmade
  have hagree : m.key.agree m.controller = .zero 32 := by
    rw [SecretKey.agree_eq_zero_iff, hcontroller]
    decide
  have hkey : publicCommandKey.toBytes.isZero = false := by decide +kernel
  obtain ⟨frame, hframe⟩ := (Frame.exists_protectAt_iff [7] publicCommandKey.toBytes 0).2
    ⟨publicCommandKey.octets.length_toList, hkey⟩
  have hopened : (Frame.unprotect .epoch frame publicCommandKey.toBytes).outcome = .ok [7] :=
    (Frame.outcome_unprotect_iff_exists (by decide)).2 ⟨by decide, 0, by decide, hframe⟩
  refine ⟨m, frame, hheld, hagree, hframe, ?_⟩
  rw [SignerMaterial.outcome_unprotectCommand_of_zero hagree, hopened]
  rfl

end Session

end SealedMessaging
