import SealedMessaging.Proofs.Frame
import SealedMessaging.Proofs.Session.History

/-!
# Commands of a controller

A command is sealed under a key that the controller shares with a client. Shared material holds this
key itself; a signer agrees on it from its secret key and the controller's public key, and the
controller from its own secret and the client's public key.

* `SignerMaterial.outcome_unprotectCommand`: both sides come to one key.
* `Agreeing`: what is assumed of agreement between two keys.
* `Session.command_flow`: commands for both kinds, after any steps.
-/

namespace SealedMessaging

theorem SharedMaterial.outcome_unprotectCommand {m : SharedMaterial} {sent now : Instant}
    {command frame : Bytes} (hsent : 0 ≤ sent.nanoseconds) (htime : InTime sent now)
    (hne : command ≠ []) (h : Frame.protect sent command m.key.toBytes = .ok frame) :
    (m.unprotectCommand now frame).outcome = .ok command :=
  Except.mapError_eq_ok_iff.2 (Frame.outcome_unprotect_of_protect hsent htime hne h)

/-- **Both sides of an agreement come to one key**, if agreeing does not depend on the side. -/
theorem SignerMaterial.outcome_unprotectCommand {m : SignerMaterial} {sent now : Instant}
    {clientKey secret : Octets 32} {command frame : Bytes} (hsent : 0 ≤ sent.nanoseconds)
    (htime : InTime sent now) (hne : command ≠ [])
    (hagree : m.key.agree m.controller = x25519 secret clientKey)
    (h : Frame.protectCommand sent command clientKey secret = .ok frame) :
    (m.unprotectCommand now frame).outcome = .ok command := by
  unfold Frame.protectCommand at h
  obtain ⟨key, hkey, hframe⟩ := Except.bind_eq_ok_iff.1 h
  unfold unprotectCommand
  rw [hagree]
  simp only [Report.outcome_bind_eq_ok_iff, Report.outcome_ofExcept, Report.outcome_mapError,
    Except.mapError_eq_ok_iff]
  exact ⟨key, hkey, Frame.outcome_unprotect_of_protect hsent htime hne hframe⟩

/-- Material with a command key is shared. -/
theorem Material.exists_shared {m : Material} {key : SymmetricKey} (h : m.heldKey = .command key) :
    m = .shared ⟨key⟩ := by
  cases m with
  | shared m =>
    obtain rfl := HeldKey.command.inj h
    rfl
  | signer m => exact absurd h (by simp [heldKey])

/-- Material with a signing key is a signer's. -/
theorem Material.exists_signer {m : Material} {key : SecretKey} (h : m.heldKey = .signing key) :
    ∃ s, m = .signer s ∧ s.key = key := by
  cases m with
  | shared m => exact absurd h (by simp [heldKey])
  | signer m => exact ⟨m, rfl, HeldKey.signing.inj h⟩

/-- **What is assumed of agreement** between a client's and a controller's secret key: the public key
of each, in the form to agree with, is that of its secret, and agreement does not depend on the
side. -/
structure Agreeing (client controller : SecretKey) : Prop where
  ofClient : client.publicKey.toAgreement = .ok (x25519Public client.agreementSecret)
  ofController : controller.publicKey.toAgreement = .ok (x25519Public controller.agreementSecret)
  commutes : x25519 client.agreementSecret (x25519Public controller.agreementSecret) =
    x25519 controller.agreementSecret (x25519Public client.agreementSecret)

namespace Session

/-- A step in which the material of a name opens a command at an instant. -/
def commandStep (name : String) (now : Instant) (source : Option Bytes) (frame : Bytes) : Step :=
  ⟨name, some now, source, .use (.unprotectCommand frame)⟩

section Steps

variable {clock : Instant} {steps : List Step} {name : String}

theorem exists_material_of_acceptedKey {key : HeldKey}
    (h : last? acceptedKey? name (start clock) steps = some key) :
    ∃ m, ((start clock).after steps).material? name = some m ∧ m.heldKey = key := by
  have hafter := heldKey_after (start clock) steps name
  rw [h, Option.some_or] at hafter
  exact Option.map_eq_some_iff.1 hafter

/-- The signer that was made last under a name, with the controller it was made for. -/
theorem exists_signer_of_madeAs {id : Id} {controllerKey : Octets 32}
    (h : last? madeAs? name (start clock) steps = some (.signer id controllerKey)) :
    ∃ s, ((start clock).after steps).material? name = some (.signer s) ∧
      s.controller = controllerKey := by
  have hidentity := identity_after (start clock) steps name
  rw [h, Option.some_or] at hidentity
  obtain ⟨m, hheld, hm⟩ := Option.map_eq_some_iff.1 hidentity
  cases m with
  | shared s => exact absurd hm (by simp [Material.identity])
  | signer s => exact ⟨s, hheld, (Identity.signer.inj hm).2⟩

/-- A rotation leaves the controller's key that a signer was made for. -/
theorem controller_of_madeAs {id : Id} {controllerKey : Octets 32} {s : SignerMaterial}
    (h : last? madeAs? name (start clock) steps = some (.signer id controllerKey))
    (hheld : ((start clock).after steps).material? name = some (.signer s)) :
    s.controller = controllerKey := by
  obtain ⟨made, hmade, hcontroller⟩ := exists_signer_of_madeAs h
  obtain rfl : made = s := Material.signer.inj (Option.some.inj (hmade.symm.trans hheld))
  exact hcontroller

variable {source : Option Bytes} {command frame : Bytes} {sent now : Instant}

/-- A command is opened by material that holds the key under which it was sealed. -/
theorem outcome_commandStep_shared {key : SymmetricKey} (hcommand : command ≠ [])
    (hsent : 0 ≤ sent.nanoseconds) (htime : InTime sent now)
    (hlast : last? acceptedKey? name (start clock) steps = some (.command key))
    (hframe : Frame.protect sent command key.toBytes = .ok frame) :
    (((start clock).after steps).step (commandStep name now source frame)).2.outcome =
      .ok (.bytes command) := by
  obtain ⟨m, hheld, hm⟩ := exists_material_of_acceptedKey hlast
  obtain rfl := Material.exists_shared hm
  have hopened := SharedMaterial.outcome_unprotectCommand (m := ⟨key⟩) hsent htime hcommand hframe
  rw [outcome_step_tell rfl hheld rfl]
  show bytesAnswer (SharedMaterial.unprotectCommand ⟨key⟩ now frame).outcome = _
  rw [hopened]
  rfl

/-- A command is opened by a signer who holds the client's key and was made for the controller's. -/
theorem outcome_commandStep_signer {client controller : SecretKey} {id : Id}
    {clientKey controllerKey : Octets 32} (hcommand : command ≠ []) (hsent : 0 ≤ sent.nanoseconds)
    (htime : InTime sent now)
    (hlast : last? acceptedKey? name (start clock) steps = some (.signing client))
    (hmade : last? madeAs? name (start clock) steps = some (.signer id controllerKey))
    (hclient : client.publicKey.toAgreement = .ok clientKey)
    (hcontroller : controller.publicKey.toAgreement = .ok controllerKey)
    (hframe : Frame.protectCommand sent command clientKey controller.agreementSecret = .ok frame)
    (hagreeing : Agreeing client controller) :
    (((start clock).after steps).step (commandStep name now source frame)).2.outcome =
      .ok (.bytes command) := by
  obtain ⟨m, hheld, hm⟩ := exists_material_of_acceptedKey hlast
  obtain ⟨s, rfl, rfl⟩ := Material.exists_signer hm
  have hpeer := controller_of_madeAs hmade hheld
  have hclientKey := Except.ok.inj (hclient.symm.trans hagreeing.ofClient)
  have hcontrollerKey := Except.ok.inj (hcontroller.symm.trans hagreeing.ofController)
  have hagreed : s.key.agree s.controller = x25519 controller.agreementSecret clientKey := by
    rw [hpeer, hcontrollerKey, hclientKey]
    exact hagreeing.commutes
  rw [outcome_step_tell rfl hheld rfl]
  show bytesAnswer (s.unprotectCommand now frame).outcome = _
  rw [SignerMaterial.outcome_unprotectCommand hsent htime hcommand hagreed hframe]
  rfl

end Steps

/-- **Commands.** After any steps, the command of a frame protected at one instant is opened at
another within the window: by material whose last accepted key is the command key of the frame; and
by material whose last accepted key is a client's secret key and which was last made for the
controller's public key, if the frame was made for the client's public key with the controller's
secret. The second assumes what is assumed of agreement between the two. -/
theorem command_flow (clock : Instant) (steps : List Step) (name : String) (source : Option Bytes)
    (command : Bytes) (sent now : Instant) (hcommand : command ≠ [])
    (hsent : 0 ≤ sent.nanoseconds) (htime : InTime sent now) :
    (∀ (key : SymmetricKey) (frame : Bytes),
      last? acceptedKey? name (start clock) steps = some (.command key) →
      Frame.protect sent command key.toBytes = .ok frame →
      (((start clock).after steps).step (commandStep name now source frame)).2.outcome =
        .ok (.bytes command)) ∧
    ∀ (client controller : SecretKey) (id : Id) (clientKey controllerKey : Octets 32)
      (frame : Bytes),
      last? acceptedKey? name (start clock) steps = some (.signing client) →
      last? madeAs? name (start clock) steps = some (.signer id controllerKey) →
      client.publicKey.toAgreement = .ok clientKey →
      controller.publicKey.toAgreement = .ok controllerKey →
      Frame.protectCommand sent command clientKey controller.agreementSecret = .ok frame →
      Agreeing client controller →
      (((start clock).after steps).step (commandStep name now source frame)).2.outcome =
        .ok (.bytes command) := by
  constructor
  · intro key frame hlast hframe
    exact outcome_commandStep_shared hcommand hsent htime hlast hframe
  · intro client controller id clientKey controllerKey frame hlast hmade hclient hcontroller hframe
      hagreeing
    exact outcome_commandStep_signer hcommand hsent htime hlast hmade hclient hcontroller hframe
      hagreeing

/-- The controller of the steps below. -/
def someController : SecretKey := ⟨⟨List.replicate 32 5, rfl⟩⟩

/-- A client with a command key that is replaced, and one with a secret key that is replaced, made for
the public key of the controller. -/
def commandedSteps : List Step :=
  [⟨"shared", none, none, .create (.sharedBytes (List.replicate 32 1))⟩,
   ⟨"shared", none, none, .use (.setKey (List.replicate 32 2))⟩,
   ⟨"signer", none, some (List.replicate 32 3), .create (.signerRandom (List.replicate 16 1)
      (x25519Public someController.agreementSecret).toList)⟩,
   ⟨"signer", none, none, .use (.setKey (SecretKey.toBytes ⟨.zero 32⟩))⟩]

/-- Commands sealed under the keys that took the place of the first ones. -/
theorem command_flow_rotated :
    (∃ frame, Frame.protect .epoch [7] (List.replicate 32 2) = .ok frame ∧
      (((start .epoch).after commandedSteps).step (commandStep "shared" .epoch none frame)).2.outcome =
        .ok (.bytes [7])) ∧
    ∃ clientKey frame,
      Frame.protectCommand .epoch [7] clientKey someController.agreementSecret = .ok frame ∧
      (((start .epoch).after commandedSteps).step (commandStep "signer" .epoch none frame)).2.outcome =
        .ok (.bytes [7]) := by
  have hsent : 0 ≤ Instant.epoch.nanoseconds := by decide
  have hflow := fun name => command_flow .epoch commandedSteps name
    none [7] .epoch .epoch (by decide) hsent (by decide)
  constructor
  · have hlast : last? acceptedKey? "shared" (start .epoch) commandedSteps =
        some (.command ⟨⟨List.replicate 32 2, rfl⟩⟩) := by
      decide +kernel
    obtain ⟨frame, hframe⟩ := (Frame.exists_protectAt_iff [7] (List.replicate 32 2)
      Instant.epoch.unixSeconds).2 ⟨rfl, by decide⟩
    exact ⟨frame, hframe, (hflow "shared").1 _ frame hlast hframe⟩
  · have hlast : last? acceptedKey? "signer" (start .epoch) commandedSteps =
        some (.signing ⟨.zero 32⟩) := by
      decide +kernel
    have hmade : last? madeAs? "signer" (start .epoch) commandedSteps =
        some (.signer ⟨⟨List.replicate 16 1, rfl⟩⟩
          (x25519Public someController.agreementSecret)) := by
      decide +kernel
    have hclient : (SecretKey.publicKey ⟨.zero 32⟩).toAgreement.toOption =
        some (x25519Public (SecretKey.agreementSecret ⟨.zero 32⟩)) := by
      decide +kernel
    have hcontroller : someController.publicKey.toAgreement.toOption =
        some (x25519Public someController.agreementSecret) := by
      decide +kernel
    have hagree : x25519 (SecretKey.agreementSecret ⟨.zero 32⟩)
          (x25519Public someController.agreementSecret) =
        x25519 someController.agreementSecret
          (x25519Public (SecretKey.agreementSecret ⟨.zero 32⟩)) := by
      decide +kernel
    have hsealed : (Frame.protectCommand .epoch [7]
        (x25519Public (SecretKey.agreementSecret ⟨.zero 32⟩))
          someController.agreementSecret).toOption.isSome = true := by
      decide +kernel
    obtain ⟨frame, hframe⟩ := Option.isSome_iff_exists.1 hsealed
    have hframe := Except.eq_ok_of_toOption hframe
    have hagreeing : Agreeing ⟨.zero 32⟩ someController :=
      ⟨Except.eq_ok_of_toOption hclient, Except.eq_ok_of_toOption hcontroller, hagree⟩
    exact ⟨_, frame, hframe, (hflow "signer").2 _ _ _ _ _ frame hlast hmade
      hagreeing.ofClient hagreeing.ofController hframe hagreeing⟩

end Session

end SealedMessaging
