import SealedMessaging.Key.Public
import SealedMessaging.Report
import SealedMessaging.SortedMap

/-!
# The directory of public keys

A client keeps the public keys of the signers it trusts, at most one for each identifier.

* `Directory.add`, `Directory.insert`, `Directory.remove`, `Directory.clear`: the changes, with the
  events that tell what they did.
* `Directory.get`: the key of a signer.
* `Directory.step`: one command, as the directory after it and its report.
-/

namespace SealedMessaging

/-- The public keys of signers. -/
abbrev Directory := SortedMap Id PublicKey

/-- What goes wrong in a directory. -/
inductive DirectoryFault where
  /-- No key is registered for this identifier. -/
  | unknown (id : Id)
  | badId (fault : InputFault)
  | badKey (fault : CryptoFault)
  deriving DecidableEq

/-- The text of a fault. -/
def DirectoryFault.message : DirectoryFault → String
  | .unknown id => "signer public key not found: " ++ id.toHex
  | .badId fault => "invalid ID: " ++ fault.message
  | .badKey fault => "invalid public key: " ++ fault.message

namespace Directory

/-- Registers a key, in the place of an earlier one for the same identifier. -/
def insert {ε : Type} (d : Directory) (id : Id) (key : PublicKey) : Report ε Directory :=
  ⟨.ok (SortedMap.insert d id key),
    [if (SortedMap.get? d id).isSome then .keyReplaced id else .keyAdded id]⟩

/-- **Registers a key given as bytes.** The identifier is checked before the key. -/
def add (d : Directory) (id key : Bytes) : Report DirectoryFault Directory := do
  let id ← Report.ofExcept ((Id.ofBytes id).mapError .badId)
  let key ← Report.ofExcept ((PublicKey.ofBytes key).mapError .badKey)
  insert d id key

/-- The key of a signer. -/
def get (d : Directory) (id : Id) : Except DirectoryFault PublicKey :=
  match SortedMap.get? d id with
  | some key => .ok key
  | none => .error (.unknown id)

/-- Removes the key of a signer, who must have one. -/
def remove (d : Directory) (id : Id) : Report DirectoryFault Directory :=
  if (SortedMap.get? d id).isSome then ⟨.ok (SortedMap.erase d id), [.keyRemoved id]⟩
  else .fail (.unknown id)

/-- Removes all keys. -/
def clear {ε : Type} (d : Directory) : Report ε Directory :=
  ⟨.ok SortedMap.empty, [.keysCleared d.size]⟩

/-- What can be asked of a directory. -/
inductive Command where
  /-- Register a key given as bytes. -/
  | add (id key : Bytes)
  /-- Register a key whose bytes are still to be checked, for a known identifier. -/
  | insert (id : Id) (key : Bytes)
  | get (id : Id)
  | remove (id : Id)
  | clear
  | size
  | isEmpty
  deriving DecidableEq

/-- What a command answers. -/
inductive Answer where
  | done
  | key (key : PublicKey)
  | count (n : Nat)
  | truth (b : Bool)
  deriving DecidableEq

/-- What goes wrong with a command. -/
inductive CommandFault where
  /-- The directory refuses it. -/
  | directory (fault : DirectoryFault)
  /-- The key to insert does not pass its check. -/
  | key (fault : CryptoFault)
  deriving DecidableEq

/-- The text of a fault. -/
def CommandFault.message : CommandFault → String
  | .directory fault => fault.message
  | .key fault => fault.message

/-- Runs a change: the directory stays as it was if the change fails. -/
def change {ε : Type} (d : Directory) (r : Report ε Directory) : Directory × Report ε Answer :=
  match r.outcome with
  | .ok d' => (d', ⟨.ok .done, r.events⟩)
  | .error fault => (d, ⟨.error fault, r.events⟩)

/-- **One command**: the directory after it and what is reported. -/
def step (d : Directory) : Command → Directory × Report CommandFault Answer
  | .add id key => change d ((add d id key).mapError .directory)
  | .insert id key =>
    match PublicKey.ofBytes key with
    | .error fault => (d, .fail (.key fault))
    | .ok key => change d (insert d id key)
  | .get id => (d, .ofExcept (((get d id).map Answer.key).mapError .directory))
  | .remove id => change d ((remove d id).mapError .directory)
  | .clear => change d (clear d)
  | .size => (d, pure (.count d.size))
  | .isEmpty => (d, pure (.truth (d.size == 0)))

end Directory

end SealedMessaging
