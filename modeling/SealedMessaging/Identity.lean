import SealedMessaging.Bytes.Hex
import SealedMessaging.Digest.Sha3
import SealedMessaging.Validation

/-!
# Identifiers

Clients and topics are known by sixteen octets, usually the first half of the digest of a name.

* `Id.ofBytes`, `Id.ofHex`: reading an identifier.
* `Id.ofAlias`, `topicHash`: the identifiers of names.
* The order of identifiers is that of their bytes.
-/

namespace SealedMessaging

/-- The identifier of a client or a peer. -/
structure Id where
  octets : Octets 16
  deriving DecidableEq

namespace Id

/-- The identifier with the given bytes, which must be sixteen. -/
def ofBytes (bs : Bytes) : Except InputFault Id :=
  (octetsOf .id 16 bs).map Id.mk

/-- **The hex text of an identifier.** -/
def toHex (id : Id) : String :=
  Hex.encode id.octets.toList

/-- **The identifier of a hex text** of either case. -/
def ofHex (text : String) : Except Hex.Fault Id :=
  (Hex.decodeExact 16 text).map Id.mk

/-- The text that says why a text is no identifier. -/
def hexMessage (fault : Hex.Fault) : String :=
  "ID hex decode error: " ++ fault.message

/-- The identifier of the client with a given alias. -/
def ofAlias (name : String) : Id :=
  ⟨Octets.fit 16 ((sha3 (utf8 name)).toList.take 16)⟩

instance : LT Id := ⟨fun a b => a.octets.toList < b.octets.toList⟩

instance : DecidableLT Id := fun a b => inferInstanceAs (Decidable (a.octets.toList < b.octets.toList))

theorem lt_iff {a b : Id} : a < b ↔ a.octets.toList < b.octets.toList := Iff.rfl

instance : Std.Irrefl (α := Id) (· < ·) := ⟨fun _ => List.lt_irrefl _⟩

instance : Trans (α := Id) (· < ·) (· < ·) (· < ·) := ⟨fun h k => List.lt_trans h k⟩

instance : Std.Trichotomous (α := Id) (· < ·) where
  trichotomous a b h k := by
    have := Std.Trichotomous.trichotomous (r := fun (x y : List UInt8) => x < y) _ _ h k
    cases a; cases b
    exact congrArg Id.mk (Octets.ext this)

end Id

/-- The digest under which the key of a topic is kept. -/
def topicHash (topic : String) : Octets 16 :=
  Octets.fit 16 ((sha3 (utf8 topic)).toList.take 16)

end SealedMessaging
