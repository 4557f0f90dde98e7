import SealedMessaging.Identity
import SealedMessaging.Key.Secret
import SealedMessaging.Key.Symmetric

/-!
# Random values

A source of random bytes is the string of the bytes it will deliver. What is drawn is taken as it
comes; no check looks at it.

* `drawOctets`: the next bytes of a source.
* `SymmetricKey.draw`, `Id.draw`, `SecretKey.draw`: random keys and identifiers.
-/

namespace SealedMessaging

/-- **The next `n` bytes of a source**, and the source after them. A source with fewer bytes is used
up, and nothing is drawn. -/
def drawOctets (n : Nat) (source : Bytes) : Option (Octets n) × Bytes :=
  if h : n ≤ source.length then
    (some ⟨source.take n, List.length_take_of_le h⟩, source.drop n)
  else (none, [])

/-- A random symmetric key. -/
def SymmetricKey.draw (source : Bytes) : Option SymmetricKey × Bytes :=
  let (octets, rest) := drawOctets 32 source
  (octets.map .mk, rest)

/-- A random identifier. -/
def Id.draw (source : Bytes) : Option Id × Bytes :=
  let (octets, rest) := drawOctets 16 source
  (octets.map .mk, rest)

/-- A random secret key. -/
def SecretKey.draw (source : Bytes) : Option SecretKey × Bytes :=
  let (octets, rest) := drawOctets 32 source
  (octets.map .mk, rest)

end SealedMessaging
