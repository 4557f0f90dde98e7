import SealedMessaging.Digest.Argon2i
import SealedMessaging.Key.Secret

/-!
# Keys from passwords

A password always gives the same key, so a client can be set up again from its password alone.

* `Password.derive`: the 32 bytes of a password, which is checked first.
* `Password.symmetricKey`, `Password.secretKey`: the keys made of them.
-/

namespace SealedMessaging.Password

/-- Sixteen bytes that tell this use of the digest from others. They are the same for all clients
and no secret. -/
def salt : Bytes :=
  [0x73, 0x65, 0x61, 0x6c, 0x70, 0x6f, 0x73, 0x74, 0x2d, 0x6b, 0x64, 0x66, 0x2d, 0x76, 0x31, 0x00]

/-- Four lanes of 16384 blocks, 64 MiB in all. -/
def cost : Argon2i.Cost := ⟨4, 4096⟩

/-- **The 32 bytes derived from a password.** -/
def derive (password : String) : Except CryptoFault (Octets 32) := do
  checked (checkPassword (utf8 password))
  return argon2i cost (utf8 password) salt

/-- The symmetric key of a password. -/
def symmetricKey (password : String) : Except CryptoFault SymmetricKey := do
  SymmetricKey.ofBytes (← derive password).toList

/-- The secret key whose seed is derived from a password. -/
def secretKey (password : String) : Except CryptoFault SecretKey := do
  return ⟨← derive password⟩

end SealedMessaging.Password
