import SealedMessaging.Binary64
import SealedMessaging.Binary64.Shortest
import SealedMessaging.Bytes
import SealedMessaging.Bytes.Hex
import SealedMessaging.Bytes.Utf8
import SealedMessaging.Bytes.Words
import SealedMessaging.Cipher.Aes
import SealedMessaging.Cipher.Cmac
import SealedMessaging.Cipher.Siv
import SealedMessaging.Clock
import SealedMessaging.Curve.Edwards
import SealedMessaging.Curve.Field
import SealedMessaging.Curve.Montgomery
import SealedMessaging.Curve.Signature
import SealedMessaging.Digest.Argon2i
import SealedMessaging.Digest.Argon2i.Block
import SealedMessaging.Digest.Blake2b
import SealedMessaging.Digest.Sha3
import SealedMessaging.Digest.Sha512
import SealedMessaging.Directory
import SealedMessaging.Entropy
import SealedMessaging.Fault
import SealedMessaging.Frame
import SealedMessaging.Identity
import SealedMessaging.Json.Numeral
import SealedMessaging.Json.Printer
import SealedMessaging.Json.Reader
import SealedMessaging.Json.Record
import SealedMessaging.Json.Shape
import SealedMessaging.Json.Skimmer
import SealedMessaging.Json.Value
import SealedMessaging.Key.Public
import SealedMessaging.Key.Secret
import SealedMessaging.Key.Symmetric
import SealedMessaging.Material
import SealedMessaging.Material.Origin
import SealedMessaging.Material.Use
import SealedMessaging.Message
import SealedMessaging.Password
import SealedMessaging.Proofs.Bytes
import SealedMessaging.Proofs.Cipher.Aes
import SealedMessaging.Proofs.Cipher.Cmac
import SealedMessaging.Proofs.Cipher.Siv
import SealedMessaging.Proofs.Curve.Decoding
import SealedMessaging.Proofs.Curve.Field
import SealedMessaging.Proofs.Curve.Ladder
import SealedMessaging.Proofs.Curve.Multiples
import SealedMessaging.Proofs.Curve.Orders
import SealedMessaging.Proofs.Curve.SmallOrder
import SealedMessaging.Proofs.Directory
import SealedMessaging.Proofs.Frame
import SealedMessaging.Proofs.Hex
import SealedMessaging.Proofs.HexTexts
import SealedMessaging.Proofs.Json.Cutting
import SealedMessaging.Proofs.Json.Entries
import SealedMessaging.Proofs.Json.Parts
import SealedMessaging.Proofs.Json.Pieces
import SealedMessaging.Proofs.Json.Places
import SealedMessaging.Proofs.Json.Printing
import SealedMessaging.Proofs.Json.Proper
import SealedMessaging.Proofs.Json.Records
import SealedMessaging.Proofs.Json.Scalars
import SealedMessaging.Proofs.Json.Skimming
import SealedMessaging.Proofs.Json.Strings
import SealedMessaging.Proofs.Keys
import SealedMessaging.Proofs.Material.Changes
import SealedMessaging.Proofs.Material.Footprints
import SealedMessaging.Proofs.Material.Opening
import SealedMessaging.Proofs.Material.Outline
import SealedMessaging.Proofs.Material.Refusals
import SealedMessaging.Proofs.Message
import SealedMessaging.Proofs.Outcome
import SealedMessaging.Proofs.Primality
import SealedMessaging.Proofs.Related
import SealedMessaging.Proofs.Sealing
import SealedMessaging.Proofs.Session.CommandKeys
import SealedMessaging.Proofs.Session.Commands
import SealedMessaging.Proofs.Session.ConstantKeys
import SealedMessaging.Proofs.Session.History
import SealedMessaging.Proofs.Session.Interleaving
import SealedMessaging.Proofs.Session.Messages
import SealedMessaging.Proofs.Session.Reload
import SealedMessaging.Proofs.Session.Secrecy
import SealedMessaging.Proofs.Session.Steps
import SealedMessaging.Proofs.Snapshot.Canonical
import SealedMessaging.Proofs.Snapshot.Envelope
import SealedMessaging.Proofs.Snapshot.Format
import SealedMessaging.Proofs.Snapshot.Loaded
import SealedMessaging.Proofs.Snapshot.Printed
import SealedMessaging.Proofs.Snapshot.PrivateKeys
import SealedMessaging.Proofs.Snapshot.PublicKeys
import SealedMessaging.Proofs.Snapshot.RoundTrip
import SealedMessaging.Proofs.Snapshot.Routes
import SealedMessaging.Proofs.Snapshot.Shown
import SealedMessaging.Proofs.SortedMap
import SealedMessaging.Proofs.Tampering
import SealedMessaging.Proofs.Utf8
import SealedMessaging.Proofs.Window
import SealedMessaging.Report
import SealedMessaging.Sealing
import SealedMessaging.Session
import SealedMessaging.Snapshot
import SealedMessaging.Snapshot.Envelope
import SealedMessaging.SortedMap
import SealedMessaging.Text.Printable
import SealedMessaging.Text.Quoted
import SealedMessaging.Validation
