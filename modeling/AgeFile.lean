import AgeFile.Chunk.Stream
import AgeFile.Envelope
import AgeFile.Limits.Toml
import AgeFile.Recipient.Secret
import AgeFile.Proofs.Base64.Canonical
import AgeFile.Proofs.Bytes.Number
import AgeFile.Proofs.Crypto.Aead
import AgeFile.Proofs.Crypto.Hkdf
import AgeFile.Proofs.KeySchedule.Checked
import AgeFile.Proofs.Cipher.Wrapping
import AgeFile.Proofs.Cipher.Exactness
import AgeFile.Proofs.Chunk.Nonce
import AgeFile.Proofs.Chunk.Stream
import AgeFile.Proofs.Cursor.Span
import AgeFile.Proofs.Cursor.Position
import AgeFile.Proofs.Cursor.Extension
import AgeFile.Proofs.Cursor.Checked
import AgeFile.Proofs.Error.NamedByte
import AgeFile.Proofs.Stanza.Line
import AgeFile.Proofs.Stanza.Body
import AgeFile.Proofs.Stanza.Codec
import AgeFile.Proofs.Stanza.Language
import AgeFile.Proofs.Stanza.Failure
import AgeFile.Proofs.Stanza.Place
import AgeFile.Proofs.Stanza.Extension
import AgeFile.Proofs.Stanza.Checked
import AgeFile.Proofs.Header.Codec
import AgeFile.Proofs.Header.Delimiting
import AgeFile.Proofs.Header.Language
import AgeFile.Proofs.Header.Authentication
import AgeFile.Proofs.Key.Keyring
import AgeFile.Proofs.Key.Step
import AgeFile.Proofs.Key.Lifecycle
import AgeFile.Proofs.Header.Failure
import AgeFile.Proofs.Header.Rejection
import AgeFile.Proofs.Header.Extension
import AgeFile.Proofs.Header.Checked
import AgeFile.Proofs.Header.Footer
import AgeFile.Proofs.Recipient.Calls
import AgeFile.Proofs.Recipient.Secret
import AgeFile.Proofs.Envelope.Reading
import AgeFile.Proofs.Envelope.RoundTrip
import AgeFile.Proofs.Envelope.Recipients
import AgeFile.Proofs.Envelope.Calls
import AgeFile.Proofs.Envelope.Buffer
import AgeFile.Proofs.Envelope.Limits
import AgeFile.Proofs.Envelope.Checked
import AgeFile.Proofs.Stanza.Leftmost
import AgeFile.Proofs.Envelope.Layout
import AgeFile.Proofs.Stanza.Framing
import AgeFile.Proofs.Cursor.Shift
import AgeFile.Proofs.Stanza.Shift
import AgeFile.Proofs.Header.Shift
import AgeFile.Proofs.Header.Tightening
import AgeFile.Proofs.Header.Boundary
import AgeFile.Proofs.Header.FirstLimit
import AgeFile.Proofs.Stanza.Truncation
import AgeFile.Proofs.Header.Truncation
import AgeFile.Proofs.Text.Quoted
import AgeFile.Proofs.Error.Wording
import AgeFile.Proofs.Header.Quotation
import AgeFile.Proofs.Toml.Number
import AgeFile.Proofs.Toml.Field
import AgeFile.Proofs.Limits.Toml
