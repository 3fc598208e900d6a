import AgeFile.Base64
import AgeFile.Format
import AgeFile.Text.Hex
import AgeFile.Text.Quoted

/-!
# Errors

Every way in which writing or reading a file can fail, and its text. An error holds what went wrong;
only `message` puts it into words. Text that came from an untrusted file is quoted there.
-/

namespace AgeFile

/-- What is wrong at a place of a header that cannot be read. -/
inductive Defect where
  /-- The stanza marker is not followed by a space. -/
  | markerWithoutSpace
  /-- A word of the stanza line has no characters. -/
  | emptyToken
  /-- A word of the stanza line holds a byte that is not printable ASCII. -/
  | tokenByte (found : UInt8)
  /-- The stanza line has no word after the marker. -/
  | missingType
  /-- A body line has more characters than a full line. -/
  | longBodyLine (length : Nat)
  /-- The body is not canonical base64. -/
  | body (fault : Base64.Fault)
  /-- Neither a stanza nor the terminator begins here. -/
  | stanzaOrTerminator (found : UInt8)
  /-- The terminator is not followed by a space. -/
  | macSpace (found : UInt8)
  /-- The MAC is not followed by a line feed. -/
  | macLineFeed (found : UInt8)
  /-- The MAC is not canonical base64. -/
  | mac (fault : Base64.Fault)
  /-- The MAC has the wrong number of bytes. -/
  | macLength (length : Nat)
  /-- A defect that a caller describes in words of its own. -/
  | described (text : String)
  deriving DecidableEq

/-- A defect in words. -/
def Defect.message : Defect → String
  | .markerWithoutSpace => "stanza marker must be followed by a space"
  | .emptyToken => "empty stanza token (doubled or trailing space)"
  | .tokenByte found => "invalid byte 0x" ++ Text.hexByte found ++ " in stanza token"
  | .missingType => "stanza has no type"
  | .longBodyLine length =>
      "stanza body line of " ++ toString length ++ " chars exceeds " ++
        toString Format.bodyLineLength
  | .body fault => "stanza body: " ++ fault.message
  | .stanzaOrTerminator found =>
      "expected stanza or " ++ Text.quote Format.terminator ++ ", found byte 0x" ++
        Text.hexByte found
  | .macSpace found => "expected space before MAC, found byte 0x" ++ Text.hexByte found
  | .macLineFeed found => "expected line feed after MAC, found byte 0x" ++ Text.hexByte found
  | .mac fault => "header MAC: " ++ fault.message
  | .macLength length =>
      "header MAC is " ++ toString length ++ " bytes, expected " ++ toString Format.macSize
  | .described text => text

/-- Why a stanza cannot be built. -/
inductive StanzaDefect where
  /-- The type cannot stand in a stanza line. -/
  | tag (text : String)
  /-- An argument cannot stand in a stanza line. -/
  | argument (text : String)
  /-- A defect that a caller describes in words of its own. -/
  | described (text : String)
  deriving DecidableEq

/-- A stanza's defect in words. -/
def StanzaDefect.message : StanzaDefect → String
  | .tag text => "invalid stanza type " ++ Text.quote text
  | .argument text => "invalid stanza argument " ++ Text.quote text
  | .described text => text

/-- Why a configuration is refused. -/
inductive ConfigDefect where
  /-- The text is not TOML, or a field does not hold a number in range. -/
  | unreadable
  /-- No header at all would be short enough. -/
  | zeroHeaderLength
  /-- A defect that a caller describes in words of its own. -/
  | described (text : String)
  deriving DecidableEq

/-- A configuration's defect in words. -/
def ConfigDefect.message : ConfigDefect → String
  | .unreadable => "not a table of header limits"
  | .zeroHeaderLength => "max_header_len must be non-zero"
  | .described text => text

/-- Why an operation on a file or on a key failed. -/
inductive Error where
  /-- The first line is not the version line. -/
  | unsupportedVersion (line : String)
  /-- The header cannot be read from `offset` on. -/
  | malformed (offset : Nat) (defect : Defect)
  /-- A stanza cannot be built. -/
  | invalidStanza (defect : StanzaDefect)
  /-- The input ends too early. -/
  | truncated (needed available : Nat)
  /-- The header is longer than the limit. -/
  | headerTooLarge (limit : Nat)
  /-- The header has more stanzas than the limit. -/
  | tooManyStanzas (limit : Nat)
  /-- The input ends before the MAC does. -/
  | macNotFound
  /-- The MAC is not that of the header. -/
  | headerMacMismatch
  /-- The ciphertext is not authentic. -/
  | decryptionFailed
  /-- The plaintext cannot be encrypted. -/
  | encryptionFailed (reason : String)
  /-- A reader found nothing addressed to it. -/
  | noFileKey
  /-- A recipient mechanism failed. -/
  | recipient (mechanism reason : String)
  /-- No reader produced the file key; one cause for each of them. -/
  | noSupportedRecipient (causes : List Error)
  /-- A file was to be written for nobody. -/
  | noRecipients
  /-- The caller's buffer is too short. -/
  | bufferTooSmall (needed available : Nat)
  /-- A key was to be made of the wrong number of bytes. -/
  | invalidKeyLength (kind : String) (expected actual : Nat)
  /-- A key was used after it had been destroyed. -/
  | keyDestroyed (kind : String)
  /-- All chunk nonces have been used. -/
  | counterExhausted
  /-- The chunk nonce belongs to the last chunk already. -/
  | nonceFinalized
  /-- A cipher was used the other way than it was made for. -/
  | wrongDirection (direction : String)
  /-- A configuration is refused. -/
  | config (defect : ConfigDefect)

namespace Error

/-- An error in words. -/
def message : Error → String
  | unsupportedVersion line => "unsupported header version: " ++ Text.quote line
  | malformed offset defect =>
      "malformed header at byte " ++ toString offset ++ ": " ++ defect.message
  | invalidStanza defect => "invalid stanza: " ++ defect.message
  | truncated needed available =>
      "truncated input: need " ++ toString needed ++ " bytes, " ++ toString available ++
        " available"
  | headerTooLarge limit => "header exceeds " ++ toString limit ++ " bytes"
  | tooManyStanzas limit => "header has more than " ++ toString limit ++ " stanzas"
  | macNotFound => "header MAC not found"
  | headerMacMismatch => "header MAC verification failed"
  | decryptionFailed => "decryption failed: authentication tag mismatch"
  | encryptionFailed reason => "encryption failed: " ++ reason
  | noFileKey => "stanza reader produced no file key"
  | recipient mechanism reason => mechanism ++ " recipient: " ++ reason
  | noSupportedRecipient causes =>
      "no supported recipient found (" ++ toString causes.length ++ " tried)"
  | noRecipients => "no recipients configured"
  | bufferTooSmall needed available =>
      "buffer too small: need " ++ toString needed ++ " bytes, " ++ toString available ++
        " available"
  | invalidKeyLength kind expected actual =>
      "invalid " ++ kind ++ " length: expected " ++ toString expected ++ " bytes, got " ++
        toString actual
  | keyDestroyed kind => kind ++ " has been destroyed"
  | counterExhausted => "chunk counter exhausted"
  | nonceFinalized => "chunk nonce already marked as last chunk"
  | wrongDirection direction => "cipher initialized for " ++ direction
  | config defect => "config error: " ++ defect.message

/-- Whether the error says that the input is not a well-formed header. -/
def isMalformed : Error → Bool
  | unsupportedVersion _ | malformed _ _ | invalidStanza _ | truncated _ _
  | headerTooLarge _ | tooManyStanzas _ | macNotFound => true
  | _ => false

/-- Whether the error says that a MAC or an authentication tag is wrong. -/
def isAuthenticationFailure : Error → Bool
  | headerMacMismatch | decryptionFailed => true
  | _ => false

/-- What the readers reported, in their order, when none of them produced the file key. -/
def causes : Error → List Error
  | noSupportedRecipient causes => causes
  | _ => []

end Error

end AgeFile
