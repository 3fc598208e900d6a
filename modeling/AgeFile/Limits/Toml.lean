import AgeFile.Error
import AgeFile.Limits
import AgeFile.Toml.Reader

/-!
# Header limits in TOML

Limits are written as two lines, and read from any TOML document: a field that is missing keeps its
default, and other keys are ignored.
-/

namespace AgeFile.HeaderLimits

/-- The key of the longest header allowed. -/
def lengthKey : String := "max_header_len"

/-- The key of the greatest number of stanzas allowed. -/
def stanzasKey : String := "max_stanzas"

/-- The number in a field that may be missing. A value of another type is refused, and so is a
negative number. -/
def field? (entries : Toml.Entries) (key : String) (missing : Nat) : Option Nat :=
  match entries.lookup key with
  | none => some missing
  | some (.integer (.ofNat n)) => some n
  | some _ => none

/-- Read limits. They must allow a header of some length. -/
def ofToml (text : String) : Except Error HeaderLimits :=
  let missing : HeaderLimits := {}
  match Toml.read text with
  | none => .error (.config .unreadable)
  | some entries =>
      match field? entries lengthKey missing.maxHeaderLength,
          field? entries stanzasKey missing.maxStanzas with
      | some length, some stanzas =>
          if length = 0 then .error (.config .zeroHeaderLength) else .ok ⟨length, stanzas⟩
      | _, _ => .error (.config .unreadable)

/-- One line that sets a field. -/
def line (key : String) (value : Nat) : String :=
  key ++ " = " ++ toString value ++ "\n"

/-- Write limits. A number beyond the integers of TOML cannot be written. -/
def toToml? (limits : HeaderLimits) : Option String :=
  if limits.maxHeaderLength < 0x8000000000000000 ∧ limits.maxStanzas < 0x8000000000000000 then
    some (line lengthKey limits.maxHeaderLength ++ line stanzasKey limits.maxStanzas)
  else none

end AgeFile.HeaderLimits
