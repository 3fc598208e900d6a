import AgeFile.Bytes.Basic

/-!
# Hexadecimal text

Bytes are shown as two lower-case digits each. The digits of a byte tell it apart from all others,
since `digitChar_inj` says that the sixteen digits are different characters.
-/

namespace AgeFile.Text

/-- The two lower-case hexadecimal digits of a byte. -/
def hexDigits (byte : UInt8) : List Char :=
  [Nat.digitChar (byte.toNat / 16), Nat.digitChar (byte.toNat % 16)]

/-- A byte string with two lower-case hexadecimal digits for each byte. -/
def hex (bytes : Bytes) : String :=
  String.ofList (bytes.flatMap hexDigits)

/-- The hexadecimal text of a single byte. -/
def hexByte (byte : UInt8) : String :=
  hex [byte]

/-- The text of a byte is its two digits. -/
theorem toList_hexByte (byte : UInt8) : (hexByte byte).toList = hexDigits byte := by
  rw [hexByte, hex, String.toList_ofList, List.flatMap_singleton]

/-- The digits up to fifteen are different characters. -/
theorem digitChar_inj {m n : Nat} (hm : m < 16) (hn : n < 16)
    (h : Nat.digitChar m = Nat.digitChar n) : m = n := by
  have hdigits : ∀ m < 16, ∀ n < 16, Nat.digitChar m = Nat.digitChar n → m = n := by decide
  exact hdigits m hm n hn h

end AgeFile.Text
