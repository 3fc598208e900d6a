import AgeFile.Text.Ranges

/-!
# Characters that are shown as nothing

The code points of the property Default_Ignorable_Code_Point: characters that a program with no use
for them shows as nothing at all, among them letters that only fill a place, such as U+3164.
-/

namespace AgeFile.Text

/-- The ranges of code points that are ignored by default, in ascending order. -/
def defaultIgnorableRanges : Array (Nat × Nat) :=
  #[(0xad, 0xad), (0x34f, 0x34f), (0x61c, 0x61c), (0x115f, 0x1160), (0x17b4, 0x17b5),
    (0x180b, 0x180f), (0x200b, 0x200f), (0x202a, 0x202e), (0x2060, 0x206f), (0x3164, 0x3164),
    (0xfe00, 0xfe0f), (0xfeff, 0xfeff), (0xffa0, 0xffa0), (0xfff0, 0xfff8), (0x1bca0, 0x1bca3),
    (0x1d173, 0x1d17a), (0xe0000, 0xe0fff)]

/-- Whether a character leaves no trace where it is not supported. -/
def isDefaultIgnorable (c : Char) : Bool :=
  inRanges defaultIgnorableRanges c.toNat

end AgeFile.Text
