import AgeFile.Key

/-!
# Random bytes

A source of random bytes is an endless stream and a count of the bytes drawn from it.
-/

namespace AgeFile

/-- A stream of random bytes, and how many of them have been drawn. -/
structure RandomSource where
  byteAt : Nat → UInt8
  drawn : Nat := 0

namespace RandomSource

/-- Draw the next `count` bytes. -/
def draw (count : Nat) (source : RandomSource) : FixedBytes count × RandomSource :=
  (⟨(List.range' source.drawn count).map source.byteAt, by simp⟩,
    ⟨source.byteAt, source.drawn + count⟩)

end RandomSource

/-- Make a new file key of the next random bytes. -/
def generateFileKey (source : RandomSource) : FileKey × RandomSource :=
  let (bytes, source) := source.draw Format.fileKeySize
  (Key.ofFixed bytes, source)

end AgeFile
