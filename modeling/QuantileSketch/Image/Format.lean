import QuantileSketch.Word

/-!
# The binary format

An image begins with a preamble of eight bytes. The longer layouts go on with the length of the
stream, the smallest accuracy parameter of the sketches merged into it and the number of levels,
then the level boundaries, the least and the greatest item, and the items. All numbers have their
lowest byte first.

| Byte | Field | Bytes |
|------|-------|-------|
| 0 | preamble words | 1 |
| 1 | serial version | 1 |
| 2 | family | 1 |
| 3 | flags | 1 |
| 4 | `k` | 2 |
| 6 | `m` | 1 |
| 8 | `n` | 8 |
| 16 | smallest `k` | 2 |
| 18 | number of levels | 1 |
| 20 | boundaries, extremes, items | |
-/
namespace QuantileSketch

namespace Format

/-- The serial version of empty and of full compact images. -/
def compactVersion : Nat := 1

/-- The serial version of single item images. -/
def singleVersion : Nat := 2

/-- The serial version of updatable images. -/
def updatableVersion : Nat := 3

/-- The preamble words of empty and of single item images. -/
def shortPreamble : Nat := 2

/-- The preamble words of all other images. -/
def fullPreamble : Nat := 5

/-- The family that all images belong to. -/
def family : Nat := 15

/-- The flag of an empty sketch. -/
def emptyFlag : Nat := 1

/-- The flag of a sketch whose level 0 is sorted. -/
def sortedFlag : Nat := 2

/-- Where the number of preamble words stands. -/
def preambleWordsAt : Nat := 0

/-- Where the serial version stands. -/
def versionAt : Nat := 1

/-- Where the family stands. -/
def familyAt : Nat := 2

/-- Where the flags stand. -/
def flagsAt : Nat := 3

/-- Where the accuracy parameter stands. -/
def kAt : Nat := 4

/-- Where the least width of a level stands. -/
def mAt : Nat := 6

/-- Where the length of the stream stands. -/
def nAt : Nat := 8

/-- Where the smallest accuracy parameter stands. -/
def minKAt : Nat := 16

/-- Where the number of levels stands. -/
def numLevelsAt : Nat := 18

/-- The size of the preamble that all layouts share. -/
def headerBytes : Nat := 8

/-- The size of an empty image. -/
def emptyBytes : Nat := 8

/-- Where the item of a single item image stands. -/
def singleDataAt : Nat := 8

/-- Where the boundaries of all longer images begin. -/
def dataAt : Nat := 20

end Format

/-! ### Sizes -/

/-- The size of a level boundary. -/
def offsetBytes : Nat := 4

/-- The size of an image with the given numbers of boundaries and items. -/
def fullImageSize (offsets items itemSize : Nat) : Nat :=
  Format.dataAt + offsets * offsetBytes + 2 * itemSize + items * itemSize

/-- The size of an updatable image. -/
def updatableSize (numLevels capacity itemSize : Nat) : Nat :=
  fullImageSize (numLevels + 1) capacity itemSize

/-- The size of a compact image. -/
def compactSize (n numLevels retained itemSize : Nat) : Nat :=
  if n = 0 then Format.emptyBytes
  else if n = 1 then Format.singleDataAt + itemSize
  else fullImageSize numLevels retained itemSize

/-- The size of the image of a sketch of the given shape. -/
def imageSize (n numLevels capacity retained itemSize : Nat) (updatable : Bool) : Nat :=
  if updatable then updatableSize numLevels capacity itemSize
  else compactSize n numLevels retained itemSize

/-- The size of an image as a word. -/
def serializedSize (n numLevels capacity retained itemSize : Nat) (updatable : Bool) :
    Except Abort Nat :=
  fitWord 64 (imageSize n numLevels capacity retained itemSize updatable)

end QuantileSketch
