import QuantileSketch.Sketch.Basic

/-!
# Writing images

The compact image holds the sample, and less for streams of no or one item. The updatable image
holds all slots, so that a sketch can go on working in it.
-/
namespace QuantileSketch

/-- The bytes of some numbers, `width` bytes for each. -/
def encodeNumbers (width : Nat) (numbers : List Nat) : List UInt8 :=
  numbers.flatMap (littleEndian width)

namespace Sketch

variable {α : Type} [Item α]

/-- The flags of an image. -/
def flags (s : Sketch α) : Nat :=
  (if s.isEmpty then Format.emptyFlag else 0) + (if s.levelZeroSorted then Format.sortedFlag else 0)

/-- The preamble that all layouts share. -/
def header (s : Sketch α) (words version : Nat) : List UInt8 :=
  littleEndian 1 words ++ littleEndian 1 version ++ littleEndian 1 Format.family
    ++ littleEndian 1 s.flags ++ littleEndian 2 s.k ++ littleEndian 1 s.m ++ [0]

/-- The rest of the longer layouts: some boundaries and some items follow the other fields. -/
def body (s : Sketch α) (offsets : List Nat) (items : Array α) : List UInt8 :=
  let extremes := Extremes.orFiller s.extremes
  littleEndian 8 s.n ++ littleEndian 2 s.minK ++ littleEndian 1 s.numLevels ++ [0]
    ++ encodeNumbers offsetBytes offsets
    ++ Item.encode extremes.least ++ Item.encode extremes.greatest
    ++ items.toList.flatMap Item.encode

/-- The compact image as a list of bytes. -/
def compactBytes (s : Sketch α) : List UInt8 :=
  if s.isEmpty then s.header Format.shortPreamble Format.compactVersion
  else if s.isSingle then
    s.header Format.shortPreamble Format.singleVersion
      ++ (s.items.extract s.free (s.free + 1)).toList.flatMap Item.encode
  else
    s.header Format.fullPreamble Format.compactVersion ++ s.body s.levels.dropLast s.retained

/-- The updatable image as a list of bytes. -/
def updatableBytes (s : Sketch α) : List UInt8 :=
  s.header Format.fullPreamble Format.updatableVersion ++ s.body s.levels s.items

/-- The compact image. -/
def compactImage (s : Sketch α) : Bytes := s.compactBytes.toArray

/-- The updatable image. -/
def updatableImage (s : Sketch α) : Bytes := s.updatableBytes.toArray

/-- The image in one of the two forms. -/
def image (s : Sketch α) (updatable : Bool) : Bytes :=
  if updatable then s.updatableImage else s.compactImage

/-- The size of an image of the sketch. -/
def imageSize (s : Sketch α) (updatable : Bool) : Nat :=
  QuantileSketch.imageSize s.n s.numLevels s.capacity s.numRetained (Item.width α) updatable

/-- Writes an image to the beginning of a buffer, to as many bytes as the image should have. The
answer is the number of bytes written. -/
def serializeInto (s : Sketch α) (buffer : Bytes) (updatable : Bool) :
    Bytes × Except Failure Nat :=
  let size := s.imageSize updatable
  let image := (s.image updatable).toList
  if buffer.size < size then (buffer, .error (.refused (Cause.shortBuffer size buffer.size).error))
  else if image.length ≠ size then
    (buffer, .error (.aborted (.check "image has the wrong size")))
  else (overwrite buffer 0 image, .ok size)

end Sketch

end QuantileSketch
