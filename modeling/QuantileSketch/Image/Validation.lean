import QuantileSketch.Bytes
import QuantileSketch.Image.Format
import QuantileSketch.Levels

/-!
# Validating images

`ImageInfo.read` finds out whether some bytes begin with an image, and what the image says. Bytes
behind the image are allowed. Fields are looked at in their order, so that the first fault decides
what is reported.
-/
namespace QuantileSketch

/-- The preamble that all layouts share. -/
structure Header where
  words : Nat
  version : Nat
  family : Nat
  flags : Nat
  k : Nat
  m : Nat
  deriving DecidableEq, Repr

/-- What an image says beyond its preamble, or leaves to be derived from it. -/
structure Contents where
  layout : Layout
  n : Nat
  minK : Nat
  /-- The boundaries of all levels. -/
  levels : List Nat
  /-- The size of the image. -/
  size : Nat
  deriving DecidableEq, Repr

/-- What is known of a valid image. -/
structure ImageInfo extends Header, Contents
  deriving DecidableEq, Repr

namespace Header

/-- Whether the flag of an empty sketch is set. -/
def isEmpty (h : Header) : Bool := h.flags % 2 == 1

/-- Whether the flag of a sorted level 0 is set. -/
def levelZeroSorted (h : Header) : Bool := h.flags / 2 % 2 == 1

end Header

namespace ImageInfo

/-- The number of levels. -/
def numLevels (v : ImageInfo) : Nat := v.levels.length - 1

/-- Whether the image is that of a single item. -/
def isSingle (v : ImageInfo) : Bool := v.layout == .singleCompact

/-- Whether the image is updatable. -/
def isUpdatable (v : ImageInfo) : Bool := v.layout == .updatable

/-- Refuses a buffer that is too short for the image. -/
def checkSize (v : ImageInfo) (length : Nat) : Except Error Unit :=
  (Cause.cutOff .sketch length v.size).unless (v.size ≤ length)

end ImageInfo

/-! ### Reading fields -/

/-- Refuses bytes that end before a part of an image does. -/
def checkLength (bytes : Bytes) (required : Nat) (part : ImagePart) : Except Error Unit :=
  (Cause.cutOff part bytes.size required).unless (required ≤ bytes.size)

/-- Refuses a field of the preamble that does not have the value expected. -/
def checkField (fault : PreambleFault) (actual expected : Nat) : Except Error Unit :=
  (Cause.preamble fault actual).unless (actual = expected)

/-- The level boundaries that stand in an image from a position on. -/
def readOffsets (bytes : Bytes) : Nat → Nat → Except Abort (List Nat)
  | 0, _ => .ok []
  | count + 1, pos => do
    let offset ← bytes.number pos offsetBytes
    let offsets ← readOffsets bytes count (pos + offsetBytes)
    return offset :: offsets

/-- Whether no boundary is below the one before it. -/
def isMonotone : List Nat → Bool
  | a :: b :: levels => decide (a ≤ b) && isMonotone (b :: levels)
  | _ => true

theorem isMonotone_iff_pairwise {levels : List Nat} :
    isMonotone levels = true ↔ levels.Pairwise (· ≤ ·) := by
  fun_induction isMonotone levels with
  | case1 a b levels ih =>
    simp only [Bool.and_eq_true, decide_eq_true_eq, ih, List.pairwise_cons, List.mem_cons]
    constructor
    · rintro ⟨hab, hb, hrest⟩
      refine ⟨?_, hb, hrest⟩
      rintro c (rfl | hc)
      · exact hab
      · exact Nat.le_trans hab (hb c hc)
    · rintro ⟨ha, hb, hrest⟩
      exact ⟨ha b (.inl rfl), hb, hrest⟩
  | case2 levels h =>
    match levels with
    | [] => simp
    | [a] => simp
    | a :: b :: levels => exact absurd rfl (h a b levels)

/-- Refuses boundaries of levels that end before they begin. -/
def checkMonotone (levels : List Nat) : Except Error Unit :=
  Cause.decreasingLevels.unless (isMonotone levels)

/-- Refuses levels that do not stand for a stream of `n` items. -/
def checkWeight (n numLevels : Nat) (levels : List Nat) : Except Failure Unit := do
  let weight ← sampleWeight numLevels levels
  (Cause.wrongWeight n weight).unless (weight = n)

/-- Reads the preamble that all layouts share and checks the family and the parameters. -/
def Header.read (bytes : Bytes) : Except Failure Header := do
  checkLength bytes Format.headerBytes .preamble
  let words ← bytes.number Format.preambleWordsAt 1
  let version ← bytes.number Format.versionAt 1
  let family ← bytes.number Format.familyAt 1
  (Cause.wrongFamily family).unless (family = Format.family)
  let flags ← bytes.number Format.flagsAt 1
  let k ← bytes.number Format.kAt 2
  let m ← bytes.number Format.mAt 1
  checkM m
  checkK k m
  return { words, version, family, flags, k, m }

namespace Contents

/-- The fields that follow the shared preamble in the longer layouts. -/
structure Extension where
  n : Nat
  minK : Nat
  numLevels : Nat

/-- Reads the fields that follow the shared preamble in the longer layouts. -/
def Extension.read (h : Header) (bytes : Bytes) : Except Failure Extension := do
  checkLength bytes Format.dataAt .preamble
  let n ← bytes.number Format.nAt 8
  let minK ← bytes.number Format.minKAt 2
  let numLevels ← bytes.number Format.numLevelsAt 1
  (Cause.levelCount numLevels).unless (1 ≤ numLevels ∧ numLevels ≤ maxLevels)
  (Cause.mergedK h.m h.k minK).unless (h.m ≤ minK ∧ minK ≤ h.k)
  return { n, minK, numLevels }

/-- An empty image is its preamble. -/
def readEmpty (h : Header) : Except Failure Contents := do
  checkField .emptyBitAndPreInts h.words Format.shortPreamble
  checkField .emptyBitAndSerVer h.version Format.compactVersion
  return { layout := .emptyCompact, n := 0, minK := h.k, levels := [h.k, h.k]
           size := Format.emptyBytes }

/-- A single item image is its preamble and the item. -/
def readSingle (h : Header) (itemSize : Nat) : Except Failure Contents := do
  checkField .singleBitAndPreInts h.words Format.shortPreamble
  let size ← fitWord 64 (Format.singleDataAt + itemSize)
  return { layout := .singleCompact, n := 1, minK := h.k, levels := [h.k - 1, h.k], size }

/-- A full compact image leaves out the last boundary, which is the total capacity, and the free
slots. -/
def readFull (h : Header) (bytes : Bytes) (itemSize : Nat) : Except Failure Contents := do
  checkField .invalidPreInts h.words Format.fullPreamble
  checkField .emptyBitAndSerVer h.version Format.compactVersion
  let ext ← Extension.read h bytes
  checkLength bytes (Format.dataAt + ext.numLevels * offsetBytes) .levels
  let offsets ← readOffsets bytes ext.numLevels Format.dataAt
  let capacity ← totalItemCapacity h.k h.m ext.numLevels
  let levels := offsets ++ [capacity]
  checkMonotone levels
  checkWeight ext.n ext.numLevels levels
  let size ← fitWord 64 (fullImageSize ext.numLevels (capacity - levels.headD 0) itemSize)
  return { layout := .fullCompact, n := ext.n, minK := ext.minK, levels, size }

/-- An updatable image holds all boundaries and all slots. -/
def readUpdatable (h : Header) (bytes : Bytes) (itemSize : Nat) : Except Failure Contents := do
  checkField .invalidPreInts h.words Format.fullPreamble
  let ext ← Extension.read h bytes
  checkLength bytes (Format.dataAt + (ext.numLevels + 1) * offsetBytes) .levels
  let levels ← readOffsets bytes (ext.numLevels + 1) Format.dataAt
  checkMonotone levels
  let expected ← totalItemCapacity h.k h.m ext.numLevels
  let capacity := levels.getLastD 0
  (Cause.wrongCapacity expected capacity).unless (capacity = expected)
  checkWeight ext.n ext.numLevels levels
  let size ← fitWord 64 (updatableSize ext.numLevels capacity itemSize)
  return { layout := .updatable, n := ext.n, minK := ext.minK, levels, size }

/-- Reads what follows the shared preamble. The serial version and the flag of an empty sketch
choose the layout. -/
def read (h : Header) (bytes : Bytes) (itemSize : Nat) : Except Failure Contents :=
  if h.version = Format.updatableVersion then readUpdatable h bytes itemSize
  else
    match h.isEmpty, h.version == Format.singleVersion with
    | true, true => .error (.refused (Cause.preamble .emptyBitAndSingleFormat h.flags).error)
    | false, false => readFull h bytes itemSize
    | true, false => readEmpty h
    | false, true => readSingle h itemSize

end Contents

/-- Reads and checks the image, of items of `itemSize` bytes, that some bytes begin with. -/
def ImageInfo.read (bytes : Bytes) (itemSize : Nat) : Except Failure ImageInfo := do
  let header ← Header.read bytes
  let contents ← Contents.read header bytes itemSize
  let info : ImageInfo := { toHeader := header, toContents := contents }
  info.checkSize bytes.size
  return info

end QuantileSketch
