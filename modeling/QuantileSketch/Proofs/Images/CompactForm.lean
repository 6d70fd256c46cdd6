import QuantileSketch.Proofs.Images.LongForm
import QuantileSketch.Proofs.Images.Safety

/-!
# Reading a compact image back

There are three compact layouts, and each leaves something out that has to be found again when the
image is read. The preamble alone stands for an empty sketch of one level
(`HasShape.read_of_empty`), and the preamble with an item for a sketch of one level with just this
item (`HasShape.read_of_single`). The full layout leaves out the last boundary, which is the total
capacity, and what is in the free slots (`HasShape.read_of_several`).
-/

namespace QuantileSketch

namespace Sketch

variable {α : Type} [Item α]

section

variable {s : Sketch α} {free : ℕ} {populations : List ℕ} {bytes : Bytes} {tail : List UInt8}

/-- Bytes that begin with the header of a sketch are a valid image if the rest is valid. -/
lemma HasShape.read_info_eq_ok {words version : ℕ} {c : Contents} (hs : s.HasShape free populations)
    (hwords : words < wordBound 8) (hversion : version < wordBound 8)
    (hbytes : bytes = (s.header words version ++ tail).toArray)
    (hcontents : Contents.read (s.headerOf words version) bytes (Item.width α) = .ok c ∧
      c.size ≤ bytes.size) :
    ImageInfo.read bytes (Item.width α) =
      .ok { toHeader := s.headerOf words version, toContents := c } :=
  ImageInfo.read_eq_ok_iff.mpr ⟨read_header hs hwords hversion hbytes, hcontents⟩

/-! ### The three layouts -/

/-- The compact image of a sketch of an empty stream is the preamble alone. -/
lemma compactBytes_of_empty (hn : s.n = 0) :
    s.compactBytes = s.header Format.shortPreamble Format.compactVersion := by
  have hempty : s.isEmpty = true := beq_iff_eq.mpr hn
  rw [compactBytes, if_pos hempty]

/-- The compact image of a sketch of a stream with one item is the preamble and the item. -/
lemma HasShape.compactBytes_of_single (hs : s.HasShape free populations) (hn : s.n = 1) :
    ∃ x rest, s.retained.toList = x :: rest ∧
      s.compactBytes = s.header Format.shortPreamble Format.singleVersion ++ Item.encode x := by
  obtain ⟨x, rest, hretained, hitem⟩ := hs.exists_first hn
  have hempty : s.isEmpty = false := by
    rw [isEmpty, hn]
    rfl
  have hsingle : s.isSingle = true := beq_iff_eq.mpr hn
  refine ⟨x, rest, hretained, ?_⟩
  rw [compactBytes, if_neg (by rw [hempty]; decide), if_pos hsingle, hitem]
  simp

/-- The compact image of a sketch of a stream with several items has the full layout. -/
lemma compactBytes_of_several (hn : 2 ≤ s.n) :
    s.compactBytes = s.longBytes Format.compactVersion s.levels.dropLast s.retained := by
  have hempty : s.isEmpty = false := beq_eq_false_iff_ne.mpr (by omega)
  have hsingle : s.isSingle = false := beq_eq_false_iff_ne.mpr (by omega)
  rw [compactBytes, hempty, hsingle]
  rfl

/-! ### Streams of no or one item -/

/-- What the compact image of a sketch of an empty stream says. -/
def emptyContents (s : Sketch α) : Contents where
  layout := .emptyCompact
  n := 0
  minK := s.k
  levels := [s.k, s.k]
  size := Format.emptyBytes

/-- What the compact image of a sketch of a stream with one item says. -/
def singleContents (s : Sketch α) : Contents where
  layout := .singleCompact
  n := 1
  minK := s.k
  levels := [s.k - 1, s.k]
  size := Format.singleDataAt + Item.width α

/-- What the compact image of a sketch of an empty stream says is read back. -/
lemma read_emptyContents (hn : s.n = 0)
    (hbytes : bytes =
      (s.header Format.shortPreamble Format.compactVersion ++ tail).toArray) :
    Contents.read (s.headerOf Format.shortPreamble Format.compactVersion) bytes (Item.width α) =
        .ok s.emptyContents ∧ s.emptyContents.size ≤ bytes.size := by
  have hempty : s.isEmpty = true := beq_iff_eq.mpr hn
  have hlayout : Contents.read (s.headerOf Format.shortPreamble Format.compactVersion) bytes
      (Item.width α) =
        Contents.readEmpty (s.headerOf Format.shortPreamble Format.compactVersion) := by
    rw [Contents.read, isEmpty_headerOf, hempty]
    rfl
  refine ⟨hlayout.trans (Contents.readEmpty_eq_ok_iff.mpr ⟨rfl, rfl, rfl⟩), ?_⟩
  rw [hbytes, List.size_toArray, List.length_append, length_header]
  exact Nat.le_add_right _ _

/-- What the compact image of a sketch of a stream with one item says is read back. -/
lemma read_singleContents {x : α} (hn : s.n = 1)
    (hbytes : bytes = (s.header Format.shortPreamble Format.singleVersion ++
      (Item.encode x ++ tail)).toArray) :
    Contents.read (s.headerOf Format.shortPreamble Format.singleVersion) bytes (Item.width α) =
        .ok s.singleContents ∧ s.singleContents.size ≤ bytes.size := by
  have hempty : s.isEmpty = false := by
    rw [isEmpty, hn]
    rfl
  have hlayout : Contents.read (s.headerOf Format.shortPreamble Format.singleVersion) bytes
      (Item.width α) = Contents.readSingle (s.headerOf Format.shortPreamble Format.singleVersion)
        (Item.width α) := by
    rw [Contents.read, isEmpty_headerOf, hempty]
    rfl
  have hword : Format.singleDataAt + Item.width α < wordBound 64 := by
    rcases (Item.isItemWidth : IsItemWidth (Item.width α)) with hwidth | hwidth <;> rw [hwidth] <;>
      decide
  refine ⟨hlayout.trans (Contents.readSingle_eq_ok_iff.mpr ⟨rfl, hword, rfl⟩), ?_⟩
  rw [hbytes, List.size_toArray, List.length_append, List.length_append, length_header,
    Item.length_encode, ← Nat.add_assoc]
  exact Nat.le_add_right _ _

/-- The compact image of a sketch of an empty stream is read as an empty sketch of one level. Only
the parameters and the flag of a sorted level 0 are kept. -/
theorem HasShape.read_of_empty (hs : s.HasShape free populations) (hn : s.n = 0)
    (hbytes : bytes = (s.compactBytes ++ tail).toArray) :
    read bytes = .ok { (empty s.k s.m : Sketch α) with levelZeroSorted := s.levelZeroSorted } := by
  rw [compactBytes_of_empty hn] at hbytes
  have hinfo := hs.read_info_eq_ok (by decide) (by decide) hbytes (read_emptyContents hn hbytes)
  rw [Sketch.read_eq_ok hinfo, sketchOf, ofData, levelZeroSorted_headerOf]
  rfl

/-- The compact image of a sketch of a stream with one item is read as a sketch of one level with
this item, which is the least and the greatest one. -/
theorem HasShape.read_of_single (hs : s.HasShape free populations) (hn : s.n = 1)
    (hbytes : bytes = (s.compactBytes ++ tail).toArray) :
    ∃ x rest, s.retained.toList = x :: rest ∧
      read bytes = .ok { (empty s.k s.m : Sketch α) with
        n := 1
        levels := [s.k - 1, s.k]
        items := (Array.replicate s.k Item.filler).setIfInBounds (s.k - 1) x
        extremes := some ⟨x, x⟩
        levelZeroSorted := s.levelZeroSorted } := by
  obtain ⟨x, rest, hretained, himage⟩ := hs.compactBytes_of_single hn
  rw [himage] at hbytes
  have hdecode : Item.decode (bytes.window Format.singleDataAt (Item.width α)) = x :=
    decode_window_eq hbytes (s.length_header _ _).symm
  rw [List.append_assoc] at hbytes
  have hinfo := hs.read_info_eq_ok (by decide) (by decide) hbytes (read_singleContents hn hbytes)
  refine ⟨x, rest, hretained, ?_⟩
  rw [Sketch.read_eq_ok hinfo, sketchOf, ofData, levelZeroSorted_headerOf]
  dsimp only [dataOf, singleContents]
  rw [hdecode]
  rfl

/-! ### Streams of several items -/

/-- What the full compact image of a sketch says. -/
def fullContents (s : Sketch α) : Contents where
  layout := .fullCompact
  n := s.n
  minK := s.minK
  levels := s.levels
  size := fullImageSize s.numLevels s.numRetained (Item.width α)

section

variable
  (hbytes : bytes =
    (s.longBytes Format.compactVersion s.levels.dropLast s.retained ++ tail).toArray)
include hbytes

/-- What the full compact image of a well-formed sketch with several items says is read back. -/
lemma HasShape.read_fullContents (hs : s.HasShape free populations) (hn : 2 ≤ s.n) :
    Contents.read (s.headerOf Format.fullPreamble Format.compactVersion) bytes (Item.width α) =
        .ok s.fullContents ∧ s.fullContents.size ≤ bytes.size := by
  have hempty : s.isEmpty = false := beq_eq_false_iff_ne.mpr (by omega)
  have hextension := extension_of_longBytes hbytes hs
  have hroom := size_of_longBytes hbytes
  rw [hs.length_dropLast, hs.size_retained] at hroom
  have hoffsets := offsets_of_longBytes hbytes
    fun b hb => hs.boundary_lt (List.mem_of_mem_dropLast hb)
  rw [hs.length_dropLast] at hoffsets
  have hlevels : Contents.fullLevels (s.headerOf Format.fullPreamble Format.compactVersion) bytes =
      s.levels := by
    rw [Contents.fullLevels, hextension, hoffsets]
    exact hs.dropLast_append
  have hcontents : s.fullContents =
      Contents.full (s.headerOf Format.fullPreamble Format.compactVersion) bytes
        (Item.width α) := by
    have hcapacity : totalCapacity s.k s.m s.numLevels - s.levels.headD 0 = s.numRetained := by
      rw [hs.totalCapacity_eq]
      rfl
    rw [Contents.full, hextension, hlevels, fullContents, ← hcapacity]
    rfl
  have hword : s.fullContents.size < wordBound 64 := by
    have hitems : s.numRetained ≤ slotLimit := by
      rw [numRetained, ← hs.totalCapacity_eq]
      exact (Nat.sub_le _ _).trans
        (totalCapacity_le_slotLimit hs.parameters (hs.numLevels_eq.trans_le hs.length_le))
    have hlevelCount : s.numLevels ≤ maxLevels + 1 :=
      hs.numLevels_eq.trans_le (hs.length_le.trans (Nat.le_succ _))
    exact (fullImageSize_lt hlevelCount hitems Item.isItemWidth).trans (by decide)
  have hlayout : Contents.read (s.headerOf Format.fullPreamble Format.compactVersion) bytes
      (Item.width α) = Contents.readFull (s.headerOf Format.fullPreamble Format.compactVersion)
        bytes (Item.width α) := by
    rw [Contents.read, isEmpty_headerOf, hempty]
    rfl
  refine ⟨?_, hroom⟩
  rw [hlayout, Contents.readFull_eq_ok_iff hs.parameters, hextension]
  exact ⟨rfl, rfl, hs.inRange rfl rfl, (offsets_le_fullImageSize _ _ _).trans hroom,
    hs.pairwise_levels, hs.sampleWeight_levels, hword, hcontents⟩

/-- The extremes and the slots of a full compact image; the free slots are fillers. -/
lemma HasShape.dataOf_fullContents (hs : s.HasShape free populations) (header : Header) :
    dataOf { toHeader := header, toContents := s.fullContents } bytes =
      (s.extremes, Array.replicate s.free Item.filler ++ s.retained) := by
  have hextremes := extremesOf_longBytes hbytes
  have hitems := itemList_longBytes hbytes
  rw [hs.length_dropLast] at hextremes hitems
  rw [hs.size_retained] at hitems
  have hdata : dataOf { toHeader := header, toContents := s.fullContents } bytes =
      (if s.n = 0 then none else
        some (extremesOf bytes (Format.dataAt + s.numLevels * offsetBytes)),
      Array.replicate s.free Item.filler ++ (itemList bytes s.numRetained
        (Format.dataAt + s.numLevels * offsetBytes + 2 * Item.width α)).toArray) := rfl
  rw [hdata, hextremes, hitems, hs.extremes_eq, Array.toArray_toList]

end

/-- The compact image of a sketch of a stream with several items is read as this sketch, but for
what is in the free slots. -/
theorem HasShape.read_of_several (hs : s.HasShape free populations) (hn : 2 ≤ s.n)
    (hbytes : bytes = (s.compactBytes ++ tail).toArray) :
    read bytes = .ok { s with
      items := Array.replicate s.free Item.filler ++ s.retained
      readOnly := false
      backing := none } := by
  rw [compactBytes_of_several hn] at hbytes
  have hinfo := hs.read_info_eq_ok (by decide) (by decide)
    (hbytes.trans (congrArg List.toArray (List.append_assoc _ _ _)))
    (hs.read_fullContents hbytes hn)
  rw [Sketch.read_eq_ok hinfo, sketchOf, hs.dataOf_fullContents hbytes, ofData,
    levelZeroSorted_headerOf]
  rfl

end

end Sketch

end QuantileSketch
