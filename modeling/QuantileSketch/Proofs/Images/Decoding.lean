import QuantileSketch.Proofs.Images.LongForm
import QuantileSketch.Proofs.Images.Safety

/-!
# Reading an updatable image back

A region is read as a well-formed sketch if the fields in it are those of the sketch
(`Sketch.LegibleIn`). It need not be the image that this sketch is written with: the reserved bytes,
the flags without a meaning, the extremes of an empty stream and what follows the image may have any
value. Every updatable image that is accepted is such a region of the sketch that is opened from it
(`legibleIn_of_read`), and so are all bytes that begin with the updatable image of a well-formed
sketch (`legibleIn_of_updatableBytes`).

So the updatable image of a well-formed sketch is valid (`read_info_of_updatableBytes`), the sketch
that is read from it has the same contents (`ofImage_of_updatableBytes`), and a sketch can go on
working in a region that begins with its image (`wrapInRegion_of_updatableBytes`).
-/

namespace QuantileSketch

namespace Sketch

variable {α : Type} [Item α]

/-- What the updatable image of a sketch says. -/
def info (s : Sketch α) : ImageInfo where
  words := Format.fullPreamble
  version := Format.updatableVersion
  family := Format.family
  flags := s.flags
  k := s.k
  m := s.m
  layout := .updatable
  n := s.n
  minK := s.minK
  levels := s.levels
  size := s.imageSize true

/-- What an updatable image of a sketch says that has the flags of a region. -/
def infoIn (s : Sketch α) (region : Bytes) : ImageInfo :=
  { s.info with flags := region.field Format.flagsAt 1 }

/-- The fields in a region that reading looks at are those of a sketch. -/
structure LegibleIn (s : Sketch α) (region : Bytes) : Prop where
  header_eq : Header.of region = (s.infoIn region).toHeader
  sorted_eq : (s.infoIn region).levelZeroSorted = s.levelZeroSorted
  extension_eq : Contents.Extension.of region = ⟨s.n, s.minK, s.numLevels⟩
  levels_eq : region.offsets (s.numLevels + 1) Format.dataAt = s.levels
  /-- The extremes of an empty stream are not looked at. -/
  extremes_eq : (if s.n = 0 then none else some (extremesOf region
    (Format.dataAt + (s.numLevels + 1) * offsetBytes))) = s.extremes
  items_eq : itemList region s.capacity
    (Format.dataAt + (s.numLevels + 1) * offsetBytes + 2 * Item.width α) = s.items.toList
  imageSize_le : s.imageSize true ≤ region.size

variable {s : Sketch α} {free : ℕ} {populations : List ℕ} {region : Bytes}

namespace LegibleIn

/-- What is legible does not depend on the region that the sketch works in. -/
lemma setBacking (h : s.LegibleIn region) (backing : Option Backing) :
    LegibleIn { s with backing } region :=
  ⟨h.header_eq, h.sorted_eq, h.extension_eq, h.levels_eq, h.extremes_eq, h.items_eq, h.imageSize_le⟩

/-- A region in which a well-formed sketch is legible holds a valid updatable image. -/
theorem read_infoIn (hs : s.HasShape free populations) (h : s.LegibleIn region) :
    ImageInfo.read region (Item.width α) = .ok (s.infoIn region) := by
  have hheader : Header.read region = .ok (s.infoIn region).toHeader :=
    Header.read_eq_ok_iff.mpr ⟨(by decide : Format.headerBytes ≤ Format.dataAt).trans
      (hs.dataAt_le_imageSize.trans h.imageSize_le), h.header_eq, rfl, hs.parameters⟩
  have hcontents : (s.infoIn region).toContents = Contents.updatable region (Item.width α) := by
    rw [Contents.updatable, Contents.updatableLevels, h.extension_eq, h.levels_eq]
    rfl
  have hoffsets : Format.dataAt + (s.numLevels + 1) * offsetBytes ≤ s.imageSize true :=
    offsets_le_fullImageSize _ _ _
  have hupdatable : Contents.readUpdatable (s.infoIn region).toHeader region (Item.width α) =
      .ok (s.infoIn region).toContents := by
    rw [Contents.readUpdatable_eq_ok_iff hs.parameters, h.extension_eq]
    exact ⟨rfl, hs.inRange rfl rfl, hoffsets.trans h.imageSize_le, hs.pairwise_levels,
      hs.totalCapacity_eq.symm, hs.sampleWeight_levels, hs.imageSize_lt.trans (by decide),
      hcontents⟩
  exact ImageInfo.read_eq_ok_iff.mpr ⟨hheader, hupdatable, h.imageSize_le⟩

/-- The sketch in a region in which a well-formed one is legible is this one, up to its region. -/
theorem ofImage_infoIn (hs : s.HasShape free populations) (h : s.LegibleIn region) :
    ofImage (s.infoIn region) region = .ok { s with readOnly := false, backing := none } := by
  have hdata : dataOf (s.infoIn region) region =
      (if s.n = 0 then none else
        some (extremesOf region (Format.dataAt + (s.numLevels + 1) * offsetBytes)),
      (itemList region s.capacity
        (Format.dataAt + (s.numLevels + 1) * offsetBytes + 2 * Item.width α)).toArray) := rfl
  rw [ofImage_eq_ok (h.read_infoIn hs), sketchOf, hdata, h.extremes_eq, h.items_eq,
    Array.toArray_toList, ofData, h.sorted_eq]
  rfl

/-- A region in which a well-formed sketch is legible is opened as this one, up to its region. -/
theorem read_eq_ok (hs : s.HasShape free populations) (h : s.LegibleIn region) :
    read region = .ok { s with readOnly := false, backing := none } := by
  rw [read, h.read_infoIn hs]
  exact h.ofImage_infoIn hs

end LegibleIn

/-! ### Images that are accepted -/

/-- The sketch in an updatable image is legible in the image. -/
theorem legibleIn_of_read {v : ImageInfo} (hv : ImageInfo.read region (Item.width α) = .ok v)
    (hlayout : v.layout = .updatable) : (sketchOf v region : Sketch α).LegibleIn region := by
  obtain ⟨hsize, hin⟩ := ImageInfo.layoutSize_le Item.isItemWidth hv
  obtain ⟨hshared, hheader, hdescribes, -⟩ :=
    (ImageInfo.read_eq_ok_iff_describes Item.isItemWidth).mp hv
  obtain ⟨header, contents⟩ := v
  cases hdescribes with
  | empty => cases hlayout
  | single => cases hlayout
  | full => cases hlayout
  | @updatable levels hlong hversion hlevels _ _ =>
    obtain rfl : header = Header.of region := hheader
    have hnumLevels : levels.length - 1 = region.field 18 1 := by
      rw [hlevels, Bytes.length_offsets, Nat.add_sub_cancel]
    refine ⟨?_, rfl, ?_, ?_, rfl, rfl, hsize.symm.trans_le hin⟩
    · change Header.mk (region.field 0 1) (region.field 1 1) (region.field 2 1) _ _ _ = _
      rw [hlong.words_eq, hversion, hshared.family_eq]
      rfl
    · exact congrArg (Contents.Extension.mk _ _) hnumLevels.symm
    · change region.offsets (levels.length - 1 + 1) 20 = levels
      rw [hnumLevels, hlevels]

/-- The sketch that is opened for working in its region is legible there. -/
lemma legibleIn_of_wrapInRegion {server : RegionServer} (h : wrapInRegion region server = .ok s) :
    s.LegibleIn region := by
  obtain ⟨v, s', hv, hlayout, hs', rfl⟩ := wrapInRegion_eq_ok_iff.mp h
  rw [ofImage_eq_ok hv, Except.ok.injEq] at hs'
  rw [← hs']
  exact (legibleIn_of_read hv hlayout).setBacking _

/-! ### Images that were written -/

section

variable {tail : List UInt8} (hs : s.HasShape free populations)
  (hregion : region = (s.updatableBytes ++ tail).toArray)
include hs hregion

/-- The shared preamble in an updatable image. -/
lemma header_of_updatableBytes :
    Header.of region = s.headerOf Format.fullPreamble Format.updatableVersion :=
  header_of_header hs (by decide) (by decide)
    (hregion.trans (congrArg List.toArray (List.append_assoc _ _ _)))

/-- The flags in an updatable image are those of the sketch. -/
lemma infoIn_of_updatableBytes : s.infoIn region = s.info := by
  have hflags : region.field Format.flagsAt 1 = s.flags :=
    congrArg Header.flags (header_of_updatableBytes hs hregion)
  rw [infoIn, hflags, info]

/-- A well-formed sketch is legible in bytes that begin with its updatable image. -/
theorem legibleIn_of_updatableBytes : s.LegibleIn region := by
  have hinfo := infoIn_of_updatableBytes hs hregion
  have hlevels := offsets_of_longBytes hregion fun b hb => hs.boundary_lt hb
  have hextremes := extremesOf_longBytes hregion
  have hitems := itemList_longBytes hregion
  have hsize := size_of_longBytes hregion
  rw [hs.length_levels] at hlevels hextremes hitems hsize
  have hcapacity : s.items.size = s.capacity := hs.size_eq.trans hs.capacity_eq.symm
  rw [hcapacity] at hitems hsize
  refine ⟨(header_of_updatableBytes hs hregion).trans ?_, ?_, extension_of_longBytes hregion hs,
    hlevels, ?_, hitems, hsize⟩
  · rw [hinfo]
    rfl
  · rw [hinfo]
    exact s.levelZeroSorted_headerOf _ _
  · rw [hextremes, hs.extremes_eq]

/-- The updatable image of a well-formed sketch is valid. -/
theorem read_info_of_updatableBytes : ImageInfo.read region (Item.width α) = .ok s.info := by
  have hread := (legibleIn_of_updatableBytes hs hregion).read_infoIn hs
  rw [infoIn_of_updatableBytes hs hregion] at hread
  exact hread

/-- The sketch that is read from the updatable image of a sketch has the same contents. -/
theorem ofImage_of_updatableBytes :
    ofImage s.info region = .ok { s with readOnly := false, backing := none } := by
  have himage := (legibleIn_of_updatableBytes hs hregion).ofImage_infoIn hs
  rw [infoIn_of_updatableBytes hs hregion] at himage
  exact himage

/-- A sketch goes on working in a region that begins with its updatable image. -/
theorem wrapInRegion_of_updatableBytes (server : RegionServer) :
    wrapInRegion region server =
      .ok { s with readOnly := false, backing := some { region, server } } :=
  wrapInRegion_eq_ok_iff.mpr ⟨s.info, _, read_info_of_updatableBytes hs hregion, rfl,
    ofImage_of_updatableBytes hs hregion, rfl⟩

end

end Sketch

end QuantileSketch
