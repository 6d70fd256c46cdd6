import QuantileSketch.Proofs.Shape
import QuantileSketch.Sketch.Backing
import QuantileSketch.Sketch.Image

/-!
# The sizes of images

The updatable image of a well-formed sketch has the size that is computed from the numbers of levels
and slots (`HasShape.length_updatableBytes`), and that size is far below the largest word
(`HasShape.imageSize_lt`). An insertion writes inside the image only (`field_le_imageSize`).
-/

namespace QuantileSketch

/-- The number of bytes of some numbers. -/
@[simp] lemma length_encodeNumbers (width : ℕ) (numbers : List ℕ) :
    (encodeNumbers width numbers).length = numbers.length * width := by
  induction numbers with
  | nil => simp [encodeNumbers]
  | cons n numbers ih =>
    have hsplit : encodeNumbers width (n :: numbers) =
        littleEndian width n ++ encodeNumbers width numbers := List.flatMap_cons
    rw [hsplit, List.length_append, length_littleEndian, ih, List.length_cons, Nat.succ_mul,
      Nat.add_comm]

variable {α : Type}

/-- The size of the preamble that all layouts share. -/
@[simp] lemma Sketch.length_header (s : Sketch α) (words version : ℕ) :
    (s.header words version).length = Format.headerBytes := by
  simp [header, Format.headerBytes]

variable [Item α]

/-- The number of bytes of some items. -/
@[simp] lemma Item.length_flatMap_encode (items : List α) :
    (items.flatMap Item.encode).length = items.length * Item.width α := by
  induction items with
  | nil => simp
  | cons x items ih =>
    rw [List.flatMap_cons, List.length_append, Item.length_encode, ih, List.length_cons,
      Nat.succ_mul, Nat.add_comm]

namespace Sketch

/-- The size of an image of one of the two longer layouts. -/
lemma length_header_append_body (s : Sketch α) (words version : ℕ) (offsets : List ℕ)
    (items : Array α) :
    (s.header words version ++ s.body offsets items).length =
      fullImageSize offsets.length items.size (Item.width α) := by
  simp only [body, List.length_append, length_header, length_littleEndian, length_encodeNumbers,
    Item.length_encode, Item.length_flatMap_encode, List.length_singleton, Array.length_toList,
    fullImageSize, Format.dataAt, Format.headerBytes]
  omega

/-- The size of the updatable image, from the numbers of boundaries and slots. -/
lemma length_updatableBytes (s : Sketch α) :
    s.updatableBytes.length = fullImageSize s.levels.length s.items.size (Item.width α) :=
  s.length_header_append_body _ _ _ _

/-- The size of the updatable image is computed from the numbers of levels and slots. -/
lemma imageSize_true (s : Sketch α) :
    s.imageSize true = updatableSize s.numLevels s.capacity (Item.width α) := rfl

/-- The size of the compact image is computed from the length of the stream and the numbers of
levels and of retained items. -/
lemma imageSize_false (s : Sketch α) :
    s.imageSize false = compactSize s.n s.numLevels s.numRetained (Item.width α) := rfl

/-- The size of the updatable image does not depend on the region. -/
@[simp] lemma imageSize_setBacking (s : Sketch α) (backing : Option Backing) (updatable : Bool) :
    imageSize { s with backing } updatable = s.imageSize updatable := rfl

/-- More boundaries and items do not make a full image shorter. -/
lemma fullImageSize_mono {offsets offsets' items items' : ℕ} (width : ℕ)
    (hoffsets : offsets ≤ offsets') (hitems : items ≤ items') :
    fullImageSize offsets items width ≤ fullImageSize offsets' items' width := by
  have hoffsets' : offsets * offsetBytes ≤ offsets' * offsetBytes := Nat.mul_le_mul_right _ hoffsets
  have hitems' : items * width ≤ items' * width := Nat.mul_le_mul_right _ hitems
  rw [fullImageSize, fullImageSize]
  omega

/-- The boundaries lie in a full image. -/
lemma offsets_le_fullImageSize (offsets items width : ℕ) :
    Format.dataAt + offsets * offsetBytes ≤ fullImageSize offsets items width := by
  rw [fullImageSize]
  omega

/-- With as many boundaries and items as a sketch can have, the size of a full image is a word of 32
bits. -/
lemma fullImageSize_lt {offsets items width : ℕ} (hoffsets : offsets ≤ maxLevels + 1)
    (hitems : items ≤ slotLimit) (hwidth : IsItemWidth width) :
    fullImageSize offsets items width < wordBound 32 := by
  have hwidth' : width ≤ 8 := by
    rcases hwidth with hwidth | hwidth <;> omega
  have hslots : items * width ≤ slotLimit * 8 := Nat.mul_le_mul hitems hwidth'
  have hboundaries : offsets * offsetBytes ≤ (maxLevels + 1) * offsetBytes :=
    Nat.mul_le_mul_right _ hoffsets
  have hlimit : Format.dataAt + (maxLevels + 1) * offsetBytes + 2 * 8 + slotLimit * 8 <
      wordBound 32 := by decide
  rw [fullImageSize]
  omega

/-- More levels and slots do not make the updatable image shorter. -/
lemma updatableSize_mono {numLevels numLevels' capacity capacity' : ℕ} (width : ℕ)
    (hlevels : numLevels ≤ numLevels') (hcapacity : capacity ≤ capacity') :
    updatableSize numLevels capacity width ≤ updatableSize numLevels' capacity' width :=
  fullImageSize_mono width (Nat.succ_le_succ hlevels) hcapacity

/-- A compact image is no longer than a full one with as many boundaries and items. -/
lemma compactSize_le_fullImageSize (n numLevels retained width : ℕ) :
    compactSize n numLevels retained width ≤ fullImageSize numLevels retained width := by
  unfold compactSize fullImageSize
  split
  · rw [Format.emptyBytes, Format.dataAt]
    omega
  split
  · rw [Format.singleDataAt, Format.dataAt]
    omega
  · exact Nat.le_refl _

/-- Compact images of streams with several items have the full layout. -/
lemma compactSize_of_several {n : ℕ} (hn : 2 ≤ n) (numLevels retained width : ℕ) :
    compactSize n numLevels retained width = fullImageSize numLevels retained width := by
  rw [compactSize, if_neg (by omega), if_neg (by omega)]

/-- The updatable image does not depend on the region. -/
@[simp] lemma updatableBytes_setBacking (s : Sketch α) (backing : Option Backing) :
    updatableBytes { s with backing } = s.updatableBytes := rfl

namespace HasShape

variable {s : Sketch α} {free : ℕ} {populations : List ℕ}

/-- The size of the updatable image, told by the shape. -/
lemma imageSize_eq (h : s.HasShape free populations) :
    s.imageSize true =
      updatableSize populations.length (free + populations.sum) (Item.width α) := by
  rw [imageSize_true, h.numLevels_eq, h.capacity_eq]

/-- The updatable image has the size that is computed. -/
theorem length_updatableBytes (h : s.HasShape free populations) :
    s.updatableBytes.length = s.imageSize true := by
  rw [Sketch.length_updatableBytes, h.imageSize_eq, h.levels_eq, length_boundaries, h.size_eq,
    updatableSize]

/-- There is a preamble in the updatable image. -/
lemma dataAt_le_imageSize (h : s.HasShape free populations) : Format.dataAt ≤ s.imageSize true := by
  rw [h.imageSize_eq, updatableSize, fullImageSize]
  omega

/-- The size of the updatable image is a word of 32 bits. -/
theorem imageSize_lt (h : s.HasShape free populations) : s.imageSize true < wordBound 32 := by
  have hroom : free + populations.sum ≤ slotLimit := by
    rw [h.room_eq]
    exact totalCapacity_le_slotLimit h.parameters h.length_le
  rw [h.imageSize_eq, updatableSize]
  exact fullImageSize_lt (Nat.succ_le_succ h.length_le) hroom Item.isItemWidth

/-- The slot above the free ones lies in the image. -/
lemma slot_le {here : ℕ} {upper : List ℕ} (h : s.HasShape free ((here + 1) :: upper)) :
    free * Item.width α + Item.width α ≤ s.capacity * Item.width α := by
  rw [← Nat.succ_mul, h.capacity_eq]
  refine Nat.mul_le_mul_right _ ?_
  rw [List.sum_cons]
  omega

/-- All fields that an insertion changes lie in the image. -/
theorem field_le_imageSize {here : ℕ} {upper : List ℕ}
    (h : s.HasShape free ((here + 1) :: upper)) (x : α) :
    ∀ field ∈ s.insertionFields s.free x, field.1 + field.2.length ≤ s.imageSize true := by
  have hslot := h.slot_le
  rw [imageSize_true, h.free_eq, updatableSize, fullImageSize]
  simp only [insertionFields, h.numLevels_eq, List.forall_mem_cons, length_littleEndian,
    List.length_append, Item.length_encode, Format.flagsAt, Format.nAt, Format.dataAt, offsetBytes,
    List.not_mem_nil, false_imp_iff, implies_true, and_true]
  refine ⟨?_, ?_, ?_, ?_, ?_⟩ <;> omega

/-- The image from before an insertion is not longer than the image. -/
lemma fullImageSize_le_imageSize {here : ℕ} {upper : List ℕ}
    (h : s.HasShape free ((here + 1) :: upper)) :
    fullImageSize (s.numLevels + 1) (s.free + 1) (Item.width α) ≤ s.imageSize true := by
  have hslot := h.slot_le
  rw [imageSize_true, h.free_eq, updatableSize, fullImageSize, fullImageSize, Nat.succ_mul free]
  omega

end HasShape

end Sketch

end QuantileSketch
