import QuantileSketch.Item.Integer
import QuantileSketch.Proofs.Contents
import QuantileSketch.Proofs.Images.Safety
import QuantileSketch.Proofs.SampleWeight

/-!
# Where the fields of an image agree

An image can say the same thing twice. The length of the stream is a field of the longer images, and
the weight of the levels is that length again. Whether the stream is empty is told by a flag, and by
the length again.

Validation compares the length with the weight of the levels only after the weight has been cut off
at the largest word. So the two agree below the largest word (`ImageInfo.n_eq_min_weight`), and not
always at it (`ImageInfo.exists_weight_beyond_word`). The flag is looked at where it chooses between
two layouts, but it is never compared with a length that is read. The sketch goes by the length
alone, so that flag and sketch agree where the length is derived from the layout
(`Sketch.isEmpty_of_read`), and not always where it is read
(`Sketch.exists_flag_against_length`).
-/

namespace QuantileSketch

/-! ### The length of the stream and the weight of the levels -/

namespace ImageInfo

/-- The exact weight of the levels of an image, as a number of any size. An item of level `i` weighs
`2 ^ i`. -/
def weight (v : ImageInfo) : ℕ :=
  ∑ level ∈ Finset.range v.numLevels,
    (v.levels.getD (level + 1) 0 - v.levels.getD level 0) * 2 ^ level

/-- The weight of the levels, told by the shape. -/
lemma HasShape.weight_eq {v : ImageInfo} {free : ℕ} {populations : List ℕ}
    (hv : v.HasShape free populations) : v.weight = totalWeight populations := by
  rw [weight, numLevels, ← exactWeight_eq_sum, hv.levels_eq, exactWeight_boundaries]

variable {bytes : Bytes} {itemSize : ℕ} {v : ImageInfo}

/-- The length of the stream in a valid image is the weight of the levels cut off once, at the
largest word. So it is the weight just if the weight is a word, and any length below the largest
word is. -/
theorem n_eq_min_weight (h : ImageInfo.read bytes itemSize = .ok v) :
    v.n = min maxWord64 v.weight ∧ (v.n = v.weight ↔ v.weight ≤ maxWord64) ∧
      (v.n < maxWord64 → v.n = v.weight) := by
  obtain ⟨free, populations, hshape⟩ := exists_shape h
  have hcut : v.n = min maxWord64 v.weight := by
    rw [hshape.weight_eq]
    exact hshape.saturate_eq.symm
  refine ⟨hcut, ?_, ?_⟩ <;> omega

/-- A full compact image of three items in two levels. -/
theorem n_eq_min_weight_of_two_levels :
    ∃ (bytes : Bytes) (v : ImageInfo), ImageInfo.read bytes 4 = .ok v ∧ v.levels = [2, 3, 4] ∧
      v.n = 3 ∧ v.n = v.weight := by
  have hinfo : (ImageInfo.read #[5, 1, 15, 0, 2, 0, 2, 0, 3, 0, 0, 0, 0, 0, 0, 0, 2, 0, 2, 0,
      2, 0, 0, 0, 3, 0, 0, 0, 5, 0, 0, 0, 7, 0, 0, 0, 6, 0, 0, 0, 5, 0, 0, 0] 4).toOption.map
        (fun v => (v.levels, v.n)) = some ([2, 3, 4], 3) := by decide +kernel
  obtain ⟨v, hv, hinfo⟩ := Option.map_eq_some_iff.mp hinfo
  obtain ⟨hlevels, hn⟩ := Prod.mk.inj hinfo
  rw [toOption_eq_some_iff] at hv
  have hword : v.n < maxWord64 := by
    rw [hn]
    decide
  exact ⟨_, v, hv, hlevels, hn, (n_eq_min_weight hv).2.2 hword⟩

/-- A full compact image of 61 levels with 16 items, all of them in the top level. Their weight is
just above the largest word, which is the length that the image gives, and the image is valid. -/
theorem exists_weight_beyond_word :
    ∃ (bytes : Bytes) (v : ImageInfo), bytes.size = 336 ∧ ImageInfo.read bytes 4 = .ok v ∧
      v.n = 2 ^ 64 - 1 ∧ v.weight = 2 ^ 64 := by
  let image : List UInt8 := [5, 1, 15, 0, 2, 0, 2, 0] ++ List.replicate 8 255 ++ [2, 0, 61, 0] ++
    (List.replicate 61 [106, 0, 0, 0]).flatten ++ (List.replicate 18 [7, 0, 0, 0]).flatten
  have hinfo : (ImageInfo.read image.toArray 4).toOption.map (fun v => (v.n, v.levels)) =
      some (2 ^ 64 - 1, List.replicate 61 106 ++ [122]) := by decide +kernel
  obtain ⟨v, hv, hinfo⟩ := Option.map_eq_some_iff.mp hinfo
  obtain ⟨hn, hlevels⟩ := Prod.mk.inj hinfo
  refine ⟨image.toArray, v, by decide +kernel, toOption_eq_some_iff.mp hv, hn, ?_⟩
  rw [weight, numLevels, hlevels]
  decide +kernel

end ImageInfo

/-! ### The length of the stream and the flag of an empty sketch -/

/-- Outside the updatable layout the flag tells empty images from all others. -/
lemma Format.Describes.isEmpty_header_iff {bytes : Bytes} {itemSize : ℕ} {c : Contents}
    (hc : Format.Describes bytes itemSize c) (hlayout : c.layout ≠ .updatable) :
    (Header.of bytes).isEmpty = true ↔ c.layout = .emptyCompact := by
  rw [Format.isEmpty_header_eq_true_iff]
  cases hc with
  | empty _ _ hflag => simp [hflag]
  | single _ _ hflag => simp [hflag]
  | full _ _ hflag => simp [hflag]
  | updatable => exact absurd rfl hlayout

namespace Sketch

variable {α : Type} [Item α] {bytes : Bytes} {v : ImageInfo}

/-- The sketch in a valid image is empty just if the length of the stream is none. The flag tells
empty images from all others, unless the image is updatable. So the flag agrees with the length and
with the sketch if the image is not updatable and a full one does not have the length none. -/
theorem isEmpty_of_read (hv : ImageInfo.read bytes (Item.width α) = .ok v) :
    ∃ s : Sketch α, read bytes = .ok s ∧ (s.isEmpty = true ↔ v.n = 0) ∧
      (v.layout ≠ .updatable → (v.isEmpty = true ↔ v.layout = .emptyCompact)) ∧
      (v.layout ≠ .updatable → (v.layout = .fullCompact → v.n ≠ 0) →
        (v.isEmpty = true ↔ v.n = 0) ∧ s.isEmpty = v.isEmpty) := by
  obtain ⟨-, hheader, hdescribes, -⟩ :=
    (ImageInfo.read_eq_ok_iff_describes Item.isItemWidth).mp hv
  obtain ⟨free, populations, hshape⟩ := ImageInfo.exists_shape hv
  have hsketch : (sketchOf v bytes : Sketch α).isEmpty = true ↔ v.n = 0 := beq_iff_eq
  have hflag (hlayout : v.layout ≠ .updatable) :
      v.isEmpty = true ↔ v.layout = .emptyCompact := by
    rw [hheader]
    exact hdescribes.isEmpty_header_iff hlayout
  refine ⟨sketchOf v bytes, read_eq_ok hv, hsketch, hflag, ?_⟩
  intro hlayout hfull
  have hlength : v.layout = .emptyCompact ↔ v.n = 0 := by
    refine ⟨hshape.n_eq_zero, fun hn => ?_⟩
    cases hcase : v.layout with
    | emptyCompact => rfl
    | singleCompact => simp [hshape.n_eq_one hcase] at hn
    | fullCompact => exact absurd hn (hfull hcase)
    | updatable => exact absurd hcase hlayout
  have hagree := (hflag hlayout).trans hlength
  exact ⟨hagree, Bool.eq_iff_iff.mpr (hsketch.trans hagree.symm)⟩

/-- A single item image and the sketch in it. -/
theorem isEmpty_of_read_single :
    ∃ (image : Bytes) (v : ImageInfo) (s : Sketch Int32), ImageInfo.read image 4 = .ok v ∧
      v.layout = .singleCompact ∧ v.n = 1 ∧ read image = .ok s ∧ s.isEmpty = v.isEmpty := by
  let image : Bytes := #[2, 2, 15, 0, 8, 0, 8, 0, 5, 0, 0, 0]
  have hinfo : (ImageInfo.read image 4).toOption.map (fun v => (v.layout, v.n)) =
      some (.singleCompact, 1) := by decide +kernel
  obtain ⟨v, hv, hinfo⟩ := Option.map_eq_some_iff.mp hinfo
  obtain ⟨hlayout, hn⟩ := Prod.mk.inj hinfo
  rw [toOption_eq_some_iff] at hv
  obtain ⟨s, hs, -, -, hagree⟩ := isEmpty_of_read (α := Int32) hv
  refine ⟨image, v, s, hv, hlayout, hn, hs, (hagree ?_ ?_).2⟩
  · simp [hlayout]
  · simp [hlayout]

/-- An updatable image of a stream with one item in which the flag of an empty sketch is set, and a
full compact image of an empty stream in which it is not. Both are valid, and in both the flag
contradicts the length and the sketch that is read. -/
theorem exists_flag_against_length :
    ∃ (updatable full : Bytes) (v w : ImageInfo) (s t : Sketch Int32),
      (ImageInfo.read updatable 4 = .ok v ∧ v.layout = .updatable ∧ v.isEmpty = true ∧ v.n = 1 ∧
        read updatable = .ok s ∧ s.isEmpty = false) ∧
      (ImageInfo.read full 4 = .ok w ∧ w.layout = .fullCompact ∧ w.isEmpty = false ∧ w.n = 0 ∧
        read full = .ok t ∧ t.isEmpty = true) := by
  let updatable : Bytes := #[5, 3, 15, 1, 2, 0, 2, 0, 1, 0, 0, 0, 0, 0, 0, 0, 2, 0, 1, 0,
    1, 0, 0, 0, 2, 0, 0, 0, 5, 0, 0, 0, 5, 0, 0, 0, 0, 0, 0, 0, 5, 0, 0, 0]
  let full : Bytes := #[5, 1, 15, 0, 2, 0, 2, 0, 0, 0, 0, 0, 0, 0, 0, 0, 2, 0, 1, 0,
    2, 0, 0, 0, 5, 0, 0, 0, 5, 0, 0, 0]
  have hupdatable : (ImageInfo.read updatable 4).toOption.map
      (fun v => (v.layout, v.isEmpty, v.n)) = some (.updatable, true, 1) := by decide +kernel
  have hfull : (ImageInfo.read full 4).toOption.map
      (fun v => (v.layout, v.isEmpty, v.n)) = some (.fullCompact, false, 0) := by decide +kernel
  have hnonempty : (read updatable).toOption.map (fun s : Sketch Int32 => s.isEmpty) =
      some false := by decide +kernel
  have hempty : (read full).toOption.map (fun s : Sketch Int32 => s.isEmpty) = some true := by
    decide +kernel
  simp only [Option.map_eq_some_iff, toOption_eq_some_iff, Prod.mk.injEq] at hupdatable hfull
  simp only [Option.map_eq_some_iff, toOption_eq_some_iff] at hnonempty hempty
  obtain ⟨v, hv, hlayout, hflag, hn⟩ := hupdatable
  obtain ⟨w, hw, hlayout', hflag', hn'⟩ := hfull
  obtain ⟨s, hs, hs'⟩ := hnonempty
  obtain ⟨t, ht, ht'⟩ := hempty
  exact ⟨updatable, full, v, w, s, t, ⟨hv, hlayout, hflag, hn, hs, hs'⟩,
    hw, hlayout', hflag', hn', ht, ht'⟩

end Sketch

end QuantileSketch
