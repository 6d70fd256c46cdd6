import QuantileSketch.Proofs.Images.Validation

/-!
# Opening images

A valid image of any layout describes a shape (`ImageInfo.HasShape`, `ImageInfo.exists_shape`), and
the sketch that is read from it has this shape (`ofImage_shape`). So every sketch that is read from
some bytes is well formed, wherever the bytes came from.
-/

namespace QuantileSketch

/-- An image of a sketch with `free` free slots whose levels have the given numbers of items. -/
structure ImageInfo.HasShape (v : ImageInfo) (free : ℕ) (populations : List ℕ) : Prop where
  parameters : ParametersValid v.k v.m
  m_le_minK : v.m ≤ v.minK
  minK_le_k : v.minK ≤ v.k
  levels_eq : v.levels = boundaries free populations
  length_pos : 1 ≤ populations.length
  length_le : populations.length ≤ maxLevels
  room_eq : free + populations.sum = totalCapacity v.k v.m populations.length
  saturate_eq : saturate (totalWeight populations) = v.n
  /-- Only the layout of empty sketches leaves out the extremes. -/
  n_eq_zero : v.layout = .emptyCompact → v.n = 0
  /-- Only the layout of single items has no place for the extremes. -/
  n_eq_one : v.layout = .singleCompact → v.n = 1

/-- The shape of boundaries that do not decrease and end at the total capacity. -/
lemma exists_shape_of_levels {k m n numLevels : ℕ} {levels : List ℕ}
    (hlength : levels.length = numLevels + 1) (hmonotone : levels.Pairwise (· ≤ ·))
    (hcapacity : levels.getLastD 0 = totalCapacity k m numLevels)
    (hweight : sampleWeight numLevels levels = .ok n) :
    ∃ free populations, levels = boundaries free populations ∧ populations.length = numLevels ∧
      free + populations.sum = totalCapacity k m numLevels ∧
      saturate (totalWeight populations) = n := by
  obtain ⟨free, rest, rfl⟩ := List.exists_cons_of_length_eq_add_one hlength
  obtain ⟨populations, hlevels⟩ := exists_boundaries hmonotone
  rw [hlevels] at hlength hcapacity hweight
  rw [length_boundaries, Nat.add_right_cancel_iff] at hlength
  rw [← hlength, sampleWeight_boundaries, Except.ok.injEq] at hweight
  rw [getLastD_boundaries] at hcapacity
  exact ⟨free, populations, hlevels, hlength, hcapacity, hweight⟩

/-- The shape of a longer image. -/
lemma ImageInfo.exists_shape_of_extension {v : ImageInfo} {extension : Contents.Extension}
    (hparameters : ParametersValid v.k v.m) (hrange : extension.InRange v.toHeader)
    (hminK : v.minK = extension.minK) (hlength : v.levels.length = extension.numLevels + 1)
    (hmonotone : v.levels.Pairwise (· ≤ ·))
    (hcapacity : v.levels.getLastD 0 = totalCapacity v.k v.m extension.numLevels)
    (hweight : sampleWeight extension.numLevels v.levels = .ok v.n)
    (hlayout : v.layout = .fullCompact ∨ v.layout = .updatable) :
    ∃ free populations, v.HasShape free populations := by
  obtain ⟨free, populations, hlevels, hnumLevels, hroom, hsaturate⟩ :=
    exists_shape_of_levels hlength hmonotone hcapacity hweight
  exact ⟨free, populations, {
    parameters := hparameters
    m_le_minK := hminK ▸ hrange.m_le_minK
    minK_le_k := hminK ▸ hrange.minK_le_k
    levels_eq := hlevels
    length_pos := hnumLevels ▸ hrange.numLevels_pos
    length_le := hnumLevels ▸ hrange.numLevels_le
    room_eq := by rw [hroom, hnumLevels]
    saturate_eq := hsaturate
    n_eq_zero := fun hempty => by rw [hempty] at hlayout; simp at hlayout
    n_eq_one := fun hsingle => by rw [hsingle] at hlayout; simp at hlayout }⟩

/-- Reading an image reads the shared preamble and then the rest, and the image is all there. -/
lemma ImageInfo.read_eq_ok_iff {bytes : Bytes} {itemSize : ℕ} {v : ImageInfo} :
    ImageInfo.read bytes itemSize = .ok v ↔
      Header.read bytes = .ok v.toHeader ∧
        Contents.read v.toHeader bytes itemSize = .ok v.toContents ∧ v.size ≤ bytes.size := by
  simp only [ImageInfo.read, bind_eq_ok_iff, liftRefusal_eq_ok_iff, checkSize,
    Cause.unless_eq_ok_iff, pure_eq_ok_iff, exists_const]
  constructor
  · rintro ⟨header, hheader, contents, hcontents, hsize, rfl⟩
    exact ⟨hheader, hcontents, hsize⟩
  · rintro ⟨hheader, hcontents, hsize⟩
    exact ⟨_, hheader, _, hcontents, hsize, rfl⟩

/-- A valid image describes a shape. -/
theorem ImageInfo.exists_shape {bytes : Bytes} {itemSize : ℕ} {v : ImageInfo}
    (h : ImageInfo.read bytes itemSize = .ok v) :
    ∃ free populations, v.HasShape free populations := by
  obtain ⟨hheader, hcontents, -⟩ := ImageInfo.read_eq_ok_iff.mp h
  obtain ⟨-, -, -, hparameters⟩ := Header.read_eq_ok_iff.mp hheader
  obtain ⟨header, contents⟩ := v
  change ParametersValid header.k header.m at hparameters
  change Contents.read header bytes itemSize = .ok contents at hcontents
  unfold Contents.read at hcontents
  split at hcontents
  · -- the updatable layout
    obtain ⟨-, hrange, -, hmonotone, hcapacity, hweight, -, rfl⟩ :=
      (Contents.readUpdatable_eq_ok_iff hparameters).mp hcontents
    exact exists_shape_of_extension hparameters hrange rfl (Bytes.length_offsets _ _ _) hmonotone
      hcapacity hweight (.inr rfl)
  split at hcontents
  · cases hcontents
  · -- the full compact layout, in which the total capacity is put behind the boundaries
    obtain ⟨-, -, hrange, -, hmonotone, hweight, -, rfl⟩ :=
      (Contents.readFull_eq_ok_iff hparameters).mp hcontents
    refine exists_shape_of_extension hparameters hrange rfl ?_ hmonotone ?_ hweight (.inl rfl)
    · rw [Contents.full, Contents.fullLevels, List.length_append, Bytes.length_offsets,
        List.length_singleton]
    · exact List.getLastD_concat
  · obtain ⟨-, -, rfl⟩ := Contents.readEmpty_eq_ok_iff.mp hcontents
    exact ⟨header.k, [0], hparameters, hparameters.m_le_k, Nat.le_refl _, rfl, Nat.le_refl 1,
      by decide, (totalCapacity_one hparameters.m_le_k).symm, rfl, fun _ => rfl, by simp⟩
  · obtain ⟨-, -, rfl⟩ := Contents.readSingle_eq_ok_iff.mp hcontents
    have hpos : 0 < header.k :=
      Nat.lt_of_lt_of_le (by decide) (hparameters.leastM_le.trans hparameters.m_le_k)
    have hk : header.k - 1 + 1 = header.k := Nat.sub_add_cancel hpos
    refine ⟨header.k - 1, [1], hparameters, hparameters.m_le_k, Nat.le_refl _, ?_, Nat.le_refl 1,
      by decide, ?_, rfl, by simp, fun _ => rfl⟩
    · rw [boundaries, boundaries, hk]
    · exact hk.trans (totalCapacity_one hparameters.m_le_k).symm

namespace Sketch

variable {α : Type} [Item α]

/-- The slots of an image of any layout, and whether it has extremes. -/
lemma readData_shape {v : ImageInfo} {bytes : Bytes} {extremes : Option (Extremes α)}
    {items : Array α} {free : ℕ} {populations : List ℕ} (hv : v.HasShape free populations)
    (h : readData v bytes = .ok (extremes, items)) :
    items.size = free + populations.sum ∧ extremes.isSome = decide (0 < v.n) := by
  have hcapacity : v.levels.getLastD 0 = free + populations.sum := by
    rw [hv.levels_eq, getLastD_boundaries]
  have hfree : v.levels.headD 0 = free := by
    rw [hv.levels_eq, headD_boundaries]
  have hextremes (e : Extremes α) :
      (if v.n = 0 then none else some e).isSome = decide (0 < v.n) := by
    rcases Nat.eq_zero_or_pos v.n with hn | hn
    · rw [if_pos hn, hn]
      rfl
    · rw [if_neg hn.ne', decide_eq_true hn]
      rfl
  unfold readData at h
  dsimp only at h
  rw [hcapacity, hfree] at h
  split at h
  · rename_i hlayout
    obtain ⟨rfl, rfl⟩ := Prod.mk.inj (pure_eq_ok_iff.mp h)
    exact ⟨Array.size_replicate, by rw [hv.n_eq_zero hlayout]; rfl⟩
  · rename_i hlayout
    obtain ⟨x, -, h⟩ := bind_eq_ok_iff.mp h
    obtain ⟨slot, -, h⟩ := bind_eq_ok_iff.mp h
    obtain ⟨rfl, rfl⟩ := Prod.mk.inj (pure_eq_ok_iff.mp h)
    refine ⟨?_, by rw [hv.n_eq_one hlayout]; rfl⟩
    rw [Array.size_setIfInBounds, Array.size_replicate]
  · obtain ⟨e, -, h⟩ := bind_eq_ok_iff.mp h
    obtain ⟨retained, hretained, h⟩ := bind_eq_ok_iff.mp h
    obtain ⟨items', hitems, h⟩ := bind_eq_ok_iff.mp h
    obtain ⟨rfl, rfl⟩ := Prod.mk.inj (pure_eq_ok_iff.mp h)
    obtain ⟨-, rfl⟩ := subWord_eq_ok_iff.mp (liftAbort_eq_ok_iff.mp hretained)
    refine ⟨?_, hextremes e⟩
    rw [size_readItems (liftRefusal_eq_ok_iff.mp hitems), Array.size_replicate,
      Nat.add_sub_cancel_left]
  · obtain ⟨e, -, h⟩ := bind_eq_ok_iff.mp h
    obtain ⟨items', hitems, h⟩ := bind_eq_ok_iff.mp h
    obtain ⟨rfl, rfl⟩ := Prod.mk.inj (pure_eq_ok_iff.mp h)
    refine ⟨?_, hextremes e⟩
    rw [size_readItems (liftRefusal_eq_ok_iff.mp hitems), Array.size_empty, Nat.zero_add]

/-- The sketch that an image and its data make. -/
def ofData (v : ImageInfo) (extremes : Option (Extremes α)) (items : Array α) : Sketch α where
  k := v.k
  m := v.m
  minK := v.minK
  n := v.n
  levels := v.levels
  items := items
  extremes := extremes
  levelZeroSorted := v.levelZeroSorted
  readOnly := false
  backing := none

/-- A sketch is read from a valid image if its data can be read and its levels end where they have
to. -/
lemma ofImage_eq_ok_iff {v : ImageInfo} {bytes : Bytes} {s : Sketch α} :
    ofImage v bytes = .ok s ↔
      ∃ extremes items, readData v bytes = .ok (extremes, items) ∧
        totalItemCapacity v.k v.m v.numLevels = .ok (v.levels.getLastD 0) ∧
        ofData v extremes items = s := by
  simp only [ofImage, bind_eq_ok_iff, liftAbort_eq_ok_iff, require_eq_ok_iff, pure_eq_ok_iff,
    exists_const, Prod.exists]
  constructor
  · rintro ⟨extremes, items, hdata, _, hcapacity, rfl, hs⟩
    exact ⟨extremes, items, hdata, hcapacity, hs⟩
  · rintro ⟨extremes, items, hdata, hcapacity, hs⟩
    exact ⟨extremes, items, hdata, _, hcapacity, rfl, hs⟩

/-- A sketch that is read from a valid image has the shape of the image. -/
theorem ofImage_shape {v : ImageInfo} {bytes : Bytes} {s : Sketch α} {free : ℕ}
    {populations : List ℕ} (hv : v.HasShape free populations) (h : ofImage v bytes = .ok s) :
    s.HasShape free populations := by
  obtain ⟨extremes, items, hdata, -, rfl⟩ := ofImage_eq_ok_iff.mp h
  obtain ⟨hsize, hextremes⟩ := readData_shape hv hdata
  exact ⟨hv.parameters, hv.m_le_minK, hv.minK_le_k, hv.levels_eq, hv.length_pos, hv.length_le,
    hv.room_eq, hsize, hv.saturate_eq, hextremes⟩

/-- A sketch that is read from some bytes has no region. -/
lemma read_backing {bytes : Bytes} {s : Sketch α} (h : read bytes = .ok s) : s.backing = none := by
  obtain ⟨v, -, h⟩ := bind_eq_ok_iff.mp h
  obtain ⟨extremes, items, -, -, rfl⟩ := ofImage_eq_ok_iff.mp h
  rfl

/-- A sketch that is read may change. -/
lemma read_readOnly {bytes : Bytes} {s : Sketch α} (h : read bytes = .ok s) :
    s.readOnly = false := by
  obtain ⟨v, -, h⟩ := bind_eq_ok_iff.mp h
  obtain ⟨extremes, items, -, -, rfl⟩ := ofImage_eq_ok_iff.mp h
  rfl

/-- A sketch that is read from some bytes is well formed. -/
theorem read_wellFormed {bytes : Bytes} {s : Sketch α} (h : read bytes = .ok s) :
    s.WellFormed := by
  obtain ⟨v, hv, h⟩ := bind_eq_ok_iff.mp h
  obtain ⟨free, populations, hshape⟩ := ImageInfo.exists_shape hv
  exact ⟨free, populations, ofImage_shape hshape h⟩

/-- A sketch that is opened for working in its region, told by the image in the region. -/
lemma wrapInRegion_eq_ok_iff {region : Bytes} {server : RegionServer} {s : Sketch α} :
    wrapInRegion region server = .ok s ↔
      ∃ v s', ImageInfo.read region (Item.width α) = .ok v ∧ v.layout = .updatable ∧
        ofImage v region = .ok s' ∧ s = { s' with backing := some { region, server } } := by
  simp only [wrapInRegion, bind_eq_ok_iff, liftRefusal_eq_ok_iff, Cause.unless_eq_ok_iff,
    pure_eq_ok_iff, exists_const]
  constructor
  · rintro ⟨v, hv, hlayout, s', hs', rfl⟩
    exact ⟨v, s', hv, hlayout, hs', rfl⟩
  · rintro ⟨v, s', hv, hlayout, hs', rfl⟩
    exact ⟨v, hv, hlayout, s', hs', rfl⟩

end Sketch

end QuantileSketch
