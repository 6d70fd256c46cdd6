import QuantileSketch.Item.Integer
import QuantileSketch.Proofs.GrowthPlan
import QuantileSketch.Proofs.Images.CompactForm
import QuantileSketch.Proofs.Images.Decoding
import QuantileSketch.Proofs.Images.Overwriting
import QuantileSketch.Proofs.Reachable

/-!
# One size for each image

The size of an image is computed in several places: before the image is written, while it is
validated, and when growth is planned. For a well-formed sketch the first two agree with the number
of bytes that are written (`HasShape.size_image`, `HasShape.exists_info_of_image`), so that writing
into a buffer just needs this many bytes (`HasShape.serializeInto_of_le`). A plan tells the sizes of
the images of a sketch in which all levels are full (`GrowthPlan.sizes_eq`).
-/

namespace QuantileSketch

namespace Sketch

variable {α : Type} [Item α] {s : Sketch α} {free : ℕ} {populations : List ℕ} {updatable : Bool}

/-! ### Writing -/

/-- The compact image has the size that is computed. -/
lemma HasShape.length_compactBytes (hs : s.HasShape free populations) :
    s.compactBytes.length = s.imageSize false := by
  obtain hn | hn | hn : s.n = 0 ∨ s.n = 1 ∨ 2 ≤ s.n := by omega
  · rw [imageSize_false, hn, compactBytes_of_empty hn, length_header]
    rfl
  · obtain ⟨x, rest, -, himage⟩ := hs.compactBytes_of_single hn
    rw [imageSize_false, hn, himage, List.length_append, length_header, Item.length_encode]
    rfl
  · rw [imageSize_false, compactSize_of_several hn, compactBytes_of_several hn, longBytes,
      length_header_append_body, hs.length_dropLast, hs.size_retained]

/-- Each image has the size that is computed. -/
theorem HasShape.size_image (hs : s.HasShape free populations) (updatable : Bool) :
    (s.image updatable).size = s.imageSize updatable := by
  cases updatable with
  | false => exact hs.length_compactBytes
  | true => exact hs.length_updatableBytes

/-- The compact image is no longer than the updatable one. -/
lemma HasShape.imageSize_le (hs : s.HasShape free populations) (updatable : Bool) :
    s.imageSize updatable ≤ s.imageSize true := by
  cases updatable with
  | false =>
    refine (compactSize_le_fullImageSize _ _ _ _).trans ?_
    rw [imageSize_true, updatableSize]
    refine fullImageSize_mono _ (Nat.le_succ _) ?_
    rw [hs.numRetained_eq, hs.capacity_eq]
    exact Nat.le_add_left _ _
  | true => exact le_rfl

/-- The size of an image is a word. -/
lemma HasShape.serializedSize_eq_ok (hs : s.HasShape free populations) (updatable : Bool) :
    serializedSize s.n s.numLevels s.capacity s.numRetained (Item.width α) updatable =
      .ok (s.imageSize updatable) :=
  fitWord_eq_ok_iff.mpr
    ⟨((hs.imageSize_le updatable).trans_lt hs.imageSize_lt).trans (by decide), rfl⟩

/-- A buffer that is long enough begins with the image afterwards, and the rest is as before. -/
theorem HasShape.serializeInto_of_le {buffer : Bytes} (hs : s.HasShape free populations)
    (h : s.imageSize updatable ≤ buffer.size) :
    s.serializeInto buffer updatable =
      (s.image updatable ++ buffer.extract (s.imageSize updatable) buffer.size,
        .ok (s.imageSize updatable)) := by
  have hlength : (s.image updatable).toList.length = s.imageSize updatable :=
    hs.size_image updatable
  have hrest : overwrite buffer 0 (s.image updatable).toList =
      s.image updatable ++ buffer.extract (s.imageSize updatable) buffer.size := by
    rw [overwrite_zero (hlength.trans_le h), hlength]
    apply Array.toList_inj.mp
    simp [List.extract_eq_take_drop]
  rw [serializeInto, if_neg (not_lt.mpr h), if_neg (not_not.mpr hlength), hrest]

/-- A buffer that is too short is left as it is. -/
lemma serializeInto_of_lt {buffer : Bytes} (h : buffer.size < s.imageSize updatable) :
    s.serializeInto buffer updatable =
      (buffer,
        .error (.refused (Cause.shortBuffer (s.imageSize updatable) buffer.size).error)) :=
  if_pos h

/-! ### Validating -/

/-- The compact image is valid, and validating it finds the size that is computed. -/
lemma HasShape.exists_info_of_compactImage (hs : s.HasShape free populations) :
    ∃ v, ImageInfo.read s.compactImage (Item.width α) = .ok v ∧ v.size = s.imageSize false := by
  obtain hn | hn | hn : s.n = 0 ∨ s.n = 1 ∨ 2 ≤ s.n := by omega
  · have himage : s.compactImage =
        (s.header Format.shortPreamble Format.compactVersion ++ []).toArray := by
      rw [compactImage, compactBytes_of_empty hn, List.append_nil]
    refine ⟨_, hs.read_info_eq_ok (by decide) (by decide) himage
      (read_emptyContents hn himage), ?_⟩
    rw [imageSize_false, hn]
    rfl
  · obtain ⟨x, rest, -, hbytes⟩ := hs.compactBytes_of_single hn
    have himage : s.compactImage = (s.header Format.shortPreamble Format.singleVersion ++
        (Item.encode x ++ [])).toArray := by
      rw [compactImage, hbytes, List.append_nil]
    refine ⟨_, hs.read_info_eq_ok (by decide) (by decide) himage
      (read_singleContents hn himage), ?_⟩
    rw [imageSize_false, hn]
    rfl
  · have himage : s.compactImage =
        (s.longBytes Format.compactVersion s.levels.dropLast s.retained ++ []).toArray := by
      rw [compactImage, compactBytes_of_several hn, List.append_nil]
    refine ⟨_, hs.read_info_eq_ok (by decide) (by decide)
      (himage.trans (congrArg List.toArray (List.append_assoc _ _ _)))
      (hs.read_fullContents himage hn), ?_⟩
    rw [imageSize_false, compactSize_of_several hn]
    rfl

/-- Each image is valid, and validating it finds the size that is computed. -/
theorem HasShape.exists_info_of_image (hs : s.HasShape free populations) (updatable : Bool) :
    ∃ v, ImageInfo.read (s.image updatable) (Item.width α) = .ok v ∧
      v.size = s.imageSize updatable := by
  cases updatable with
  | false => exact hs.exists_info_of_compactImage
  | true =>
    have himage : s.updatableImage = (s.updatableBytes ++ []).toArray := by
      rw [updatableImage, List.append_nil]
    exact ⟨s.info, read_info_of_updatableBytes hs himage, rfl⟩

end Sketch

/-! ### Planning -/

/-- A plan tells the sizes of both images of a sketch with all levels full. -/
theorem GrowthPlan.sizes_eq {k m n itemSize : ℕ} {plan : GrowthPlan}
    (h : (growthPlan k m n itemSize).2 = .ok plan) :
    ∃ capacity, totalItemCapacity k m plan.numLevels = .ok capacity ∧
      ∀ length, 1 < length →
        serializedSize length plan.numLevels capacity capacity itemSize false =
            .ok plan.compactBytes ∧
          serializedSize length plan.numLevels capacity capacity itemSize true =
            .ok plan.updatableBytes := by
  obtain ⟨enough, -, hmax, rfl, -, -, hfits⟩ := exists_growthPlan_eq h
  refine ⟨_, totalItemCapacity_eq_ok (parametersValid_of_growthPlan h) hmax, ?_⟩
  intro length hlength
  have hcompact : imageSize length enough (totalCapacity k m enough) (totalCapacity k m enough)
      itemSize false = fullImageSize enough (totalCapacity k m enough) itemSize :=
    Sketch.compactSize_of_several hlength _ _ _
  have hshorter : fullImageSize enough (totalCapacity k m enough) itemSize < wordBound 64 :=
    lt_of_le_of_lt (Sketch.fullImageSize_mono itemSize (Nat.le_succ enough) le_rfl) hfits
  exact ⟨fitWord_eq_ok_iff.mpr ⟨hcompact.trans_lt hshorter, hcompact⟩,
    fitWord_eq_ok_iff.mpr ⟨hfits, rfl⟩⟩

/-! ### Agreement -/

namespace Session

/-- All computations of a size agree. For a reachable sketch and either form of its image there is
one size, which is a word: it is computed before writing, it is the number of bytes that are
written, and validating the image finds it. Writing to a buffer succeeds exactly if the buffer has
this size or a larger one. Then the buffer is the image, followed by what stood behind it before,
and otherwise it is left as it is. A plan tells the sizes of the images of a sketch in which all
levels are full. -/
theorem image_sizes_agree {γ α : Type} [Coin γ] [Item α] :
    (∀ r : Session γ α, r.Reachable → ∀ updatable : Bool, ∃ size,
      r.sketch.imageSize updatable = size ∧
      serializedSize r.sketch.n r.sketch.numLevels r.sketch.capacity r.sketch.numRetained
        (Item.width α) updatable = .ok size ∧
      (r.sketch.image updatable).size = size ∧
      (∃ v, ImageInfo.read (r.sketch.image updatable) (Item.width α) = .ok v ∧ v.size = size) ∧
      ∀ buffer : Bytes,
        (size ≤ buffer.size → r.sketch.serializeInto buffer updatable =
          (r.sketch.image updatable ++ buffer.extract size buffer.size, .ok size)) ∧
        (buffer.size < size → ∃ error, error.kind = .bufferTooSmall ∧
          r.sketch.serializeInto buffer updatable = (buffer, .error (.refused error)))) ∧
    ∀ (k m n itemSize : ℕ) (plan : GrowthPlan), (growthPlan k m n itemSize).2 = .ok plan →
      ∃ capacity, totalItemCapacity k m plan.numLevels = .ok capacity ∧
        ∀ length, 1 < length →
          serializedSize length plan.numLevels capacity capacity itemSize false =
              .ok plan.compactBytes ∧
            serializedSize length plan.numLevels capacity capacity itemSize true =
              .ok plan.updatableBytes := by
  refine ⟨?_, fun k m n itemSize plan h => GrowthPlan.sizes_eq h⟩
  intro r hr updatable
  obtain ⟨free, populations, hs⟩ := hr.wellFormed
  refine ⟨_, rfl, hs.serializedSize_eq_ok updatable, hs.size_image updatable,
    hs.exists_info_of_image updatable, ?_⟩
  intro buffer
  exact ⟨hs.serializeInto_of_le, fun h => ⟨_, rfl, Sketch.serializeInto_of_lt h⟩⟩

/-- Five items are fed to the sketch in an empty image with four slots at first. Its updatable image
has two levels with seven slots and takes 68 bytes, and the last two bytes of a buffer of 70 stay.
For fourteen items three levels are planned, with nine slots. -/
theorem image_sizes_agree_of_five_items :
    ∃ (r : Session Xorshift Int32) (plan : GrowthPlan),
      r.Reachable ∧ (r.sketch.image true).size = 68 ∧
      r.sketch.serializeInto (Array.replicate 70 9) true =
        (r.sketch.image true ++ #[9, 9], .ok 68) ∧
      (growthPlan 4 2 14 4).2 = .ok plan ∧
      serializedSize 14 3 9 9 4 false = .ok plan.compactBytes := by
  have hfed : ((Sketch.read #[2, 1, 15, 1, 4, 0, 2, 0]).toOption.bind fun s : Sketch Int32 =>
      performAll ([5, 7, 6, 8, 1].map .update) (begin s (Xorshift.ofSeed 1))).map
        (fun r => r.sketch.imageSize true) = some 68 := by decide +kernel
  have hplanned : (growthPlan 4 2 14 4).2.toOption.map (fun plan => plan.numLevels) = some 3 := by
    decide +kernel
  obtain ⟨r, hr, hsize⟩ := Option.map_eq_some_iff.mp hfed
  obtain ⟨s, hs, hr⟩ := Option.bind_eq_some_iff.mp hr
  obtain ⟨plan, hplan, hlevels⟩ := Option.map_eq_some_iff.mp hplanned
  rw [toOption_eq_some_iff] at hs hplan
  have hreachable : r.Reachable := ⟨s, _, _, .read hs, run_of_performAll hr⟩
  obtain ⟨hsketches, hplans⟩ := @image_sizes_agree Xorshift Int32 _ _
  obtain ⟨size, hsize', -, himage, -, hbuffer⟩ := hsketches r hreachable true
  obtain rfl : size = 68 := hsize'.symm.trans hsize
  have hwritten := (hbuffer (Array.replicate 70 9)).1 (by decide)
  have hrest : (Array.replicate 70 (9 : UInt8)).extract 68 (Array.replicate 70 (9 : UInt8)).size =
      #[9, 9] := by decide
  rw [hrest] at hwritten
  obtain ⟨capacity, hcapacity, hsizes⟩ := hplans 4 2 14 4 plan hplan
  rw [hlevels] at hcapacity hsizes
  have hnine : totalItemCapacity 4 2 3 = .ok 9 := by decide +kernel
  obtain rfl : capacity = 9 := Except.ok.inj (hcapacity.symm.trans hnine)
  exact ⟨r, plan, hreachable, himage, hwritten, hplan, (hsizes 14 (by decide)).1⟩

end Session

end QuantileSketch
