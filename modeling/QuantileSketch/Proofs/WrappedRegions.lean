import QuantileSketch.Proofs.CurrentImage
import QuantileSketch.Proofs.Servers

/-!
# Regions that are opened

A sketch can be opened in a region whose bytes it would not have written itself. An insertion then
writes a few fields only, and the rest of the region keeps its bytes, whatever they are. Still the
sketch can be read from its region all the time: each field that reading looks at is either written
by the insertion or the same before and after (`LegibleIn.inserted`). Whenever the whole image is
written the region begins with the image anyway. `Run.region_legible` says this of all runs of a
sketch that is opened in a region.
-/

namespace QuantileSketch

namespace Sketch

variable {α : Type} [Item α]

/-! ### Fields that an insertion writes -/

section

variable {s : Sketch α} {region : Bytes} {x : α} {slot pos width : ℕ}

/-- The fields that an insertion writes stand one behind the other. -/
lemma inOrder_insertionFields
    (h : ∀ field ∈ s.insertionFields slot x, field.1 + field.2.length ≤ region.size) :
    Bytes.InOrder (s.insertionFields slot x) region := by
  refine ⟨?_, h⟩
  simp only [insertionFields, List.pairwise_cons, List.forall_mem_cons, List.not_mem_nil,
    List.Pairwise.nil, false_imp_iff, implies_true, and_true, length_littleEndian,
    List.length_append, Item.length_encode, Format.flagsAt, Format.nAt, Format.dataAt, offsetBytes]
  omega

/-- An insertion writes the extremes. -/
lemma extremes_mem_insertionFields (s : Sketch α) (slot : ℕ) (x : α) :
    (Format.dataAt + (s.numLevels + 1) * offsetBytes,
      Item.encode (Extremes.orFiller s.extremes).least ++
        Item.encode (Extremes.orFiller s.extremes).greatest) ∈ s.insertionFields slot x := by
  simp [insertionFields]

/-- An insertion writes the item into its slot. -/
lemma item_mem_insertionFields (s : Sketch α) (slot : ℕ) (x : α) :
    (Format.dataAt + (s.numLevels + 1) * offsetBytes + 2 * Item.width α + slot * Item.width α,
      Item.encode x) ∈ s.insertionFields slot x := by
  simp [insertionFields]

/-- A window between the fields that an insertion writes stays as it is. -/
lemma window_insertionFields
    (h : pos + width ≤ 3 ∨ (4 ≤ pos ∧ pos + width ≤ 8) ∨ (16 ≤ pos ∧ pos + width ≤ 20) ∨
      (24 ≤ pos ∧ pos + width ≤ Format.dataAt + (s.numLevels + 1) * offsetBytes) ∨
      (Format.dataAt + (s.numLevels + 1) * offsetBytes + 2 * Item.width α ≤ pos ∧
        Bytes.Apart pos width (Format.dataAt + (s.numLevels + 1) * offsetBytes +
          2 * Item.width α + slot * Item.width α, Item.encode x))) :
    Bytes.window (overwriteAll (s.insertionFields slot x) region) pos width =
      region.window pos width := by
  apply Bytes.window_overwriteAll_of_apart
  simp only [insertionFields, Bytes.Apart, List.forall_mem_cons, List.not_mem_nil, false_imp_iff,
    implies_true, and_true, length_littleEndian, List.length_append, Item.length_encode,
    Format.flagsAt, Format.nAt, Format.dataAt, offsetBytes] at h ⊢
  omega

/-- The item in a slot is apart from that in another one. -/
lemma apart_slot {i : ℕ} (h : i ≠ slot) (start : ℕ) :
    Bytes.Apart (start + i * Item.width α) (Item.width α)
      (start + slot * Item.width α, Item.encode x) := by
  rw [Bytes.Apart, Item.length_encode]
  rcases Nat.lt_or_gt_of_ne h with h | h
  · have hmul := Nat.mul_le_mul_right (Item.width α) (Nat.succ_le_of_lt h)
    rw [Nat.succ_mul] at hmul
    left
    dsimp only
    omega
  · have hmul := Nat.mul_le_mul_right (Item.width α) (Nat.succ_le_of_lt h)
    rw [Nat.succ_mul] at hmul
    right
    dsimp only
    omega

end

/-! ### What an insertion leaves legible -/

/-- A region in which the insertion of `x` has been written. -/
def patched (s : Sketch α) (x : α) (region : Bytes) : Bytes :=
  overwriteAll ((s.inserted x).insertionFields (s.inserted x).free x) region

/-- An insertion does not change the number of levels. -/
lemma numLevels_inserted (s : Sketch α) (x : α) : (s.inserted x).numLevels = s.numLevels := by
  simp [numLevels, inserted]

/-- An insertion does not change the fields of the preamble that stand between those it writes. -/
lemma field_patched (s : Sketch α) (x : α) (region : Bytes) (pos width : ℕ)
    (hgap : pos + width ≤ 3 ∨ (4 ≤ pos ∧ pos + width ≤ 8) ∨ (16 ≤ pos ∧ pos + width ≤ 20)) :
    (s.patched x region).field pos width = region.field pos width := by
  rw [Bytes.field, patched, window_insertionFields (by omega), Bytes.field]

section

variable {s : Sketch α} {region : Bytes} {x : α} {free : ℕ} {populations : List ℕ}
  (h : s.LegibleIn region) (hs : s.HasShape free populations)
  (hinsert : s.insert x = .ok (s.inserted x))
include h hs hinsert

/-- The fields of an insertion are written one behind the other inside the region. -/
lemma LegibleIn.inOrder :
    Bytes.InOrder ((s.inserted x).insertionFields (s.inserted x).free x) region := by
  have hsize := (hs.imageSize_inserted hinsert).trans_le h.imageSize_le
  obtain ⟨free', here, upper, rfl, rfl, -, hs'⟩ := hs.inserted hinsert
  exact inOrder_insertionFields fun field hfield =>
    (hs'.field_le_imageSize x field hfield).trans hsize

/-- The flags after an insertion. -/
lemma LegibleIn.flags_patched :
    (s.patched x region).field Format.flagsAt 1 = (s.inserted x).flags :=
  (h.inOrder hs hinsert).field_overwriteAll (by simp [insertionFields]) (flags_lt _)

omit hs hinsert in
/-- The shared preamble after an insertion. -/
lemma LegibleIn.header_patched :
    Header.of (s.patched x region) = ((s.inserted x).infoIn (s.patched x region)).toHeader := by
  obtain ⟨hwords, hversion, hfamily, -, hk, hm⟩ := Header.mk.inj h.header_eq
  rw [Header.of, field_patched s x region Format.preambleWordsAt 1 (by decide),
    field_patched s x region Format.versionAt 1 (by decide),
    field_patched s x region Format.familyAt 1 (by decide),
    field_patched s x region Format.kAt 2 (by decide),
    field_patched s x region Format.mAt 1 (by decide), hwords, hversion, hfamily, hk, hm]
  rfl

/-- The fields behind the shared preamble after an insertion. -/
lemma LegibleIn.extension_patched : Contents.Extension.of (s.patched x region) =
    ⟨(s.inserted x).n, (s.inserted x).minK, (s.inserted x).numLevels⟩ := by
  obtain ⟨hword, -⟩ := insert_eq_ok_iff.mp hinsert
  obtain ⟨-, hminK, hlevels⟩ := Contents.Extension.mk.inj h.extension_eq
  have hn : (s.patched x region).field Format.nAt 8 = (s.inserted x).n :=
    (h.inOrder hs hinsert).field_overwriteAll (by simp [insertionFields]) hword
  rw [Contents.Extension.of, hn, field_patched s x region Format.minKAt 2 (by decide),
    field_patched s x region Format.numLevelsAt 1 (by decide), hminK, hlevels, numLevels_inserted]
  rfl

/-- The boundaries after an insertion. -/
lemma LegibleIn.offsets_patched :
    (s.patched x region).offsets ((s.inserted x).numLevels + 1) Format.dataAt =
      (s.inserted x).levels := by
  have hfirst : (s.patched x region).field Format.dataAt offsetBytes = (s.inserted x).free := by
    refine (h.inOrder hs hinsert).field_overwriteAll (by simp [insertionFields]) ?_
    obtain ⟨_, _, _, -, -, -, hs'⟩ := hs.inserted hinsert
    exact hs'.free_eq.trans_lt ((Nat.le_add_right _ _).trans_lt hs'.room_lt)
  have hrest : (s.patched x region).offsets s.numLevels (Format.dataAt + offsetBytes) =
      region.offsets s.numLevels (Format.dataAt + offsetBytes) := by
    refine Bytes.offsets_ext fun i hi => ?_
    rw [Bytes.field, patched, window_insertionFields, Bytes.field]
    rw [numLevels_inserted, Format.dataAt, offsetBytes]
    omega
  have hlevels : s.levels.tail = region.offsets s.numLevels (Format.dataAt + offsetBytes) := by
    rw [← h.levels_eq]
    rfl
  rw [numLevels_inserted, Bytes.offsets, hfirst, hrest, ← hlevels]
  rfl

/-- The extremes after an insertion. -/
lemma LegibleIn.extremesOf_patched :
    extremesOf (s.patched x region)
      (Format.dataAt + ((s.inserted x).numLevels + 1) * offsetBytes) =
        Extremes.insert x s.extremes := by
  apply extremesOf_eq_of_window
  have hwindow := (h.inOrder hs hinsert).window_overwriteAll (extremes_mem_insertionFields _ _ _)
  rw [List.length_append, Item.length_encode, Item.length_encode, ← Nat.two_mul] at hwindow
  exact hwindow

/-- The items after an insertion. -/
lemma LegibleIn.itemList_patched :
    itemList (s.patched x region) (s.inserted x).capacity
      (Format.dataAt + ((s.inserted x).numLevels + 1) * offsetBytes + 2 * Item.width α) =
        (s.inserted x).items.toList := by
  have hcapacity : (s.inserted x).capacity = s.capacity := by
    obtain ⟨free', here, upper, rfl, rfl, -, hs'⟩ := hs.inserted hinsert
    rw [hs'.capacity_eq, hs.capacity_eq, List.sum_cons, List.sum_cons]
    omega
  have hitems : (s.inserted x).items.toList = s.items.toList.set (s.inserted x).free x :=
    Array.toList_setIfInBounds
  rw [hitems, ← h.items_eq, hcapacity, numLevels_inserted]
  apply itemList_set
  · have hwindow := (h.inOrder hs hinsert).window_overwriteAll (item_mem_insertionFields _ _ _)
    rw [Item.length_encode, numLevels_inserted] at hwindow
    exact hwindow
  · intro i hi
    refine window_insertionFields (.inr (.inr (.inr (.inr ⟨?_, ?_⟩))))
    · rw [numLevels_inserted]
      exact Nat.le_add_right _ _
    · rw [numLevels_inserted]
      exact apart_slot hi _

/-- If a sketch is legible in a region, the sketch after an insertion is legible there once the
fields that the insertion changes have been written. -/
theorem LegibleIn.inserted : (s.inserted x).LegibleIn (s.patched x region) := by
  refine ⟨h.header_patched, ?_, h.extension_patched hs hinsert, h.offsets_patched hs hinsert, ?_,
    h.itemList_patched hs hinsert, ?_⟩
  · rw [infoIn, h.flags_patched hs hinsert]
    exact levelZeroSorted_headerOf _ _ _
  · have hn : (Sketch.inserted x s).n ≠ 0 := Nat.succ_ne_zero s.n
    rw [if_neg hn, h.extremesOf_patched hs hinsert]
    rfl
  · rw [patched, size_overwriteAll]
    exact (hs.imageSize_inserted hinsert).trans_le h.imageSize_le

end

/-! ### What commands leave legible -/

/-- A sketch is legible in the region that it works in, if it has one. -/
def IsLegible (s : Sketch α) : Prop := ∀ b, s.backing = some b → s.LegibleIn b.region

variable {s s' : Sketch α}

/-- A well-formed sketch is legible in a region that begins with its image. -/
lemma IsCurrent.isLegible (h : s.IsCurrent) (hwf : s.WellFormed) : s.IsLegible := by
  obtain ⟨free, populations, hs⟩ := hwf
  intro b hb
  obtain ⟨tail, htail⟩ := h b hb
  exact legibleIn_of_updatableBytes hs htail

/-- Once an insertion has been written the sketch is still legible. -/
lemma IsLegible.writeInsertion {x : α} {between : Sketch α} (h : s.IsLegible) (hwf : s.WellFormed)
    (hinsert : s.insert x = .ok between) (hwrite : between.writeInsertion x = .ok s') :
    s'.IsLegible := by
  obtain ⟨free, populations, hs⟩ := hwf
  obtain ⟨-, -, -, -, rfl⟩ := insert_eq_ok_iff.mp hinsert
  intro b hb
  obtain ⟨hnone, rfl⟩ | ⟨b', hb', -, -, rfl⟩ := writeInsertion_eq_ok_iff.mp hwrite
  · rw [hnone] at hb
    cases hb
  · cases hb
    exact ((h b' hb').inserted hs hinsert).setBacking _

end Sketch

namespace Session

variable {γ α : Type} [Item α] {r r' : Session γ α}

/-- A refused command leaves the sketch legible. -/
lemma Unchanged.isLegible (h : r.Unchanged r') (hlegible : r.sketch.IsLegible) :
    r'.sketch.IsLegible := by
  rcases h.sketch_eq with hsketch | ⟨b, hb, hsketch⟩
  · rw [hsketch]
    exact hlegible
  · rw [hsketch]
    intro b' hb'
    cases hb'
    exact (hlegible b hb).setBacking _

variable [Coin γ]

/-- A command that is done leaves the sketch legible. -/
theorem perform_isLegible {c : Command α} (hwf : r.sketch.WellFormed)
    (hwf' : r'.sketch.WellFormed) (hlegible : r.sketch.IsLegible) (h : r.perform c = .done r') :
    r'.sketch.IsLegible := by
  rcases perform_written h with hsame | ⟨s, hsync⟩ | ⟨x, s, hinsert, hwrite⟩
  · rw [hsame]
    exact hlegible
  · exact (Sketch.isCurrent_of_sync hsync).isLegible hwf'
  · exact hlegible.writeInsertion hwf hinsert hwrite

/-- A run leaves the sketch legible. -/
theorem Run.isLegible {r₀ : Session γ α} {taken : List (Command α)} (h : r₀.Run taken r)
    (hwf : r₀.sketch.WellFormed) (hlegible : r₀.sketch.IsLegible) : r.sketch.IsLegible := by
  induction h with
  | start => exact hlegible
  | done run step ih =>
    exact perform_isLegible (run.wellFormed hwf) ((run.done step).wellFormed hwf) ih step
  | refused run step ih => exact (perform_eq_refused step).isLegible ih

/-- A sketch that is opened in a region can be read from its region after every command of a run,
whatever the region held that is not looked at, whatever the server hands out, and whether or not
commands were refused. The image there is updatable, and the sketch that is read has all fields of
the sketch in use, all slots and the extremes included, but may change and has no region. -/
theorem Run.region_legible {region : Bytes} {server : RegionServer} {s : Sketch α} {coin : γ}
    {taken : List (Command α)} (hs : Sketch.wrapInRegion region server = .ok s)
    (hrun : (begin s coin).Run taken r) :
    ∃ (current : Bytes) (v : ImageInfo), r.sketch.region? = some current ∧
      ImageInfo.read current (Item.width α) = .ok v ∧ v.layout = .updatable ∧
      Sketch.read current = .ok { r.sketch with readOnly := false, backing := none } := by
  have hwf : s.WellFormed := (Sketch.Opened.wrapInRegion hs).wellFormed
  have hbacking : s.backing = some { region, server } := by
    obtain ⟨v, s', -, -, -, rfl⟩ := Sketch.wrapInRegion_eq_ok_iff.mp hs
    rfl
  have hlegible : s.IsLegible := by
    intro b hb
    rw [hbacking, Option.some.injEq] at hb
    rw [← hb]
    exact Sketch.legibleIn_of_wrapInRegion hs
  -- the sketch never loses its region, because the server stays the same
  have hserver := hrun.server_eq hwf
  change r.sketch.backing.map Backing.server = s.backing.map Backing.server at hserver
  rw [hbacking, Option.map_some] at hserver
  obtain ⟨b, hb, -⟩ := Option.map_eq_some_iff.mp hserver
  obtain ⟨free, populations, hshape⟩ := hrun.wellFormed hwf
  have hread := hrun.isLegible hwf hlegible b hb
  refine ⟨b.region, _, ?_, hread.read_infoIn hshape, rfl, hread.read_eq_ok hshape⟩
  rw [Sketch.region?, hb, Option.map_some]

/-- A region in which the reserved bytes and all flags are set, the one of an empty sketch too. Two
items are fed, the second one after growth into a region that the server hands out full of other
bytes. -/
theorem region_legible_of_reserved_bytes :
    ∃ (r : Session Xorshift Int32) (current : Bytes) (t : Sketch Int32),
      r.sketch.region? = some current ∧ current.size = 59 ∧ Sketch.read current = .ok t ∧
        t.n = 3 ∧ t.levels = r.sketch.levels ∧ t.items = r.sketch.items ∧
        t.extremes = r.sketch.extremes := by
  let region : Bytes := #[5, 3, 15, 255, 2, 0, 2, 9, 1, 0, 0, 0, 0, 0, 0, 0, 2, 0, 1, 9,
    1, 0, 0, 0, 2, 0, 0, 0, 5, 0, 0, 0, 5, 0, 0, 0, 77, 77, 77, 77, 5, 0, 0, 0, 8, 8]
  let server : RegionServer := fun _ _ required => .ok (Array.replicate (required + 3) 170)
  have hrun : ((Sketch.wrapInRegion region server).toOption.bind fun s : Sketch Int32 =>
      performAll [.update 3, .update 9] (begin s (Xorshift.ofSeed 1))).map (fun r =>
        (r.sketch.n, r.sketch.region?.map Array.size)) = some (3, some 59) := by decide +kernel
  obtain ⟨r, hr, hstate⟩ := Option.map_eq_some_iff.mp hrun
  obtain ⟨s, hs, hr⟩ := Option.bind_eq_some_iff.mp hr
  obtain ⟨hn, hsize⟩ := Prod.mk.inj hstate
  obtain ⟨current, v, hcurrent, -, -, hread⟩ :=
    Run.region_legible (toOption_eq_some_iff.mp hs) (run_of_performAll hr)
  rw [hcurrent, Option.map_some, Option.some.injEq] at hsize
  exact ⟨r, current, _, hcurrent, hsize, hread, hn, rfl, rfl, rfl⟩

end Session

end QuantileSketch
