import QuantileSketch.Proofs.Images.Decoding
import QuantileSketch.Proofs.Images.Overwriting
import QuantileSketch.Proofs.Room

/-!
# The image in the region stays current

The region of a sketch begins with its updatable image after every command (`Sketch.IsCurrent`).
Commands that move many items write the whole image; an insertion writes the fields that it changes,
and these make the new image out of the old one.

Nothing is ever written behind the image, so that the rest of the region keeps its bytes until a
longer region takes its place (`Sketch.Keeps`). `Run.image_current` puts both together for all runs
of a sketch that starts in a region.
-/

namespace QuantileSketch

/-! ### Regions that were handed out -/

/-- A region of the size of one that the server has handed out. -/
def Backing.HandedOut (b : Backing) : Prop :=
  ∃ i < b.requests, ∃ old required answer, b.server i old required = .ok answer ∧
    answer.size = b.region.size

/-- Writing to a region keeps its size. -/
lemma Backing.HandedOut.setRegion {b : Backing} {region : Bytes} (h : b.HandedOut)
    (hsize : region.size = b.region.size) : (b.setRegion region).HandedOut := by
  obtain ⟨i, hi, old, required, answer, hanswer, heq⟩ := h
  exact ⟨i, hi, old, required, answer, hanswer, heq.trans hsize.symm⟩

/-- Another request does not change what was handed out before. -/
lemma Backing.HandedOut.asked {b : Backing} (h : b.HandedOut) : b.asked.HandedOut := by
  obtain ⟨i, hi, hanswer⟩ := h
  exact ⟨i, hi.trans (Nat.lt_succ_self _), hanswer⟩

namespace Sketch

variable {α : Type} [Item α]

/-- The region of a sketch, if it has one, begins with the updatable image. -/
def IsCurrent (s : Sketch α) : Prop :=
  ∀ b, s.backing = some b → ∃ tail, b.region = (s.updatableBytes ++ tail).toArray

/-- The sketch has a region. Its bytes behind the image are those of `initial`, unless a longer
region was handed out by the server. -/
def Keeps (initial : Bytes) (s : Sketch α) : Prop :=
  ∃ b, s.backing = some b ∧
    ((b.region.size = initial.size ∧
        ∀ i, s.imageSize true ≤ i → b.region[i]? = initial[i]?) ∨
      (initial.size < b.region.size ∧ b.HandedOut))

variable {s s' : Sketch α} {initial : Bytes}

/-- What is kept by a sketch with the same region whose image is not shorter. -/
lemma Keeps.mono (h : s.Keeps initial) (hbacking : s'.backing = s.backing)
    (hsize : s.imageSize true ≤ s'.imageSize true) : s'.Keeps initial := by
  obtain ⟨b, hb, hkept⟩ := h
  exact ⟨b, hbacking.trans hb,
    hkept.imp_left fun ⟨heq, hsame⟩ => ⟨heq, fun i hi => hsame i (hsize.trans hi)⟩⟩

/-- What is kept when bytes of the image are written. -/
lemma Keeps.setRegion {b : Backing} {region : Bytes} (hs : s.Keeps initial)
    (hb : s.backing = some b) (hsize : region.size = b.region.size)
    (hsame : ∀ i, s.imageSize true ≤ i → region[i]? = b.region[i]?) :
    Keeps initial { s with backing := some (b.setRegion region) } := by
  obtain ⟨b', hb', hkept⟩ := hs
  obtain rfl : b = b' := Option.some.inj (hb.symm.trans hb')
  refine ⟨_, rfl, ?_⟩
  rw [imageSize_setBacking s (some _), Backing.region_setRegion, hsize]
  rcases hkept with ⟨heq, hkept⟩ | ⟨hlonger, hhanded⟩
  · exact .inl ⟨heq, fun i hi => (hsame i hi).trans (hkept i hi)⟩
  · exact .inr ⟨hlonger, hhanded.setRegion hsize⟩

/-! ### Writing to the region -/

/-- After the whole image has been written the region begins with it. -/
lemma isCurrent_of_sync (h : s.sync = .ok s') : s'.IsCurrent := by
  intro b hb
  obtain ⟨hnone, rfl⟩ | ⟨b', -, hroom, hlength, rfl⟩ := sync_eq_ok_iff.mp h
  · rw [hnone] at hb
    cases hb
  · cases hb
    refine ⟨b'.region.toList.drop s.updatableBytes.length, ?_⟩
    rw [updatableBytes_setBacking s (some _), Backing.region_setRegion]
    exact overwrite_zero (hlength.trans_le hroom)

/-- Writing the whole image changes nothing behind it. -/
lemma Keeps.sync (hs : s.Keeps initial) (h : s.sync = .ok s') : s'.Keeps initial := by
  obtain ⟨-, rfl⟩ | ⟨b, hb, -, hlength, rfl⟩ := sync_eq_ok_iff.mp h
  · exact hs
  · refine hs.setRegion hb (size_overwrite _ _ _) fun i hi => getElem?_overwrite_of_le ?_
    omega

/-- Writing an insertion changes nothing behind the image. -/
lemma Keeps.writeInsertion {x : α} (hs : s.Keeps initial)
    (hfields : ∀ field ∈ s.insertionFields s.free x, field.1 + field.2.length ≤ s.imageSize true)
    (h : s.writeInsertion x = .ok s') : s'.Keeps initial := by
  obtain ⟨-, rfl⟩ | ⟨b, hb, -, -, rfl⟩ := writeInsertion_eq_ok_iff.mp h
  · exact hs
  · exact hs.setRegion hb (size_overwriteAll _ _) fun i hi =>
      Bytes.getElem?_overwriteAll_of_le fun field hfield => (hfields field hfield).trans hi

/-- An insertion changes neither the region nor the size of the image. -/
lemma Keeps.insert {x : α} {free : ℕ} {populations : List ℕ} (h : s.Keeps initial)
    (hs : s.HasShape free populations) (hinsert : s.insert x = .ok s') : s'.Keeps initial := by
  refine h.mono ?_ (hs.imageSize_inserted hinsert).ge
  obtain ⟨-, -, -, -, rfl⟩ := insert_eq_ok_iff.mp hinsert
  rfl

/-- If the region begins with the image from before an insertion, it begins with the image from
after it once the insertion has been written. -/
lemma IsCurrent.writeInsertion {x : α} {between : Sketch α} {free : ℕ} {populations : List ℕ}
    (hcurrent : s.IsCurrent) (hs : s.HasShape free populations)
    (hinsert : s.insert x = .ok between) (h : between.writeInsertion x = .ok s') :
    s'.IsCurrent := by
  obtain ⟨slack, runs, hrepresents, -, -⟩ := hs.exists_represents
  obtain ⟨free', here, upper, rfl, rfl, rfl, -⟩ := hs.inserted hinsert
  obtain ⟨slack', here', y, upper', rfl, rfl⟩ := hs.exists_slot hrepresents
  intro b hb
  obtain ⟨hnone, rfl⟩ | ⟨b', hb', -, -, rfl⟩ := writeInsertion_eq_ok_iff.mp h
  · rw [hnone] at hb
    cases hb
  · cases hb
    obtain ⟨tail, htail⟩ := hcurrent b' hb'
    refine ⟨tail, ?_⟩
    rw [updatableBytes_setBacking (s.inserted x) (some _), Backing.region_setRegion, htail]
    exact overwriteAll_insertionFields x hrepresents tail

end Sketch

namespace Session

variable {γ α : Type} [Item α] {r r' : Session γ α} {initial : Bytes} {free : ℕ}
  {populations : List ℕ}

/-! ### Commands -/

/-- A refused command leaves the region as it is. -/
lemma Unchanged.isCurrent (h : r.Unchanged r') (hcurrent : r.sketch.IsCurrent) :
    r'.sketch.IsCurrent := by
  rcases h.sketch_eq with hsketch | ⟨b, hb, hsketch⟩
  · rw [hsketch]
    exact hcurrent
  · rw [hsketch]
    intro b' hb'
    cases hb'
    rw [Sketch.updatableBytes_setBacking r.sketch (some _)]
    exact hcurrent b hb

/-- A refused command leaves the region as it is. -/
lemma Unchanged.keeps (h : r.Unchanged r') (hkeeps : r.sketch.Keeps initial) :
    r'.sketch.Keeps initial := by
  rcases h.sketch_eq with hsketch | ⟨b, hb, hsketch⟩
  · rw [hsketch]
    exact hkeeps
  · obtain ⟨b', hb', hkept⟩ := hkeeps
    obtain rfl : b = b' := Option.some.inj (hb.symm.trans hb')
    rw [hsketch]
    exact ⟨b.asked, rfl, hkept.imp_right fun ⟨hlonger, hhanded⟩ => ⟨hlonger, hhanded.asked⟩⟩

/-- Growth does not make the image shorter. -/
lemma imageSize_le_grown (hs : r.sketch.HasShape free populations)
    (hbelow : populations.length < maxLevels) :
    r.sketch.imageSize true ≤ (r.sketch.grown r.growth).imageSize true := by
  have hgrown := hs.grown hbelow
  rw [growth, hs.numLevels_eq, hs.imageSize_eq, hgrown.imageSize_eq]
  refine Sketch.updatableSize_mono _ (by simp) ?_
  rw [List.sum_append, List.sum_singleton]
  omega

/-- Growth writes nothing behind the image, unless a longer region takes the place of the old
one. -/
lemma grow_keeps (hs : r.sketch.HasShape free populations) (hkeeps : r.sketch.Keeps initial)
    (h : r.grow = .done r') : r'.sketch.Keeps initial := by
  have hbelow := (grow_shape hs h).1
  obtain ⟨backing, hbacking, hsync⟩ := grow_eq_done_growth hs h
  refine Sketch.Keeps.sync ?_ hsync
  obtain ⟨b, hb, hkept⟩ := hkeeps
  rw [hb] at hbacking
  cases hbacking with
  | kept _ =>
    have hkeeps : r.sketch.Keeps initial := ⟨b, hb, hkept⟩
    exact hkeeps.mono hb.symm (imageSize_le_grown hs hbelow)
  | @replaced _ region answer hanswer hsize hshort hlong =>
    have hinitial : initial.size ≤ b.region.size := by
      rcases hkept with ⟨heq, -⟩ | ⟨hlonger, -⟩
      · exact heq.ge
      · exact hlonger.le
    refine ⟨_, rfl, .inr ⟨?_, b.requests, Nat.lt_succ_self _, _, _, answer, hanswer, hsize.symm⟩⟩
    rw [Backing.region_setRegion]
    omega

variable [Coin γ]

/-- A command that is done either changes nothing, or it ends with writing the whole image, or it
inserts an item and writes the insertion. -/
theorem perform_written {c : Command α} (h : r.perform c = .done r') :
    r'.sketch = r.sketch ∨ (∃ s : Sketch α, s.sync = .ok r'.sketch) ∨
      ∃ (x : α) (s : Sketch α), r.sketch.insert x = .ok s ∧ s.writeInsertion x = .ok r'.sketch := by
  cases c with
  | addEmptyTopLevel =>
    obtain ⟨-, -, grown, backing, -, -, hsync, -, -⟩ :=
      grow_eq_done (addEmptyTopLevel_eq_done_iff.mp h).2
    exact .inr (.inl ⟨_, hsync⟩)
  | update x =>
    rcases (update_eq_done h).2 with ⟨-, rfl⟩ | ⟨-, between, s, hbetween, hinsert, hwrite, -, -⟩
    · exact .inl rfl
    split at hwrite
    · exact .inr (.inl ⟨_, hwrite⟩)
    · rename_i hfree
      rw [if_neg hfree] at hbetween
      rw [hbetween] at hinsert
      exact .inr (.inr ⟨x, s, hinsert, hwrite⟩)

/-- A command that is done leaves the current image in the region. -/
theorem perform_isCurrent {c : Command α} (hs : r.sketch.HasShape free populations)
    (hcurrent : r.sketch.IsCurrent) (h : r.perform c = .done r') : r'.sketch.IsCurrent := by
  rcases perform_written h with hsame | ⟨s, hsync⟩ | ⟨x, s, hinsert, hwrite⟩
  · rw [hsame]
    exact hcurrent
  · exact Sketch.isCurrent_of_sync hsync
  · exact hcurrent.writeInsertion hs hinsert hwrite

/-- Freeing slots writes nothing behind the image. -/
lemma compress_keeps (hs : r.sketch.HasShape 0 populations) (hkeeps : r.sketch.Keeps initial)
    (h : r.compress = .done r') : r'.sketch.Keeps initial := by
  obtain ⟨between, free, lower, here, above, upper, hbetween, hshape, -, hcompact⟩ :=
    compress_shape hs h
  have hkeeps' : between.sketch.Keeps initial := by
    rcases hbetween with rfl | ⟨-, hgrow⟩
    · exact hkeeps
    · exact grow_keeps hs hkeeps hgrow
  have hcompacted := (compact_shape hshape hcompact).1
  obtain ⟨items, -, hsketch⟩ := Sketch.compact_levels hshape.levels_eq hshape.room_lt hcompacted
  refine hkeeps'.mono ?_ (hshape.imageSize_compacted hcompacted).ge
  rw [hsketch]

/-- A command that is done writes nothing behind the image. -/
theorem perform_keeps {c : Command α} (hs : r.sketch.HasShape free populations)
    (hkeeps : r.sketch.Keeps initial) (h : r.perform c = .done r') : r'.sketch.Keeps initial := by
  cases c with
  | addEmptyTopLevel => exact grow_keeps hs hkeeps (addEmptyTopLevel_eq_done_iff.mp h).2
  | update x =>
    rcases (update_eq_done h).2 with ⟨-, rfl⟩ | ⟨-, between, s, hbetween, hinsert, hwrite, -, -⟩
    · exact hkeeps
    split at hwrite
    · rename_i hfree
      rw [if_pos hfree] at hbetween
      replace hs := hs.of_free_eq_zero hfree
      obtain ⟨_, _, hs', -⟩ := compress_freed hs hbetween
      exact ((compress_keeps hs hkeeps hbetween).insert hs' hinsert).sync hwrite
    · rename_i hfree
      rw [if_neg hfree] at hbetween
      rw [hbetween] at hinsert
      obtain ⟨_, _, _, -, -, -, hs'⟩ := hs.inserted hinsert
      exact (hkeeps.insert hs hinsert).writeInsertion (hs'.field_le_imageSize x) hwrite

/-- A run leaves the current image in the region. -/
theorem Run.isCurrent {r₀ : Session γ α} {taken : List (Command α)} (h : r₀.Run taken r)
    (hwf : r₀.sketch.WellFormed) (hcurrent : r₀.sketch.IsCurrent) : r.sketch.IsCurrent := by
  induction h with
  | start => exact hcurrent
  | done run step ih =>
    obtain ⟨free, populations, hs⟩ := run.wellFormed hwf
    exact perform_isCurrent hs ih step
  | refused run step ih => exact (perform_eq_refused step).isCurrent ih

/-- A run writes nothing behind the image. -/
theorem Run.keeps {r₀ : Session γ α} {taken : List (Command α)} (h : r₀.Run taken r)
    (hwf : r₀.sketch.WellFormed) (hkeeps : r₀.sketch.Keeps initial) : r.sketch.Keeps initial := by
  induction h with
  | start => exact hkeeps
  | done run step ih =>
    obtain ⟨free, populations, hs⟩ := run.wellFormed hwf
    exact perform_keeps hs ih step
  | refused run step ih => exact (perform_eq_refused step).keeps ih

end Session

/-! ### Sketches that start in a region -/

namespace Sketch

variable {α : Type} [Item α]

/-- A sketch without a region has nothing to keep current. -/
lemma isCurrent_of_backing_eq_none {s : Sketch α} (h : s.backing = none) : s.IsCurrent := by
  intro b hb
  rw [h] at hb
  cases hb

/-- The region of a sketch that was constructed begins with its image. -/
lemma Constructed.isCurrent {s : Sketch α} (h : s.Constructed) : s.IsCurrent := by
  cases h with
  | new h =>
    obtain ⟨_, -, h⟩ := bind_eq_ok_iff.mp h
    rw [← pure_eq_ok_iff.mp h]
    exact isCurrent_of_backing_eq_none rfl
  | withM h =>
    rw [(withM_eq_ok_iff.mp h).2]
    exact isCurrent_of_backing_eq_none rfl
  | newInRegion h => exact isCurrent_of_sync (newInRegion_eq_ok_iff.mp h).2.2

/-- A sketch that starts in a region: a new one, or one whose updatable image the region begins
with. -/
inductive StartsIn (region : Bytes) : Sketch α → Prop where
  | new {k m : ℕ} {server : RegionServer} {s : Sketch α}
      (h : newInRegion k m region server = .ok s) : StartsIn region s
  | wrapped {δ : Type} [Coin δ] {r : Session δ α} {tail : List UInt8} {server : RegionServer}
      {s : Sketch α} (reachable : r.Reachable)
      (region_eq : region = (r.sketch.updatableBytes ++ tail).toArray)
      (h : wrapInRegion region server = .ok s) : StartsIn region s

namespace StartsIn

variable {region : Bytes} {s : Sketch α}

/-- A sketch that starts in a region has been opened. -/
lemma opened (h : s.StartsIn region) : s.Opened := by
  cases h with
  | new h => exact .constructed (.newInRegion h)
  | wrapped _ _ h => exact .wrapInRegion h

/-- The region begins with the image from the start. -/
lemma isCurrent (h : s.StartsIn region) : s.IsCurrent := by
  cases h with
  | new h => exact (Constructed.newInRegion h).isCurrent
  | @wrapped δ _ r tail server _ reachable region_eq h =>
    obtain ⟨free, populations, hs⟩ := reachable.wellFormed
    rw [wrapInRegion_of_updatableBytes hs region_eq, Except.ok.injEq] at h
    rw [← h]
    have himage : updatableBytes { r.sketch with
        readOnly := false, backing := some { region, server } } = r.sketch.updatableBytes := rfl
    intro b hb
    cases hb
    rw [himage]
    exact ⟨tail, region_eq⟩

/-- Behind the image the region is as it was. -/
lemma keeps (h : s.StartsIn region) : s.Keeps region := by
  cases h with
  | new h => exact Keeps.sync ⟨_, rfl, .inl ⟨rfl, fun _ _ => rfl⟩⟩ (newInRegion_eq_ok_iff.mp h).2.2
  | wrapped _ _ h =>
    obtain ⟨v, s', -, -, -, rfl⟩ := wrapInRegion_eq_ok_iff.mp h
    exact ⟨_, rfl, .inl ⟨rfl, fun _ _ => rfl⟩⟩

end StartsIn

end Sketch

namespace Session

variable {γ α : Type} [Coin γ] [Item α] {r : Session γ α}

/-- After every command of a run of a sketch that starts in a region, the region in use begins with
the updatable image of the sketch. The bytes behind the image are those that the first region began
with, unless a longer region that the server handed out has taken its place. -/
theorem Run.image_current {region : Bytes} {s : Sketch α} {coin : γ} {taken : List (Command α)}
    (hs : s.StartsIn region) (hrun : (begin s coin).Run taken r) :
    ∃ b, r.sketch.backing = some b ∧ r.sketch.imageSize true ≤ b.region.size ∧
      b.region.toList.take (r.sketch.imageSize true) = r.sketch.updatableBytes ∧
      ((b.region.size = region.size ∧
          ∀ i, r.sketch.imageSize true ≤ i → b.region[i]? = region[i]?) ∨
        (region.size < b.region.size ∧ b.HandedOut)) := by
  have hwf := hs.opened.wellFormed
  obtain ⟨free, populations, hshape⟩ := hrun.wellFormed hwf
  obtain ⟨b, hb, hkept⟩ := hrun.keeps hwf hs.keeps
  obtain ⟨tail, htail⟩ := hrun.isCurrent hwf hs.isCurrent b hb
  refine ⟨b, hb, hrun.fits hwf hs.opened.fits b hb, ?_, hkept⟩
  rw [htail, ← hshape.length_updatableBytes]
  exact List.take_left

/-- Growth in a region with four bytes to spare. -/
theorem image_current_of_four_spare_bytes :
    ∃ (r : Session Xorshift Int32) (b : Backing), r.sketch.backing = some b ∧
      r.sketch.imageSize true = 68 ∧ b.region.size = 72 ∧
      b.region.toList.take 68 = r.sketch.updatableBytes ∧ b.region[71]? = some 9 := by
  have hrun : ((Sketch.newInRegion 4 2 (Array.replicate 72 9) RegionServer.exact).toOption.bind
      fun s : Sketch Int32 => performAll ([5, 7, 6, 8, 1].map .update)
        (begin s (Xorshift.ofSeed 1))).map (fun r =>
          (r.sketch.imageSize true, r.sketch.region?.map Array.size)) = some (68, some 72) := by
    decide +kernel
  obtain ⟨r, hr, hsizes⟩ := Option.map_eq_some_iff.mp hrun
  obtain ⟨s, hs, hr⟩ := Option.bind_eq_some_iff.mp hr
  obtain ⟨hsize, hregion⟩ := Prod.mk.inj hsizes
  obtain ⟨b, hb, -, himage, hkept⟩ :=
    Run.image_current (.new (toOption_eq_some_iff.mp hs)) (run_of_performAll hr)
  have hlength : b.region.size = 72 := by
    rw [Sketch.region?, hb] at hregion
    exact Option.some.inj hregion
  rw [hsize] at himage hkept
  rcases hkept with ⟨-, hsame⟩ | ⟨hlonger, -⟩
  · exact ⟨r, b, hb, hsize, hlength, himage, hsame 71 (by decide)⟩
  · -- the server was never asked, because there was room for growth
    rw [Array.size_replicate, hlength] at hlonger
    omega

end Session

end QuantileSketch
