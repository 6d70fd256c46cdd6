import QuantileSketch.Proofs.Images.Decoding
import QuantileSketch.Proofs.Reachable

/-!
# Room for the image

A region always has room for the updatable image of its sketch (`Sketch.Fits`). Writing the whole
image checks this (`fits_of_sync`), and an insertion does not change the size of the image, so that
it holds after every run (`Reachable.fits`).
-/

namespace QuantileSketch

namespace Sketch

variable {α : Type} [Item α]

/-- The region of a sketch, if it has one, is long enough for the updatable image. -/
def Fits (s : Sketch α) : Prop := ∀ b, s.backing = some b → s.imageSize true ≤ b.region.size

/-- After the whole image has been written the region has room for it. -/
lemma fits_of_sync {s s' : Sketch α} (h : s.sync = .ok s') : s'.Fits := by
  intro b hb
  obtain ⟨hnone, rfl⟩ | ⟨b', -, hroom, -, rfl⟩ := sync_eq_ok_iff.mp h
  · rw [hnone] at hb
    cases hb
  · cases hb
    rw [imageSize_setBacking, Backing.region_setRegion, size_overwrite]
    exact hroom

/-- Writing an insertion keeps the size of the region. -/
lemma Fits.writeInsertion {x : α} {s s' : Sketch α} (hs : s.Fits)
    (h : s.writeInsertion x = .ok s') : s'.Fits := by
  intro b hb
  obtain ⟨-, rfl⟩ | ⟨b', hb', -, -, rfl⟩ := writeInsertion_eq_ok_iff.mp h
  · exact hs b hb
  · cases hb
    rw [imageSize_setBacking, Backing.region_setRegion, size_overwriteAll]
    exact hs b' hb'

/-- An insertion keeps the size of the image. -/
lemma HasShape.imageSize_inserted {x : α} {s s' : Sketch α} {free : ℕ} {populations : List ℕ}
    (hs : s.HasShape free populations) (h : s.insert x = .ok s') :
    s'.imageSize true = s.imageSize true := by
  obtain ⟨free', here, upper, rfl, rfl, -, hs'⟩ := hs.inserted h
  rw [hs.imageSize_eq, hs'.imageSize_eq]
  congr 1
  rw [List.sum_cons, List.sum_cons]
  omega

/-- An insertion keeps the region and the size of the image. -/
lemma Fits.insert {x : α} {s s' : Sketch α} {free : ℕ} {populations : List ℕ} (hfits : s.Fits)
    (hs : s.HasShape free populations) (h : s.insert x = .ok s') : s'.Fits := by
  intro b hb
  rw [hs.imageSize_inserted h]
  obtain ⟨-, -, -, -, rfl⟩ := insert_eq_ok_iff.mp h
  exact hfits b hb

/-- A compaction keeps the size of the image. -/
lemma HasShape.imageSize_compacted {s s' : Sketch α} {free here above : ℕ} {lower upper : List ℕ}
    {bit : Bool} (hs : s.HasShape free (lower ++ here :: above :: upper))
    (h : s.compact (spanAt free lower here above) bit = .ok s') :
    s'.imageSize true = s.imageSize true := by
  rw [hs.imageSize_eq, (hs.compacted h).imageSize_eq]
  congr 1
  · simp
  · simp only [List.sum_append, List.sum_cons]
    omega

/-- The size of the updatable image when the sketch has grown by a level. -/
def enlargedSize (s : Sketch α) : ℕ :=
  updatableSize (s.numLevels + 1) (totalCapacity s.k s.m (s.numLevels + 1)) (Item.width α)

/-- Growth makes the image as large as that. -/
lemma HasShape.imageSize_grown {s : Sketch α} {free : ℕ} {populations : List ℕ}
    (hs : s.HasShape free populations) (hbelow : populations.length < maxLevels) :
    (s.grown (capacityAt s.k s.m populations.length)).imageSize true = s.enlargedSize := by
  have hgrown := hs.grown hbelow
  have hlength : (populations ++ [0]).length = s.numLevels + 1 := by
    rw [List.length_append, List.length_singleton, hs.numLevels_eq]
  rw [hgrown.imageSize_eq, hgrown.room_eq, hlength]
  rfl

/-- A sketch without a region needs no room. -/
lemma fits_of_backing_eq_none {s : Sketch α} (h : s.backing = none) : s.Fits := by
  intro b hb
  rw [h] at hb
  cases hb

/-- The region of an updatable image has room for it. -/
lemma fits_of_wrapInRegion {region : Bytes} {server : RegionServer} {s : Sketch α}
    (h : wrapInRegion region server = .ok s) : s.Fits := by
  have hlegible := legibleIn_of_wrapInRegion h
  obtain ⟨v, s', -, -, -, rfl⟩ := wrapInRegion_eq_ok_iff.mp h
  intro b hb
  cases hb
  exact hlegible.imageSize_le

/-- The region in which a sketch is opened is long enough. -/
theorem Opened.fits {s : Sketch α} (h : s.Opened) : s.Fits := by
  cases h with
  | constructed h =>
    cases h with
    | new h =>
      obtain ⟨_, -, h⟩ := bind_eq_ok_iff.mp h
      rw [← pure_eq_ok_iff.mp h]
      exact fits_of_backing_eq_none rfl
    | withM h =>
      rw [(withM_eq_ok_iff.mp h).2]
      exact fits_of_backing_eq_none rfl
    | newInRegion h => exact fits_of_sync (newInRegion_eq_ok_iff.mp h).2.2
  | read h => exact fits_of_backing_eq_none (read_backing h)
  | wrap h =>
    obtain ⟨s', hs', h⟩ := bind_eq_ok_iff.mp h
    have hnone := read_backing hs'
    rw [← pure_eq_ok_iff.mp h]
    exact fits_of_backing_eq_none hnone
  | wrapInRegion h => exact fits_of_wrapInRegion h

end Sketch

namespace Session

variable {γ α : Type} [Item α] {r r' : Session γ α} {free : ℕ} {populations : List ℕ}

/-- A refused command keeps the region. -/
lemma Unchanged.fits (h : r.Unchanged r') (hfits : r.sketch.Fits) : r'.sketch.Fits := by
  rcases h.sketch_eq with hsketch | ⟨b, hb, hsketch⟩
  · rw [hsketch]
    exact hfits
  · rw [hsketch]
    intro b' hb'
    cases hb'
    exact hfits b hb

/-- After growth the region has room for the larger image. -/
lemma grow_fits (h : r.grow = .done r') : r'.sketch.Fits := by
  obtain ⟨-, -, _, _, -, -, hsync, -, -⟩ := grow_eq_done h
  exact Sketch.fits_of_sync hsync

variable [Coin γ]

/-- A compaction keeps the region and the size of the image. -/
lemma compact_fits {lower upper : List ℕ} {here above : ℕ}
    (hs : r.sketch.HasShape free (lower ++ here :: above :: upper)) (hfits : r.sketch.Fits)
    (h : r.compact lower.length = .done r') : r'.sketch.Fits := by
  have hcompact := (compact_shape hs h).1
  have hsize := hs.imageSize_compacted hcompact
  obtain ⟨items, -, hsketch⟩ := Sketch.compact_levels hs.levels_eq hs.room_lt hcompact
  intro b hb
  rw [hsize]
  rw [hsketch] at hb
  exact hfits b hb

/-- Every command keeps room for the image. -/
theorem perform_fits {c : Command α} (hs : r.sketch.HasShape free populations)
    (hfits : r.sketch.Fits) (h : r.perform c = .done r') : r'.sketch.Fits := by
  cases c with
  | addEmptyTopLevel => exact grow_fits (addEmptyTopLevel_eq_done_iff.mp h).2
  | update x =>
    rcases (update_eq_done h).2 with ⟨-, rfl⟩ | ⟨-, between, s, hbetween, hinsert, hwrite, -, -⟩
    · exact hfits
    split at hwrite
    · exact Sketch.fits_of_sync hwrite
    · rename_i hfree
      rw [if_neg hfree] at hbetween
      rw [hbetween] at hinsert
      exact (hfits.insert hs hinsert).writeInsertion hwrite

/-- A run keeps room for the image. -/
theorem Run.fits {r₀ : Session γ α} {taken : List (Command α)} (h : r₀.Run taken r)
    (hwf : r₀.sketch.WellFormed) (hfits : r₀.sketch.Fits) : r.sketch.Fits := by
  induction h with
  | start => exact hfits
  | done run step ih =>
    obtain ⟨free, populations, hs⟩ := run.wellFormed hwf
    exact perform_fits hs ih step
  | refused run step ih => exact (perform_eq_refused step).fits ih

/-- The region of a reachable sketch has room for its image. -/
theorem Reachable.fits (h : r.Reachable) : r.sketch.Fits := by
  obtain ⟨s, coin, taken, hs, hrun⟩ := h
  exact hrun.fits hs.wellFormed hs.fits

end Session

end QuantileSketch
