import QuantileSketch.Item.Integer
import QuantileSketch.Proofs.Constructed
import QuantileSketch.Proofs.Images.Opening

/-!
# The representation of reachable sketches

A sketch is well formed when it is constructed or opened, and every run keeps it so
(`Reachable.wellFormed`). What this means for the boundaries, the slots, the length of the stream
and the extremes is written out in `Reachable.representation`.
-/

namespace QuantileSketch

namespace Sketch

variable {α : Type} [Item α]

/-- A sketch that was constructed or opened is well formed. -/
theorem Opened.wellFormed {s : Sketch α} (h : s.Opened) : s.WellFormed := by
  cases h with
  | constructed h => exact h.wellFormed
  | read h => exact read_wellFormed h
  | wrap h =>
    obtain ⟨s', hs', h⟩ := bind_eq_ok_iff.mp h
    obtain ⟨free, populations, hs⟩ := read_wellFormed hs'
    rw [← pure_eq_ok_iff.mp h]
    exact ⟨free, populations, hs.parameters, hs.m_le_minK, hs.minK_le_k, hs.levels_eq,
      hs.length_pos, hs.length_le, hs.room_eq, hs.size_eq, hs.saturate_eq, hs.isSome_extremes⟩
  | wrapInRegion h =>
    obtain ⟨v, s', hv, -, hs', rfl⟩ := wrapInRegion_eq_ok_iff.mp h
    obtain ⟨free, populations, hshape⟩ := ImageInfo.exists_shape hv
    exact ⟨free, populations, (ofImage_shape hshape hs').setBacking _⟩

end Sketch

namespace Session

variable {γ α : Type} [Coin γ] [Item α] {r : Session γ α}

/-- A reachable sketch is well formed. -/
theorem Reachable.wellFormed (h : r.Reachable) : r.sketch.WellFormed := by
  obtain ⟨s, coin, taken, hs, hrun⟩ := h
  exact hrun.wellFormed hs.wellFormed

/-- A reachable sketch has between one and `maxLevels` levels, one boundary more than levels, and no
boundary below the one before it. The last boundary is the number of slots and the total capacity.
The levels stand for a stream of the length that the sketch reports, and there are extremes just if
the stream is not empty. -/
theorem Reachable.representation (h : r.Reachable) :
    1 ≤ r.sketch.numLevels ∧ r.sketch.numLevels ≤ maxLevels ∧
      r.sketch.levels.length = r.sketch.numLevels + 1 ∧
      r.sketch.levels.Pairwise (· ≤ ·) ∧
      r.sketch.levels[r.sketch.numLevels]? = some r.sketch.items.size ∧
      totalItemCapacity r.sketch.k r.sketch.m r.sketch.numLevels = .ok r.sketch.items.size ∧
      sampleWeight r.sketch.numLevels r.sketch.levels = .ok r.sketch.n ∧
      (0 < r.sketch.n → r.sketch.least?.isSome ∧ r.sketch.greatest?.isSome) ∧
      (r.sketch.n = 0 → r.sketch.least? = none ∧ r.sketch.greatest? = none) := by
  obtain ⟨free, populations, hs⟩ := h.wellFormed
  have hlength : r.sketch.levels.length = r.sketch.numLevels + 1 := by
    rw [hs.numLevels_eq, hs.levels_eq, length_boundaries]
  have hlast : r.sketch.levels[r.sketch.numLevels]? = some r.sketch.items.size := by
    rw [hs.numLevels_eq, hs.levels_eq, getElem?_boundaries_length, hs.size_eq]
  have htotal : totalItemCapacity r.sketch.k r.sketch.m r.sketch.numLevels =
      .ok r.sketch.items.size := by
    rw [hs.numLevels_eq, totalItemCapacity_eq_ok hs.parameters hs.length_le, hs.size_eq, hs.room_eq]
  have hweight : sampleWeight r.sketch.numLevels r.sketch.levels = .ok r.sketch.n := by
    rw [hs.numLevels_eq, hs.levels_eq, sampleWeight_boundaries, hs.saturate_eq]
  have hmonotone : r.sketch.levels.Pairwise (· ≤ ·) := by
    rw [hs.levels_eq]
    exact pairwise_boundaries free populations
  refine ⟨?_, ?_, hlength, hmonotone, hlast, htotal, hweight, ?_, ?_⟩
  · rw [hs.numLevels_eq]
    exact hs.length_pos
  · rw [hs.numLevels_eq]
    exact hs.length_le
  · intro hn
    have hsome := hs.isSome_extremes
    rw [decide_eq_true hn] at hsome
    rw [Sketch.least?, Sketch.greatest?, Option.isSome_map, Option.isSome_map]
    exact ⟨hsome, hsome⟩
  · intro hn
    have hnone : r.sketch.extremes = none := by
      rw [← Option.not_isSome_iff_eq_none, hs.isSome_extremes, hn]
      decide
    rw [Sketch.least?, Sketch.greatest?, hnone]
    exact ⟨rfl, rfl⟩

/-- Feeding fourteen items to the sketch in an empty image with four slots. -/
theorem representation_of_reopened_image :
    ∃ r : Session Xorshift Int32, r.Reachable ∧ r.sketch.levels = [2, 6, 7, 9] ∧
      r.sketch.numLevels ≤ maxLevels ∧
      totalItemCapacity r.sketch.k r.sketch.m r.sketch.numLevels = .ok r.sketch.items.size ∧
      sampleWeight r.sketch.numLevels r.sketch.levels = .ok r.sketch.n := by
  have hlevels : ((Sketch.read #[2, 1, 15, 1, 4, 0, 2, 0]).toOption.bind fun s : Sketch Int32 =>
      performAll ([5, 7, 6, 8, 1, 2, 4, 3, 9, 10, 11, 12, 13, 14].map .update)
        (begin s (Xorshift.ofSeed 1))).map (fun r => r.sketch.levels) = some [2, 6, 7, 9] := by
    decide +kernel
  obtain ⟨r, hr, hlevels⟩ := Option.map_eq_some_iff.mp hlevels
  obtain ⟨s, hs, hr⟩ := Option.bind_eq_some_iff.mp hr
  have hreachable : r.Reachable :=
    ⟨s, _, _, .read (toOption_eq_some_iff.mp hs), run_of_performAll hr⟩
  obtain ⟨-, hlevels', -, -, -, htotal, hweight, -, -⟩ := hreachable.representation
  exact ⟨r, hreachable, hlevels, hlevels', htotal, hweight⟩

end Session

end QuantileSketch
