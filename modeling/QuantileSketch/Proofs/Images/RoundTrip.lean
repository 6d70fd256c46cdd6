import QuantileSketch.Item.Float
import QuantileSketch.Proofs.Images.Decoding
import QuantileSketch.Proofs.Reachable

/-!
# Images of reachable sketches are read back

Every reachable sketch is well formed, so that its updatable image passes all checks and is read
back field by field, the free slots too (`Reachable.read_updatableImage`). The sketch that is read
may change and has no region; otherwise it is the one that was written, and it is written in the
same way.
-/

namespace QuantileSketch

namespace Sketch

variable {α : Type} [Item α]

/-- Bytes that begin with the updatable image of a well-formed sketch are opened as this sketch. -/
theorem HasShape.read_of_updatableBytes {s : Sketch α} {free : ℕ} {populations : List ℕ}
    {bytes : Bytes} {tail : List UInt8} (hs : s.HasShape free populations)
    (hbytes : bytes = (s.updatableBytes ++ tail).toArray) :
    read bytes = .ok { s with readOnly := false, backing := none } := by
  rw [read, read_info_of_updatableBytes hs hbytes]
  exact ofImage_of_updatableBytes hs hbytes

end Sketch

namespace Session

variable {γ α : Type} [Coin γ] [Item α] {r : Session γ α}

/-- Bytes that begin with the updatable image of a reachable sketch, whatever follows, are a valid
image of the updatable layout. The sketch that is read from them has all fields of the first one,
all slots and the extremes included, but may change and has no region. Its updatable image has the
same bytes. -/
theorem Reachable.read_updatableImage (h : r.Reachable) (tail : Bytes) :
    ∃ (v : ImageInfo) (s : Sketch α),
      ImageInfo.read (r.sketch.updatableImage ++ tail) (Item.width α) = .ok v ∧
        v.layout = .updatable ∧
        Sketch.read (r.sketch.updatableImage ++ tail) = .ok s ∧
        s = { r.sketch with readOnly := false, backing := none } ∧
        s.updatableImage = r.sketch.updatableImage := by
  obtain ⟨free, populations, hs⟩ := h.wellFormed
  have hbytes : r.sketch.updatableImage ++ tail =
      (r.sketch.updatableBytes ++ tail.toList).toArray := by
    simp [Sketch.updatableImage]
  -- the fields that reading sets anew are not in the image
  have himage : Sketch.updatableImage { r.sketch with readOnly := false, backing := none } =
      r.sketch.updatableImage := rfl
  exact ⟨r.sketch.info, _, Sketch.read_info_of_updatableBytes hs hbytes, rfl,
    hs.read_of_updatableBytes hbytes, rfl, himage⟩

/-- Three numbers are fed to the sketch in an empty image, after which half of its slots are free.
Its updatable image is read back with two bytes behind it. -/
theorem read_updatableImage_of_three_numbers :
    ∃ (r : Session Xorshift Binary32) (s : Sketch Binary32),
      r.Reachable ∧ r.sketch.levels = [2, 3, 4] ∧
        Sketch.read (r.sketch.updatableImage ++ #[255, 7]) = .ok s ∧
        s.n = 3 ∧ s.levels = [2, 3, 4] ∧ s.items = r.sketch.items ∧
        s.extremes = r.sketch.extremes ∧ s.updatableImage = r.sketch.updatableImage := by
  have hstate : ((Sketch.read #[2, 1, 15, 1, 2, 0, 2, 0]).toOption.bind fun s : Sketch Binary32 =>
      performAll [.update (.ofInt 5), .update (.ofInt 7), .update (.ofInt 6)]
        (begin s (Xorshift.ofSeed 1))).map (fun r => (r.sketch.n, r.sketch.levels)) =
          some (3, [2, 3, 4]) := by decide +kernel
  obtain ⟨r, hr, hstate⟩ := Option.map_eq_some_iff.mp hstate
  obtain ⟨hn, hlevels⟩ := Prod.mk.inj hstate
  obtain ⟨s₀, hs₀, hr⟩ := Option.bind_eq_some_iff.mp hr
  have hreachable : r.Reachable :=
    ⟨s₀, _, _, .read (toOption_eq_some_iff.mp hs₀), run_of_performAll hr⟩
  obtain ⟨v, s, -, -, hread, hs, himage⟩ := hreachable.read_updatableImage #[255, 7]
  refine ⟨r, s, hreachable, hlevels, hread, ?_, ?_, ?_, ?_, himage⟩
  · rw [hs, ← hn]
  · rw [hs, ← hlevels]
  · rw [hs]
  · rw [hs]

end Session

end QuantileSketch
