import QuantileSketch.Proofs.Progress

/-!
# Adding an empty top level

A full sketch that grows by a level keeps all it has. Every level is one further from the top then,
so that the capacities of all levels change; but they are those of before with one more for the new
level 0, and this is what the boundaries are moved up by (`Sketch.GrownBy`). The slots that open are
filled, and the items above them are in the order they were in.

`Session.Reachable.exists_addEmptyTopLevel_eq_done` says that this is what happens to every full
sketch that may change and is not at the limit of levels, if it has room for the larger image or is
handed out a region that has.
-/

namespace QuantileSketch

namespace Sketch

variable {α : Type} {s : Sketch α} {free : ℕ} {populations : List ℕ}

/-- There are no items in a level that is not there. -/
lemma HasShape.levelItems_numLevels (hs : s.HasShape free populations) :
    s.levelItems s.numLevels = #[] := by
  rw [← Array.size_eq_zero_iff, hs.size_levelItems, hs.numLevels_eq]
  simp

variable [Item α]

/-- A sketch that needs no request for growth by a level, or whose request is satisfied. -/
def RequestSucceeds (s : Sketch α) : Prop :=
  ∀ b, s.backing = some b → s.enlargedSize ≤ b.region.size ∨
    ∃ answer, b.server b.requests b.region s.enlargedSize = .ok answer ∧
      s.enlargedSize ≤ answer.size

/-- A server that satisfies every request satisfies this one. -/
lemma requestSucceeds_of_satisfies (hsize : s.enlargedSize < wordBound 32)
    (hserver : ∀ b, s.backing = some b → b.server.Satisfies) : s.RequestSucceeds :=
  fun b hb => .inr (hserver b hb b.requests b.region _ hsize)

/-- The sketch `s'` is `s` with an empty level on top and `delta` more free slots. -/
structure GrownBy (delta : ℕ) (s s' : Sketch α) : Prop where
  numLevels_eq : s'.numLevels = s.numLevels + 1
  /-- The old capacity is the boundary below the new level, and the new one that above it. -/
  levels_eq : s'.levels = s.levels.map (· + delta) ++ [s.capacity + delta]
  free_eq : s'.free = s.free + delta
  capacity_eq : s'.capacity = s.capacity + delta
  /-- The capacity is that of the larger number of levels. -/
  totalItemCapacity_eq : totalItemCapacity s.k s.m (s.numLevels + 1) = .ok s'.capacity
  levelItems_eq : ∀ level, s'.levelItems level = s.levelItems level
  levelItems_top : s'.levelItems s.numLevels = #[]
  items_eq : s'.items = Array.replicate delta Item.filler ++ s.items
  /-- The parameters, the stream, its extremes and the flags are the same. -/
  other_eq : s' = { s with levels := s'.levels, items := s'.items, backing := s'.backing }

/-- Growth by the capacity of the new level 0 adds just a level, whatever becomes of the region. -/
theorem HasShape.grownBy (hs : s.HasShape free populations) (hbelow : s.numLevels < maxLevels)
    (backing : Option Backing) :
    s.GrownBy (capacityAt s.k s.m s.numLevels)
      { s.grown (capacityAt s.k s.m s.numLevels) with backing } := by
  set delta := capacityAt s.k s.m s.numLevels with hdelta
  set s' : Sketch α := { s.grown delta with backing } with hs'
  have hshape : s'.HasShape (free + delta) (populations ++ [0]) := by
    rw [hs.numLevels_eq] at hbelow hdelta
    rw [hs', hdelta]
    exact (hs.grown hbelow).setBacking backing
  have hitems : s'.levelItems = s.levelItems := WellFormed.levelItems_grown delta ⟨_, _, hs⟩
  have hnumLevels : s'.numLevels = s.numLevels + 1 := by
    rw [hshape.numLevels_eq, hs.numLevels_eq, List.length_append, List.length_singleton]
  have hcapacity : s'.capacity = s.capacity + delta := by
    rw [hshape.capacity_eq, hs.capacity_eq, List.sum_append, List.sum_singleton]
    omega
  refine ⟨hnumLevels, rfl, ?_, hcapacity, ?_, ?_, ?_, rfl, rfl⟩
  · rw [hshape.free_eq, hs.free_eq]
  · rw [totalItemCapacity_eq_ok hs.parameters hbelow, ← hshape.totalCapacity_eq, hnumLevels]
    rfl
  · intro level
    rw [hitems]
  · rw [hitems, hs.levelItems_numLevels]

end Sketch

namespace Session

variable {γ α : Type} {r : Session γ α}

/-- Room can be reserved if there is enough of it or the server hands it out. -/
lemma exists_reserve_eq_done {required : ℕ} (hrequired : Format.dataAt ≤ required)
    (hpreamble : ∀ b, r.sketch.backing = some b → Format.dataAt ≤ b.region.size)
    (hrequest : ∀ b, r.sketch.backing = some b → required ≤ b.region.size ∨
      ∃ answer, b.server b.requests b.region required = .ok answer ∧ required ≤ answer.size) :
    ∃ r', r.reserve required = .done r' := by
  unfold reserve
  split
  · exact ⟨r, rfl⟩
  rename_i b hb
  split
  · exact ⟨r, rfl⟩
  rename_i hshort
  obtain ⟨answer, hanswer, hlong⟩ := (hrequest b hb).resolve_left hshort
  have hrequest' : b.request required = .ok answer := request_eq_ok_iff.mpr ⟨hanswer, hlong⟩
  dsimp only
  rw [hrequest']
  obtain ⟨s, hs⟩ := exists_installRegion_eq_ok
    (s := { r.sketch with backing := some b.asked }) rfl (hpreamble b hb) (hrequired.trans hlong)
  exact ⟨⟨s, _, _⟩, change_eq_done_iff.mpr ⟨hs, rfl, rfl⟩⟩

variable [Item α]

/-- Growth that is done adds an empty level and opens the slots of the new level 0. -/
lemma grow_grownBy {r' : Session γ α} (hwf : r.sketch.WellFormed) (h : r.grow = .done r') :
    r.sketch.GrownBy r.growth r'.sketch := by
  obtain ⟨free, populations, hs⟩ := hwf
  obtain ⟨-, hbelow, -⟩ := grow_eq_done h
  rw [grow_sketch_eq hs h]
  exact hs.grownBy hbelow r'.sketch.backing

/-- A full sketch that is not at the limit can grow if its request is satisfied. -/
lemma exists_grow_eq_done {populations : List ℕ} (hs : r.sketch.HasShape 0 populations)
    (hfits : r.sketch.Fits) (hbelow : populations.length < maxLevels)
    (hrequest : r.sketch.RequestSucceeds) : ∃ r', r.grow = .done r' := by
  have hgrown := hs.grown hbelow
  rw [Sketch.RequestSucceeds, ← hs.imageSize_grown hbelow] at hrequest
  obtain ⟨reserved, hreserve⟩ := exists_reserve_eq_done hgrown.dataAt_le_imageSize
    (fun b hb => hfits.dataAt_le_size hs hb) hrequest
  obtain ⟨s, hsync⟩ := exists_sync_of_reserve hgrown hreserve
  refine ⟨⟨s, _, _⟩, grow_eq_done_iff.mpr ⟨hs.free_eq, hs.size_eq.trans hs.capacity_eq.symm,
    hs.numLevels_eq ▸ hbelow, _, _, reserved, hs.enlarged_eq_ok hbelow, hreserve, hsync, rfl,
    rfl⟩⟩

variable [Coin γ]

/-- An empty top level can be added to every full sketch that may change and has fewer levels than
there can be, if its request for a larger region is satisfied or it needs none. Level 0 of the
larger sketch has room for two items at least, and as many slots are free then. -/
theorem Reachable.exists_addEmptyTopLevel_eq_done (h : r.Reachable) (hfull : r.sketch.free = 0)
    (hwritable : r.sketch.readOnly = false) (hbelow : r.sketch.numLevels < maxLevels)
    (hrequest : r.sketch.RequestSucceeds) :
    ∃ r' delta, r.addEmptyTopLevel = .done r' ∧
      levelCapacity r.sketch.k (r.sketch.numLevels + 1) 0 r.sketch.m = .ok delta ∧ 2 ≤ delta ∧
      r'.sketch.free = delta ∧ r.sketch.GrownBy delta r'.sketch := by
  obtain ⟨free, populations, hs⟩ := h.wellFormed
  replace hs := hs.of_free_eq_zero hfull
  obtain ⟨r', hgrow⟩ := exists_grow_eq_done hs h.fits (hs.numLevels_eq ▸ hbelow) hrequest
  have hgrown := grow_grownBy ⟨_, _, hs⟩ hgrow
  refine ⟨r', r.growth, addEmptyTopLevel_eq_done_iff.mpr ⟨hwritable, hgrow⟩,
    growth_eq_ok hs hbelow, ?_, ?_, hgrown⟩
  · exact hs.parameters.leastM_le.trans (le_capacityAt _ _ _)
  · rw [hgrown.free_eq, hfull, Nat.zero_add]

/-- A full sketch of one level with four slots, in a region that is too short for another level. The
server hands out a region that is long enough, and three slots open, because the new level 0 is
narrower than the old one. -/
theorem exists_addEmptyTopLevel_eq_done_of_full_region :
    ∃ r r' : Session Xorshift Int32, r.Reachable ∧ r.sketch.levels = [0, 4] ∧
      (∃ b, r.sketch.backing = some b ∧ b.region.size < r.sketch.enlargedSize) ∧
      r.addEmptyTopLevel = .done r' ∧ r'.sketch.levels = [3, 7, 7] ∧
      r'.sketch.levelItems 0 = r.sketch.levelItems 0 := by
  have hopened : (Sketch.wrapInRegion #[5, 3, 15, 0, 4, 0, 2, 0, 4, 0, 0, 0, 0, 0, 0, 0, 4, 0, 1, 0,
      0, 0, 0, 0, 4, 0, 0, 0, 5, 0, 0, 0, 8, 0, 0, 0,
      8, 0, 0, 0, 6, 0, 0, 0, 7, 0, 0, 0, 5, 0, 0, 0]
      RegionServer.exact).toOption.map (fun s : Sketch Int32 =>
        (s.k, s.m, s.levels, s.readOnly, s.enlargedSize)) = some (4, 2, [0, 4], false, 68) := by
    decide +kernel
  obtain ⟨s, hs, hopened⟩ := Option.map_eq_some_iff.mp hopened
  simp only [Prod.mk.injEq] at hopened
  obtain ⟨hk, hm, hlevels, hwritable, hsize⟩ := hopened
  have hwrap := toOption_eq_some_iff.mp hs
  have hreachable : (begin s (Xorshift.ofSeed 1)).Reachable :=
    ⟨s, _, [], .wrapInRegion hwrap, .start⟩
  obtain ⟨_, _, -, -, -, hs'⟩ := Sketch.wrapInRegion_eq_ok_iff.mp hwrap
  have hbacking := congrArg Sketch.backing hs'
  have hnumLevels : s.numLevels = 1 := by rw [Sketch.numLevels, hlevels, List.length_cons]; rfl
  have hrequest : s.RequestSucceeds := by
    apply Sketch.requestSucceeds_of_satisfies (by rw [hsize]; decide)
    intro b hb
    rw [hbacking, Option.some.injEq] at hb
    rw [← hb]
    exact RegionServer.satisfies_exact
  obtain ⟨r', delta, hdone, hdelta, -, -, hgrown⟩ := hreachable.exists_addEmptyTopLevel_eq_done
    (by rw [begin, Sketch.free, hlevels, List.headD_cons]) hwritable
    (by rw [begin, hnumLevels]; decide) hrequest
  have hdelta' : levelCapacity 4 2 0 2 = .ok 3 := by decide +kernel
  rw [begin, hk, hm, hnumLevels, hdelta', Except.ok.injEq] at hdelta
  rw [← hdelta] at hgrown
  refine ⟨begin s _, r', hreachable, hlevels, ⟨_, hbacking, ?_⟩, hdone, ?_, ?_⟩
  · rw [begin, hsize]
    decide
  · rw [hgrown.levels_eq, begin, Sketch.capacity, hlevels]
    rfl
  · exact hgrown.levelItems_eq 0

end Session

end QuantileSketch
