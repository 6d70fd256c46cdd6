import QuantileSketch.Proofs.Room

/-!
# Commands always come to an end

A command on a reachable sketch is done or refused, but never aborts, as long as the stream can
become longer and all items in the sketch are numbers (`Reachable.command_completes`). Whatever the
server answers, it only has to answer.

A full sketch has a level to compact because the populations cannot all be below the capacities
(`HasShape.exists_full`). This level holds at least two items, so that its compaction frees a slot.
All positions are words because there are not many slots, and all writing to the region stays inside
because the region has room for the image.
-/

namespace QuantileSketch

/-- A server that answers every request for a number of bytes that is a word of 32 bits, by a region
or by an error. -/
def RegionServer.Answers (server : RegionServer) : Prop :=
  ∀ i region required abort, required < wordBound 32 →
    server i region required ≠ .error (.aborted abort)

/-- A server that answers every such request by a region that is long enough. -/
def RegionServer.Satisfies (server : RegionServer) : Prop :=
  ∀ i region required, required < wordBound 32 →
    ∃ answer, server i region required = .ok answer ∧ required ≤ answer.size

/-- A server that satisfies every request answers it. -/
lemma RegionServer.Satisfies.answers {server : RegionServer} (h : server.Satisfies) :
    server.Answers := by
  intro i region required abort hrequired habort
  obtain ⟨answer, hanswer, -⟩ := h i region required hrequired
  rw [habort] at hanswer
  cases hanswer

/-- The server that returns just what is required satisfies every request. -/
lemma RegionServer.satisfies_exact : RegionServer.exact.Satisfies := by
  intro i region required hrequired
  have hsize : required < wordBound 63 := hrequired.trans (by decide)
  have hfilled : filled required 0 = .ok (Array.replicate required 0) :=
    filled_eq_ok_iff.mpr ⟨hsize, rfl⟩
  refine ⟨Array.replicate required 0, ?_, Array.size_replicate.ge⟩
  rw [RegionServer.exact, hfilled]
  rfl

/-- The server that returns just what is required answers. -/
lemma RegionServer.answers_exact : RegionServer.exact.Answers := satisfies_exact.answers

namespace Outcome

variable {σ : Type} {outcome : Outcome σ} {next : σ → Outcome σ}

/-- A step that is done or refused. -/
def Completes (outcome : Outcome σ) : Prop :=
  (∃ state, outcome = .done state) ∨ ∃ error state, outcome = .refused error state

/-- Two steps that come to an end one after the other. -/
lemma Completes.andThen (h : outcome.Completes)
    (hnext : ∀ state, outcome = .done state → (next state).Completes) :
    (outcome.andThen next).Completes := by
  rcases h with ⟨state, rfl⟩ | ⟨error, state, rfl⟩
  · exact hnext state rfl
  · exact .inr ⟨error, state, rfl⟩

end Outcome

namespace Sketch

variable {α : Type} [Item α]

/-- A sketch in whose levels there is nothing but numbers. -/
def HoldsNumbers (s : Sketch α) : Prop := Item.AllNumbers s.retained.toList

/-- A sketch whose region has room for growth by a level or whose server answers. -/
def CanReserve (s : Sketch α) : Prop :=
  ∀ b, s.backing = some b → s.enlargedSize ≤ b.region.size ∨ b.server.Answers

/-- A sketch without a region does not need room. -/
lemma canReserve_of_backing_eq_none {s : Sketch α} (h : s.backing = none) : s.CanReserve := by
  intro b hb
  rw [h] at hb
  cases hb

/-- All levels hold numbers only. -/
lemma Represents.holdsNumbers_iff {s : Sketch α} {slack : List α} {runs : List (List α)}
    (h : s.Represents slack runs) : s.HoldsNumbers ↔ ∀ run ∈ runs, Item.AllNumbers run := by
  rw [HoldsNumbers, h.retained_eq]
  simp only [Item.AllNumbers, List.mem_flatten, forall_exists_index, and_imp]
  exact ⟨fun hall run hrun x hx => hall x run hrun hx, fun hall x run hrun hx => hall run hrun x hx⟩

/-- A sketch with sorted levels holds numbers only. -/
lemma Ordered.holdsNumbers {s : Sketch α} (h : s.Ordered) : s.HoldsNumbers := by
  obtain ⟨slack, runs, hrepresents, hordered⟩ := h
  exact hrepresents.holdsNumbers_iff.mpr hordered.allNumbers

variable {s : Sketch α} {free : ℕ} {populations : List ℕ}

/-- A region with room for the image has room for the preamble. -/
lemma Fits.dataAt_le_size {b : Backing} (hfits : s.Fits) (hs : s.HasShape free populations)
    (hb : s.backing = some b) : Format.dataAt ≤ b.region.size :=
  hs.dataAt_le_imageSize.trans (hfits b hb)

/-- Writing the whole image succeeds if there is room for it. -/
lemma exists_sync_eq_ok (hs : s.HasShape free populations) (hfits : s.Fits) :
    ∃ s', s.sync = .ok s' := by
  rcases hb : s.backing with _ | b
  · exact ⟨s, sync_eq_ok_iff.mpr (.inl ⟨hb, rfl⟩)⟩
  · exact ⟨_, sync_eq_ok_iff.mpr (.inr ⟨b, hb, hfits b hb, hs.length_updatableBytes, rfl⟩)⟩

/-- Writing an insertion succeeds if there is room for the image. -/
lemma exists_writeInsertion_eq_ok {here : ℕ} {upper : List ℕ}
    (hs : s.HasShape free ((here + 1) :: upper)) (hfits : s.Fits) (x : α) :
    ∃ s', s.writeInsertion x = .ok s' := by
  rcases hb : s.backing with _ | b
  · exact ⟨s, writeInsertion_eq_ok_iff.mpr (.inl ⟨hb, rfl⟩)⟩
  · exact ⟨_, writeInsertion_eq_ok_iff.mpr (.inr ⟨b, hb,
      hs.fullImageSize_le_imageSize.trans (hfits b hb),
      fun field hfield => (hs.field_le_imageSize x field hfield).trans (hfits b hb), rfl⟩)⟩

/-- The compaction of a level of numbers succeeds. -/
lemma exists_compact_eq_ok {lower upper : List ℕ} {here above : ℕ} (bit : Bool)
    (hs : s.HasShape free (lower ++ here :: above :: upper)) (hhere : 2 ≤ here)
    (hnumbers : s.HoldsNumbers) :
    ∃ s', s.compact (spanAt free lower here above) bit = .ok s' := by
  obtain ⟨slack, runs, hrepresents, -, -⟩ := hs.exists_represents
  obtain ⟨lower', upper', here', above', rfl, rfl, rfl, rfl, rfl⟩ := hs.exists_runs hrepresents
  have hpairs : Item.AllNumbers (here'.drop (here'.length % 2)) :=
    (hrepresents.holdsNumbers_iff.mp hnumbers here' (by simp)).sublist (List.drop_sublist _ _)
  obtain ⟨pairs, hordered, hperm⟩ := exists_orderedPairs lower'.length hpairs
  obtain ⟨levels, items, slack', -, hcompact, -⟩ :=
    compact_represents bit hrepresents hs.size_lt hhere hordered hperm.length_eq
  exact ⟨_, hcompact⟩

/-- A sketch can be made in a region that has room for its image. -/
lemma exists_newInRegion_eq_ok {k m : ℕ} {region : Bytes} (server : RegionServer)
    (h : ParametersValid k m) (hroom : updatableSize 1 k (Item.width α) ≤ region.size) :
    ∃ s : Sketch α, newInRegion k m region server = .ok s := by
  have hempty : HasShape { (empty k m : Sketch α) with backing := some { region, server } } k [0] :=
    (empty_shape h).setBacking _
  have hfits : Fits { (empty k m : Sketch α) with backing := some { region, server } } := by
    intro b hb
    cases hb
    exact hroom
  obtain ⟨s, hs⟩ := exists_sync_eq_ok hempty hfits
  exact ⟨s, newInRegion_eq_ok_iff.mpr ⟨h, hroom, hs⟩⟩

end Sketch

namespace Session

variable {γ α : Type} {r r' : Session γ α}

/-- Replacing the sketch comes to an end if the new one can be computed. -/
lemma completes_change {f : Sketch α → Except Abort (Sketch α)}
    (h : ∃ s, f r.sketch = .ok s) : (r.change f).Completes := by
  obtain ⟨s, hs⟩ := h
  exact .inl ⟨⟨s, r.coin, r.log⟩, change_eq_done_iff.mpr ⟨hs, rfl, rfl⟩⟩

/-- A request aborts only if the server does. -/
lemma server_eq_aborted {b : Backing} {required : ℕ} {abort : Abort}
    (h : b.request required = .error (.aborted abort)) :
    b.server b.requests b.region required = .error (.aborted abort) := by
  unfold Backing.request at h
  split at h
  · cases h
  · rename_i abort' hserver
    cases h
    exact hserver
  · rename_i region hserver
    by_cases hlong : required ≤ region.size
    · rw [Cause.unless, if_pos hlong] at h
      cases h
    · rw [Cause.unless, if_neg hlong] at h
      cases h

/-- A long enough region can be installed. -/
lemma exists_installRegion_eq_ok {region : Bytes} {s : Sketch α} {b : Backing}
    (hb : s.backing = some b) (hpreamble : Format.dataAt ≤ b.region.size)
    (hregion : Format.dataAt ≤ region.size) : ∃ s', installRegion region s = .ok s' := by
  have hwindow := Bytes.length_window_le b.region 0 Format.dataAt
  exact ⟨_, Sketch.mapRegion_eq_ok_iff.mpr (.inr ⟨b, _, hb,
    bind_eq_ok_iff.mpr ⟨(), require_eq_ok_iff.mpr hpreamble,
      splice_eq_ok_iff.mpr ⟨by omega, rfl⟩⟩, rfl⟩)⟩

/-- A reservation comes to an end if there is enough room or the server answers. -/
lemma reserve_completes {required : ℕ} (hrequired : required < wordBound 32)
    (hpreamble : Format.dataAt ≤ required)
    (hregion : ∀ b, r.sketch.backing = some b → Format.dataAt ≤ b.region.size)
    (hserver : ∀ b, r.sketch.backing = some b → required ≤ b.region.size ∨ b.server.Answers) :
    (r.reserve required).Completes := by
  unfold reserve
  split
  · exact .inl ⟨r, rfl⟩
  rename_i b hb
  split
  · exact .inl ⟨r, rfl⟩
  rename_i hshort
  have hanswers : b.server.Answers := (hserver b hb).resolve_left hshort
  dsimp only
  split
  · exact .inr ⟨_, _, rfl⟩
  · rename_i abort hrequest
    exact absurd (server_eq_aborted hrequest) (hanswers _ _ _ abort hrequired)
  · rename_i region hrequest
    obtain ⟨-, hlong⟩ := request_eq_ok_iff.mp hrequest
    exact completes_change (exists_installRegion_eq_ok rfl (hregion b hb) (hpreamble.trans hlong))

variable [Item α] {free : ℕ} {populations : List ℕ}

/-- Once room has been reserved for an image it can be written. -/
lemma exists_sync_of_reserve {s : Sketch α} {reserved : Session γ α}
    (hs : s.HasShape free populations) (h : r.reserve (s.imageSize true) = .done reserved) :
    ∃ s', Sketch.sync { s with backing := reserved.sketch.backing } = .ok s' := by
  obtain ⟨backing, hbacking, hsketch, -, -⟩ := reserve_eq_done h
  have hreserved : reserved.sketch.backing = backing := by rw [hsketch]
  apply Sketch.exists_sync_eq_ok (hs.setBacking _)
  intro b hb
  exact hbacking.le_size (hreserved.symm.trans hb)

/-- Growth of a full sketch comes to an end if the server answers. -/
lemma grow_completes (hs : r.sketch.HasShape 0 populations) (hfits : r.sketch.Fits)
    (hserver : r.sketch.CanReserve) : r.grow.Completes := by
  have hfree : ¬r.sketch.free ≠ 0 := not_not.mpr hs.free_eq
  have hsize : ¬r.sketch.items.size ≠ r.sketch.capacity :=
    not_not.mpr (hs.size_eq.trans hs.capacity_eq.symm)
  unfold grow
  dsimp only
  rw [if_neg hfree, if_neg hsize]
  split
  · exact .inr ⟨_, _, rfl⟩
  rename_i hlevels
  rw [not_le] at hlevels
  rw [hs.numLevels_eq] at hlevels
  rw [hs.enlarged_eq_ok hlevels]
  have hgrown := hs.grown hlevels
  rw [Sketch.CanReserve, ← hs.imageSize_grown hlevels] at hserver
  have hreserves := reserve_completes hgrown.imageSize_lt hgrown.dataAt_le_imageSize
    (fun b hb => hfits.dataAt_le_size hs hb) hserver
  apply hreserves.andThen
  intro reserved hreserve
  have hsync := exists_sync_of_reserve hgrown hreserve
  exact completes_change hsync

/-- Growth does not touch the items of the levels. -/
lemma grow_holdsNumbers (h : r.grow = .done r') (hs : r.sketch.HasShape free populations)
    (hnumbers : r.sketch.HoldsNumbers) : r'.sketch.HoldsNumbers := by
  obtain ⟨slack, runs, hrepresents, -, -⟩ := hs.exists_represents
  have hrepresents' : r'.sketch.Represents (List.replicate r.growth Item.filler ++ slack)
      (runs ++ [[]]) := by
    rw [grow_sketch_eq hs h]
    exact (Sketch.grown_represents r.growth hrepresents).congr rfl rfl
  rw [hrepresents'.holdsNumbers_iff]
  intro run hrun
  rcases List.mem_append.mp hrun with hrun | hrun
  · exact hrepresents.holdsNumbers_iff.mp hnumbers run hrun
  · rw [List.mem_singleton.mp hrun]
    exact Item.allNumbers_nil

/-- Adding a level comes to an end. -/
lemma addEmptyTopLevel_completes (hs : r.sketch.HasShape free populations) (hfits : r.sketch.Fits)
    (hserver : r.sketch.CanReserve) : r.addEmptyTopLevel.Completes := by
  unfold addEmptyTopLevel
  split
  · exact .inr ⟨_, _, rfl⟩
  rw [hs.free_eq]
  split
  · exact .inr ⟨_, _, rfl⟩
  rename_i hfree
  rw [not_not] at hfree
  subst hfree
  exact grow_completes hs hfits hserver

variable [Coin γ]

/-- The compaction of a level of numbers comes to an end. -/
lemma compact_completes {lower upper : List ℕ} {here above : ℕ}
    (hs : r.sketch.HasShape free (lower ++ here :: above :: upper)) (hhere : 2 ≤ here)
    (hnumbers : r.sketch.HoldsNumbers) : (r.compact lower.length).Completes := by
  unfold compact
  rw [Sketch.span_eq_ok hs.levels_eq]
  exact completes_change (Sketch.exists_compact_eq_ok _ hs hhere hnumbers)

/-- Freeing slots of a full sketch of numbers comes to an end if there is room for growth, should it
come to that, or the server answers. -/
lemma compress_completes (hs : r.sketch.HasShape 0 populations) (hfits : r.sketch.Fits)
    (hnumbers : r.sketch.HoldsNumbers)
    (hserver : r.sketch.MustGrow → r.sketch.CanReserve) : r.compress.Completes := by
  obtain ⟨lower, here, upper, rfl, hfull, hhere, -, -⟩ := hs.exists_full
  unfold compress
  dsimp only
  rw [hfull]
  dsimp only
  rw [hs.numLevels_eq]
  rcases upper with _ | ⟨above, upper⟩
  · -- the top level is full, and the new one takes its items
    have htop : lower.length + 1 = (lower ++ [here]).length := by simp
    have hmust : r.sketch.MustGrow := by
      refine ⟨hs.free_eq, ?_⟩
      rw [hfull, hs.numLevels_eq, ← htop, Nat.add_sub_cancel]
    rw [if_pos htop]
    apply (grow_completes hs hfits (hserver hmust)).andThen
    intro between hgrow
    have hshape := (grow_shape hs hgrow).2
    rw [List.append_assoc] at hshape
    exact compact_completes hshape hhere (grow_holdsNumbers hgrow hs hnumbers)
  · have hbelow : ¬lower.length + 1 = (lower ++ here :: above :: upper).length := by
      rw [List.length_append, List.length_cons, List.length_cons]
      omega
    rw [if_neg hbelow]
    exact compact_completes hs hhere hnumbers

/-- Once slots have been freed there is still room for the image. -/
lemma compress_fits (hs : r.sketch.HasShape 0 populations) (hfits : r.sketch.Fits)
    (h : r.compress = .done r') : r'.sketch.Fits := by
  obtain ⟨between, free, lower, here, above, upper, hbetween, hshape, -, hcompact⟩ :=
    compress_shape hs h
  rcases hbetween with rfl | ⟨-, hgrow⟩
  · exact compact_fits hshape hfits hcompact
  · exact compact_fits hshape (grow_fits hgrow) hcompact

/-- Freeing slots does not change the length of the stream. -/
lemma compress_n (hs : r.sketch.HasShape 0 populations) (h : r.compress = .done r') :
    r'.sketch.n = r.sketch.n := by
  obtain ⟨-, -, -, hn⟩ := (Changes.start.compress hs h).parameters_eq
  rwa [List.length_nil, Nat.add_zero] at hn

/-- Feeding comes to an end if a number can make the stream longer. -/
lemma update_completes (x : α) (hs : r.sketch.HasShape free populations) (hfits : r.sketch.Fits)
    (hn : Item.isNaN x = false → r.sketch.n < maxWord64) (hnumbers : r.sketch.HoldsNumbers)
    (hserver : r.sketch.MustGrow → r.sketch.CanReserve) : (r.update x).Completes := by
  unfold update
  split
  · exact .inr ⟨_, _, rfl⟩
  split
  · exact .inl ⟨_, rfl⟩
  rename_i hnumber
  replace hn : r.sketch.n < maxWord64 := hn (by simpa using hnumber)
  rw [hs.free_eq]
  split
  · rename_i hfree
    subst hfree
    apply (compress_completes hs hfits hnumbers hserver).andThen
    intro between hcompress
    obtain ⟨free', populations', hshape, hfree'⟩ := compress_freed hs hcompress
    have hfits' := compress_fits hs hfits hcompress
    have hinsert := hshape.insert_eq_ok x hfree' ((compress_n hs hcompress).trans_lt hn)
    obtain ⟨_, _, _, -, -, -, hinserted⟩ := hshape.inserted hinsert
    obtain ⟨s, hsync⟩ := Sketch.exists_sync_eq_ok hinserted (hfits'.insert hshape hinsert)
    exact completes_change ⟨s, bind_eq_ok_iff.mpr ⟨_, hinsert, hsync⟩⟩
  · rename_i hfree
    have hinsert := hs.insert_eq_ok x (Nat.pos_of_ne_zero hfree) hn
    obtain ⟨_, _, _, -, -, -, hinserted⟩ := hs.inserted hinsert
    obtain ⟨s, hwrite⟩ :=
      Sketch.exists_writeInsertion_eq_ok hinserted (hfits.insert hs hinsert) x
    exact completes_change ⟨s, bind_eq_ok_iff.mpr ⟨_, hinsert, hwrite⟩⟩

/-- A run of a sketch with sorted levels only ever holds numbers. -/
lemma Run.holdsNumbers {r₀ : Session γ α} {taken : List (Command α)} (h : r₀.Run taken r)
    (hwf : r₀.sketch.WellFormed) (hordered : r₀.sketch.Ordered) : r.sketch.HoldsNumbers :=
  ((h.changes hwf).ordered hwf hordered).holdsNumbers

/-- Every command comes to an end. -/
lemma perform_completes (c : Command α) (hs : r.sketch.HasShape free populations)
    (hfits : r.sketch.Fits) (hn : r.sketch.n < maxWord64) (hnumbers : r.sketch.HoldsNumbers)
    (hserver : ∀ b, r.sketch.backing = some b → b.server.Answers) : (r.perform c).Completes := by
  have hreserve : r.sketch.CanReserve := fun b hb => .inr (hserver b hb)
  cases c with
  | update x => exact update_completes x hs hfits (fun _ => hn) hnumbers fun _ => hreserve
  | addEmptyTopLevel => exact addEmptyTopLevel_completes hs hfits hreserve

/-- No command on a reachable sketch aborts if the stream can become longer, all items in the sketch
are numbers and the server answers. A full sketch has a level to compact, and once it has been
compacted there is a free slot. The region always has room for the image. Shrinking has an answer at
every depth, and no bits of its products get lost; so every level has a capacity, whatever their
number. -/
theorem Reachable.command_completes (h : r.Reachable) (hn : r.sketch.n < maxWord64)
    (hnumbers : r.sketch.HoldsNumbers)
    (hserver : ∀ b, r.sketch.backing = some b → b.server.Answers) :
    (∀ c, (r.perform c).Completes) ∧
      (r.sketch.free = 0 → ∃ level < r.sketch.numLevels,
        firstFullLevel r.sketch.k r.sketch.m r.sketch.numLevels r.sketch.levels =
          .ok (some level)) ∧
      (r.sketch.free = 0 → ∀ r', r.compress = .done r' → 0 < r'.sketch.free) ∧
      (∀ b, r.sketch.backing = some b → r.sketch.imageSize true ≤ b.region.size) ∧
      (∀ k ≤ r.sketch.k, ∀ depth, (∃ width, shrinkWord k depth = .ok width ∧ width ≤ k) ∧
        (depth ≤ maxUnfoldedDepth → shiftWord 64 (2 * k) depth = .ok (2 * k * 2 ^ depth))) ∧
      ∀ numLevels ≤ maxLevels, ∀ level < numLevels, ∃ capacity,
        levelCapacity r.sketch.k numLevels level r.sketch.m = .ok capacity ∧
          capacity ≤ r.sketch.k := by
  obtain ⟨free, populations, hs⟩ := h.wellFormed
  refine ⟨?_, ?_, ?_, h.fits, ?_, ?_⟩
  · intro c
    exact perform_completes c hs h.fits hn hnumbers hserver
  · intro hfree
    rw [hs.free_eq] at hfree
    subst hfree
    obtain ⟨lower, here, upper, rfl, hfull, -, -, -⟩ := hs.exists_full
    refine ⟨lower.length, ?_, hfull⟩
    rw [hs.numLevels_eq, List.length_append, List.length_cons]
    omega
  · intro hfree r' hcompress
    rw [hs.free_eq] at hfree
    subst hfree
    obtain ⟨free', populations', hshape, hfree'⟩ := compress_freed hs hcompress
    rw [hshape.free_eq]
    exact hfree'
  · intro k hk depth
    have hword : k < wordBound 16 := hk.trans_lt hs.parameters.k_lt
    exact ⟨⟨_, shrinkWord_eq_ok hword depth, shrink_le k depth⟩,
      fun hdepth => (shiftWord_product hword hdepth).2⟩
  · intro numLevels hlevels level hlevel
    exact ⟨_, levelCapacity_eq_ok hs.parameters.k_lt hlevels hlevel,
      capacityAt_le hs.parameters.m_le_k _⟩

/-- A full sketch of four items in a region that is too short for any growth. -/
theorem command_completes_of_full_region :
    ∃ r : Session Xorshift Int32, r.Reachable ∧ r.sketch.free = 0 ∧
      (∃ b, r.sketch.backing = some b ∧ b.region.size = r.sketch.imageSize true) ∧
      ∀ c : Command Int32, (r.perform c).Completes := by
  have hopened : (Sketch.wrapInRegion #[5, 3, 15, 0, 4, 0, 2, 0, 4, 0, 0, 0, 0, 0, 0, 0, 4, 0, 1, 0,
      0, 0, 0, 0, 4, 0, 0, 0, 5, 0, 0, 0, 8, 0, 0, 0,
      8, 0, 0, 0, 6, 0, 0, 0, 7, 0, 0, 0, 5, 0, 0, 0]
      RegionServer.exact).toOption.map (fun s : Sketch Int32 =>
        (s.free, s.n, s.imageSize true, s.retained.toList.any Item.isNaN)) =
          some (0, 4, 52, false) := by decide +kernel
  obtain ⟨s, hs, hopened⟩ := Option.map_eq_some_iff.mp hopened
  obtain ⟨hfree, hn, hsize, hnumbers⟩ : s.free = 0 ∧ s.n = 4 ∧ s.imageSize true = 52 ∧
      s.retained.toList.any Item.isNaN = false := by simpa using hopened
  have hwrap := toOption_eq_some_iff.mp hs
  have hreachable : (begin s (Xorshift.ofSeed 1)).Reachable :=
    ⟨s, _, [], .wrapInRegion hwrap, .start⟩
  obtain ⟨v, s', -, -, -, hs'⟩ := Sketch.wrapInRegion_eq_ok_iff.mp hwrap
  have hserver : ∀ b, s.backing = some b → b.server.Answers := by
    intro b hb
    rw [hs', Option.some.injEq] at hb
    rw [← hb]
    exact RegionServer.answers_exact
  have hword : s.n < maxWord64 := by
    rw [hn]
    decide
  have hholds : s.HoldsNumbers := fun x hx => by simpa using List.any_eq_false.mp hnumbers x hx
  have hcompletes := (hreachable.command_completes hword hholds hserver).1
  refine ⟨_, hreachable, hfree, ⟨_, congrArg Sketch.backing hs', ?_⟩, hcompletes⟩
  exact hsize.symm

end Session

end QuantileSketch
