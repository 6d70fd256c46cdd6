import QuantileSketch.Item.Integer
import QuantileSketch.Proofs.Servers

/-!
# When commands are refused

Besides commands on sketches that are read only there is one reason to refuse a command: the sketch
has to grow by a level and cannot. Either it has all the levels that there can be, or its region is
too short for the larger image and the server does not hand out one that is long enough
(`grow_eq_refused_iff`). An item makes the sketch grow if there is no free slot and the lowest level
at its capacity is the top level (`Sketch.MustGrow`).

Whatever the reason, nothing has happened to the sketch, to its region or to the coin
(`Reachable.refused_iff`).
-/

namespace QuantileSketch

/-! ### Requests -/

namespace Backing

/-- A backing whose server answers the next request by an error or by too short a region. -/
def Denies (required : ℕ) (b : Backing) : Prop :=
  (∃ reason, b.server b.requests b.region required = .error (.refused reason)) ∨
    ∃ answer, b.server b.requests b.region required = .ok answer ∧ answer.size < required

variable {b : Backing} {required : ℕ}

/-- A region that is handed out is accepted if it is long enough. -/
lemma request_of_ok {answer : Bytes}
    (h : b.server b.requests b.region required = .ok answer) :
    b.request required = if required ≤ answer.size then .ok answer
      else .error (.refused (Cause.shortBuffer required answer.size).error) := by
  unfold request
  rw [h]
  by_cases hlong : required ≤ answer.size
  · rw [if_pos hlong]
    dsimp only
    rw [Cause.unless, if_pos hlong]
    rfl
  · rw [if_neg hlong]
    dsimp only
    rw [Cause.unless, if_neg hlong]
    rfl

/-- A request is refused if the server denies it. -/
lemma request_eq_refused_iff :
    (∃ error, b.request required = .error (.refused error)) ↔ b.Denies required := by
  unfold Denies
  rcases hserver : b.server b.requests b.region required with (reason | abort) | answer
  · simp [request, hserver]
  · simp [request, hserver]
  · rw [request_of_ok hserver]
    by_cases hlong : required ≤ answer.size
    · simp [hlong]
    · simp [hlong, not_le.mp hlong]

end Backing

namespace Sketch

variable {α : Type} [Item α]

/-- A sketch whose region is too short for growth by a level, and whose server does not help. -/
def RequestFails (s : Sketch α) : Prop :=
  ∃ b, s.backing = some b ∧ b.region.size < s.enlargedSize ∧ b.Denies s.enlargedSize

/-- A sketch without a region never asks for one. -/
lemma not_requestFails_of_backing_eq_none {s : Sketch α} (h : s.backing = none) :
    ¬s.RequestFails := by
  rintro ⟨b, hb, -⟩
  rw [h] at hb
  cases hb

end Sketch

namespace Session

variable {γ α : Type} {r r' : Session γ α} {free : ℕ} {populations : List ℕ}

/-- What a refused command leaves: the same sketch but for the count of requests, the same region
and the same coin. -/
lemma Unchanged.same (h : r.Unchanged r') :
    r'.sketch = { r.sketch with backing := r'.sketch.backing } ∧
      r'.sketch.region? = r.sketch.region? ∧ r'.coin = r.coin := by
  rcases h.sketch_eq with hsketch | ⟨b, hb, hsketch⟩
  · rw [hsketch]
    exact ⟨rfl, rfl, h.coin_eq⟩
  · rw [hsketch, Sketch.region?, Sketch.region?, hb]
    exact ⟨rfl, rfl, h.coin_eq⟩

/-- Room is refused if it has to be asked for and the server denies it. -/
lemma reserve_eq_refused_iff {required : ℕ} :
    (∃ error r', r.reserve required = .refused error r') ↔
      ∃ b, r.sketch.backing = some b ∧ b.region.size < required ∧ b.Denies required := by
  unfold reserve
  split
  · rename_i hnone
    simp [hnone]
  rename_i b hb
  have hbacking : (∃ b, r.sketch.backing = some b ∧ b.region.size < required ∧ b.Denies required) ↔
      b.region.size < required ∧ b.Denies required := by
    simp [hb]
  rw [hbacking]
  split
  · rename_i hroom
    simp [not_lt.mpr hroom]
  rename_i hshort
  rw [← Backing.request_eq_refused_iff]
  dsimp only
  split
  · rename_i error hrequest
    simp [hrequest, not_le.mp hshort]
  · rename_i abort hrequest
    simp [hrequest]
  · rename_i region hrequest
    simp [hrequest, change_ne_refused]

variable [Item α]

/-- The growth of a full sketch is refused if there are no more levels or there is no room. -/
theorem grow_eq_refused_iff (hs : r.sketch.HasShape 0 populations) :
    (∃ error r', r.grow = .refused error r') ↔
      r.sketch.numLevels = maxLevels ∨ r.sketch.RequestFails := by
  have hfree : ¬r.sketch.free ≠ 0 := not_not.mpr hs.free_eq
  have hsize : ¬r.sketch.items.size ≠ r.sketch.capacity :=
    not_not.mpr (hs.size_eq.trans hs.capacity_eq.symm)
  have hle : r.sketch.numLevels ≤ maxLevels := hs.numLevels_eq.trans_le hs.length_le
  unfold grow
  dsimp only
  rw [if_neg hfree, if_neg hsize]
  by_cases htop : maxLevels ≤ r.sketch.numLevels
  · simp [Nat.le_antisymm hle htop]
  have hbelow : populations.length < maxLevels := by
    rw [← hs.numLevels_eq]
    exact not_le.mp htop
  have hsize' := hs.imageSize_grown hbelow
  rw [Sketch.imageSize_true] at hsize'
  rw [if_neg htop, hs.enlarged_eq_ok hbelow]
  dsimp only
  rw [hsize', or_iff_right (not_le.mp htop).ne, Sketch.RequestFails, ← reserve_eq_refused_iff]
  simp only [Outcome.andThen_eq_refused_iff, change_ne_refused, and_false, exists_false, or_false]

/-- Adding a level is refused if the sketch is read only, has free slots or cannot grow. -/
theorem addEmptyTopLevel_eq_refused_iff (hs : r.sketch.HasShape free populations) :
    (∃ error r', r.addEmptyTopLevel = .refused error r') ↔
      r.sketch.readOnly = true ∨ r.sketch.free ≠ 0 ∨ r.sketch.numLevels = maxLevels ∨
        r.sketch.RequestFails := by
  unfold addEmptyTopLevel
  by_cases hreadOnly : r.sketch.readOnly = true
  · simp [hreadOnly]
  by_cases hfree : r.sketch.free = 0
  · have hshape := hs.of_free_eq_zero hfree
    simp [hreadOnly, hfree, grow_eq_refused_iff hshape]
  · simp [hreadOnly, hfree]

variable [Coin γ]

/-- Freeing slots is refused if the sketch must grow and cannot. -/
theorem compress_eq_refused_iff (hs : r.sketch.HasShape 0 populations) :
    (∃ error r', r.compress = .refused error r') ↔
      r.sketch.MustGrow ∧ (r.sketch.numLevels = maxLevels ∨ r.sketch.RequestFails) := by
  obtain ⟨lower, here, upper, hsplit, hfull, -, -, -⟩ := hs.exists_full
  have hlength : r.sketch.numLevels = lower.length + (upper.length + 1) := by
    rw [hs.numLevels_eq, hsplit, List.length_append, List.length_cons]
  unfold compress Sketch.MustGrow
  dsimp only
  rw [hs.free_eq, hfull]
  by_cases htop : lower.length + 1 = r.sketch.numLevels
  · have hlevel : lower.length = r.sketch.numLevels - 1 := by omega
    dsimp only
    rw [if_pos htop, ← hlevel, ← grow_eq_refused_iff hs]
    simp only [Outcome.andThen_eq_refused_iff, compact_ne_refused, and_false, exists_false,
      or_false, and_self, true_and]
  · have hlevel : lower.length ≠ r.sketch.numLevels - 1 := by omega
    simp [htop, hlevel, compact_ne_refused]

/-- Feeding is refused if the sketch is read only, or if the item is a number and the sketch must
grow and cannot. -/
theorem update_eq_refused_iff (x : α) (hs : r.sketch.HasShape free populations) :
    (∃ error r', r.update x = .refused error r') ↔
      r.sketch.readOnly = true ∨
        Item.isNaN x = false ∧ r.sketch.MustGrow ∧
          (r.sketch.numLevels = maxLevels ∨ r.sketch.RequestFails) := by
  unfold update
  by_cases hreadOnly : r.sketch.readOnly = true
  · simp [hreadOnly]
  by_cases hnan : Item.isNaN x = true
  · simp [hreadOnly, hnan]
  by_cases hfree : r.sketch.free = 0
  · have hshape := hs.of_free_eq_zero hfree
    have hcompress := compress_eq_refused_iff hshape
    simp only [if_neg hreadOnly, if_neg hnan, if_pos hfree, Outcome.andThen_eq_refused_iff,
      change_ne_refused, and_false, exists_false, or_false, hcompress]
    simp [hreadOnly, hnan]
  · simp [hreadOnly, hnan, hfree, Sketch.MustGrow, change_ne_refused]

/-- Feeding an item to a reachable sketch is refused exactly if the sketch is read only, or the item
is a number, there is no free slot, the lowest level at its capacity is the top level, and either
there are no more levels or the region is too short for the image of a larger sketch and the server
denies a longer one. Adding a level is refused exactly if the sketch is read only, has free slots or
cannot grow in this sense. A command that is refused leaves the sketch, its region and the coin as
they were. -/
theorem Reachable.refused_iff (h : r.Reachable) :
    (∀ x, (∃ error r', r.update x = .refused error r') ↔
      r.sketch.readOnly = true ∨
        Item.isNaN x = false ∧ r.sketch.MustGrow ∧
          (r.sketch.numLevels = maxLevels ∨ r.sketch.RequestFails)) ∧
    ((∃ error r', r.addEmptyTopLevel = .refused error r') ↔
      r.sketch.readOnly = true ∨ r.sketch.free ≠ 0 ∨ r.sketch.numLevels = maxLevels ∨
        r.sketch.RequestFails) ∧
    ∀ c error r', r.perform c = .refused error r' →
      r'.sketch = { r.sketch with backing := r'.sketch.backing } ∧
        r'.sketch.region? = r.sketch.region? ∧ r'.coin = r.coin := by
  obtain ⟨free, populations, hs⟩ := h.wellFormed
  refine ⟨?_, addEmptyTopLevel_eq_refused_iff hs, ?_⟩
  · intro x
    exact update_eq_refused_iff x hs
  · intro c error r' hrefused
    exact (perform_eq_refused hrefused).same

/-- A full sketch in a region without room for growth, whose server refuses everything: neither is
another item taken nor a level added. -/
theorem refused_of_full_region :
    ∃ r : Session Xorshift Int32, r.Reachable ∧ r.sketch.n = 4 ∧
      (∃ error r', r.update 6 = .refused error r' ∧
        r'.sketch.region? = r.sketch.region? ∧ r'.coin = r.coin) ∧
      ∃ error r', r.addEmptyTopLevel = .refused error r' := by
  let reason : Error := .ofMessage .reallocationFailed "no larger region"
  let server : RegionServer := fun _ _ _ => .error (.refused reason)
  have hrun : ((Sketch.newInRegion 4 2 (Array.replicate 52 9) server).toOption.bind
      fun s : Sketch Int32 => performAll ([5, 7, 8, 1].map .update)
        (begin s (Xorshift.ofSeed 1))).map (fun r =>
          (r.sketch.n, r.sketch.free, r.sketch.numLevels, r.sketch.enlargedSize,
            r.sketch.region?.map Array.size)) = some (4, 0, 1, 68, some 52) := by
    decide +kernel
  obtain ⟨r, hr, hstate⟩ := Option.map_eq_some_iff.mp hrun
  obtain ⟨s, hs, hr⟩ := Option.bind_eq_some_iff.mp hr
  simp only [Prod.mk.injEq] at hstate
  obtain ⟨hn, hfree, hlevels, henlarged, hregion⟩ := hstate
  have hconstructed : s.Constructed := .newInRegion (toOption_eq_some_iff.mp hs)
  have hrun := run_of_performAll hr
  have hreachable : r.Reachable := ⟨s, _, _, .constructed hconstructed, hrun⟩
  -- the region and the server are still those of the beginning
  have hserver := hrun.server_eq hconstructed.wellFormed
  obtain ⟨region', hs₀⟩ := Sketch.newInRegion_eq (toOption_eq_some_iff.mp hs)
  rw [Sketch.region?, Option.map_map] at hregion
  obtain ⟨b, hb, hsize⟩ := Option.map_eq_some_iff.mp hregion
  have hb' : b.server = server := by
    rw [hb, hs₀] at hserver
    exact Option.some.inj hserver
  have hfails : r.sketch.RequestFails := by
    refine ⟨b, hb, ?_, .inl ⟨reason, ?_⟩⟩
    · rw [henlarged]
      exact hsize.trans_lt (by decide)
    · rw [hb']
  -- the only level of a full sketch is full
  obtain ⟨free, populations, hshape⟩ := hreachable.wellFormed
  rw [hshape.free_eq] at hfree
  obtain ⟨lower, here, upper, rfl, hfull, -⟩ := (hfree ▸ hshape).exists_full
  have hlength := hshape.numLevels_eq.symm.trans hlevels
  rw [List.length_append, List.length_cons] at hlength
  have htop : lower.length = r.sketch.numLevels - 1 := by omega
  rw [htop] at hfull
  obtain ⟨hupdate, hadd, hsame⟩ := hreachable.refused_iff
  obtain ⟨error, r', hrefused⟩ :=
    (hupdate 6).mpr (.inr ⟨rfl, ⟨hshape.free_eq.trans hfree, hfull⟩, .inr hfails⟩)
  obtain ⟨-, hregion', hcoin⟩ := hsame (.update 6) error r' hrefused
  exact ⟨r, hreachable, hn, ⟨error, r', hrefused, hregion', hcoin⟩,
    hadd.mpr (.inr (.inr (.inr hfails)))⟩

end Session

end QuantileSketch
