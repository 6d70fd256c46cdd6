import QuantileSketch.Proofs.Capacity
import QuantileSketch.Proofs.Changes
import QuantileSketch.Proofs.Compaction

/-!
# Well-formed sketches

The shape of a sketch is the number of its free slots and the numbers of items in its levels. A
sketch is well formed if its boundaries are those of some shape that fills the total capacity of its
levels exactly, and if the levels stand for the whole stream (`HasShape`, `WellFormed`).

Every change of a sketch changes its shape in a known way: an insertion (`HasShape.inserted`),
growth (`HasShape.grown`) and a compaction (`HasShape.compacted`). A sketch without free slots has a
level that can be compacted (`HasShape.exists_full`).
-/

namespace QuantileSketch

namespace Sketch

variable {α : Type}

/-- A sketch with `free` free slots whose levels have the given numbers of items. -/
structure HasShape (s : Sketch α) (free : ℕ) (populations : List ℕ) : Prop where
  parameters : ParametersValid s.k s.m
  m_le_minK : s.m ≤ s.minK
  minK_le_k : s.minK ≤ s.k
  levels_eq : s.levels = boundaries free populations
  length_pos : 1 ≤ populations.length
  length_le : populations.length ≤ maxLevels
  /-- The slots are just those that the parameters ask for. -/
  room_eq : free + populations.sum = totalCapacity s.k s.m populations.length
  size_eq : s.items.size = free + populations.sum
  /-- The items stand for the whole stream, as far as its length is a word. -/
  saturate_eq : saturate (totalWeight populations) = s.n
  /-- Exactly the streams that are not empty have extremes. -/
  isSome_extremes : s.extremes.isSome = decide (0 < s.n)

/-- A sketch of some shape. -/
def WellFormed (s : Sketch α) : Prop := ∃ free populations, s.HasShape free populations

/-- A sketch without free slots whose lowest level at its capacity is the top level. It has to grow
before it takes another item. -/
def MustGrow (s : Sketch α) : Prop :=
  s.free = 0 ∧ firstFullLevel s.k s.m s.numLevels s.levels = .ok (some (s.numLevels - 1))

namespace HasShape

variable {s : Sketch α} {free : ℕ} {populations : List ℕ}

/-! ### What the shape tells -/

/-- The number of free slots. -/
lemma free_eq (h : s.HasShape free populations) : s.free = free := by
  rw [Sketch.free, h.levels_eq, headD_boundaries]

/-- The number of levels. -/
lemma numLevels_eq (h : s.HasShape free populations) : s.numLevels = populations.length := by
  rw [numLevels, h.levels_eq, length_boundaries, Nat.add_sub_cancel]

/-- There is one more boundary than there are levels. -/
lemma length_levels (h : s.HasShape free populations) : s.levels.length = s.numLevels + 1 := by
  rw [h.numLevels_eq, h.levels_eq, length_boundaries]

/-- The number of slots. -/
lemma capacity_eq (h : s.HasShape free populations) : s.capacity = free + populations.sum := by
  rw [capacity, h.levels_eq, getLastD_boundaries]

/-- The number of items. -/
lemma numRetained_eq (h : s.HasShape free populations) : s.numRetained = populations.sum := by
  rw [numRetained, h.capacity_eq, h.free_eq, Nat.add_sub_cancel_left]

/-- All positions of slots are words. -/
lemma room_lt (h : s.HasShape free populations) : free + populations.sum < wordBound 32 := by
  rw [h.room_eq]
  exact totalCapacity_lt h.parameters h.length_le

/-- The number of slots is a word. -/
lemma size_lt (h : s.HasShape free populations) : s.items.size < wordBound 32 :=
  h.size_eq.trans_lt h.room_lt

/-- All boundaries are words. -/
lemma boundary_lt (h : s.HasShape free populations) {b : ℕ} (hb : b ∈ s.levels) :
    b < wordBound 32 := by
  rw [h.levels_eq] at hb
  exact (mem_boundaries hb).2.trans_lt h.room_lt

/-- No boundary is below the one before it. -/
lemma pairwise_levels (h : s.HasShape free populations) : s.levels.Pairwise (· ≤ ·) := by
  rw [h.levels_eq]
  exact pairwise_boundaries free populations

/-- The number of slots is the total capacity. -/
lemma totalCapacity_eq (h : s.HasShape free populations) :
    totalCapacity s.k s.m s.numLevels = s.capacity := by
  rw [h.numLevels_eq, ← h.room_eq, h.capacity_eq]

/-- The levels stand for a stream of the length that the sketch reports. -/
lemma sampleWeight_levels (h : s.HasShape free populations) :
    sampleWeight s.numLevels s.levels = .ok s.n := by
  rw [h.numLevels_eq, h.levels_eq, sampleWeight_boundaries, h.saturate_eq]

/-- There is a level at or above the bottom. -/
lemma ne_nil (h : s.HasShape free populations) : populations ≠ [] :=
  List.ne_nil_of_length_pos h.length_pos

/-- Below the largest word the weight of the levels has not been cut off. -/
lemma totalWeight_eq (h : s.HasShape free populations) (hn : s.n < maxWord64) :
    totalWeight populations = s.n := by
  have hweight := h.saturate_eq
  unfold saturate at hweight
  omega

/-- The shape does not depend on the region. -/
lemma setBacking (h : s.HasShape free populations) (backing : Option Backing) :
    HasShape { s with backing } free populations :=
  ⟨h.parameters, h.m_le_minK, h.minK_le_k, h.levels_eq, h.length_pos, h.length_le, h.room_eq,
    h.size_eq, h.saturate_eq, h.isSome_extremes⟩

/-- The shape of a sketch without free slots. -/
lemma of_free_eq_zero (h : s.HasShape free populations) (hfull : s.free = 0) :
    s.HasShape 0 populations := by
  rw [h.free_eq] at hfull
  exact hfull ▸ h

/-- The items in the slots of a sketch of a known shape. -/
lemma exists_represents (h : s.HasShape free populations) :
    ∃ slack runs, s.Represents slack runs ∧ slack.length = free ∧
      runs.map List.length = populations :=
  Sketch.exists_represents h.levels_eq h.size_eq

/-- The shape can be read off the items. -/
lemma of_represents {slack : List α} {runs : List (List α)} (hs : s.HasShape free populations)
    (h : s.Represents slack runs) : slack.length = free ∧ runs.map List.length = populations :=
  boundaries_inj.mp (h.levels_eq.symm.trans hs.levels_eq)

/-- The items of a level with another one above it. -/
lemma exists_runs {slack : List α} {runs : List (List α)} {lower upper : List ℕ} {here above : ℕ}
    (hs : s.HasShape free (lower ++ here :: above :: upper)) (h : s.Represents slack runs) :
    ∃ (lower' upper' : List (List α)) (here' above' : List α),
      runs = lower' ++ here' :: above' :: upper' ∧ slack.length = free ∧
        lower'.map List.length = lower ∧ here'.length = here ∧ above'.length = above := by
  obtain ⟨hfree, hlengths⟩ := hs.of_represents h
  obtain ⟨lower', rest, rfl, hlower, hrest⟩ := List.map_eq_append_iff.mp hlengths
  obtain ⟨here', rest, rfl, hhere, hrest⟩ := List.map_eq_cons_iff.mp hrest
  obtain ⟨above', upper', rfl, habove, -⟩ := List.map_eq_cons_iff.mp hrest
  exact ⟨lower', upper', here', above', rfl, hfree, hlower, hhere, habove⟩

/-- The highest free slot and the items of level 0. -/
lemma exists_slot {slack : List α} {runs : List (List α)} {here : ℕ} {upper : List ℕ}
    (hs : s.HasShape (free + 1) (here :: upper)) (h : s.Represents slack runs) :
    ∃ (slack' here' : List α) (y : α) (upper' : List (List α)),
      slack = slack' ++ [y] ∧ runs = here' :: upper' := by
  obtain ⟨hfree, hlengths⟩ := hs.of_represents h
  obtain ⟨slack', y, rfl, -⟩ := exists_eq_append_singleton hfree
  obtain ⟨here', upper', rfl, -, -⟩ := List.map_eq_cons_iff.mp hlengths
  exact ⟨slack', here', y, upper', rfl, rfl⟩

/-- The number of boundaries but for the last one. -/
lemma length_dropLast (hs : s.HasShape free populations) :
    s.levels.dropLast.length = s.numLevels := by
  rw [List.length_dropLast, hs.length_levels, Nat.add_sub_cancel]

/-- The boundaries but for the last one, with the total capacity behind them. -/
lemma dropLast_append (hs : s.HasShape free populations) :
    s.levels.dropLast ++ [totalCapacity s.k s.m s.numLevels] = s.levels := by
  have hne : s.levels ≠ [] := List.ne_nil_of_length_eq_add_one hs.length_levels
  have hlast : s.capacity = s.levels.getLast hne := by
    rw [capacity, List.getLastD_eq_getLast?, List.getLast?_eq_some_getLast hne, Option.getD_some]
  rw [hs.totalCapacity_eq, hlast]
  exact List.dropLast_append_getLast hne

/-- The number of items that are retained. -/
lemma size_retained (hs : s.HasShape free populations) : s.retained.size = s.numRetained := by
  rw [retained, Array.size_extract, hs.size_eq, ← hs.capacity_eq, Nat.min_self, numRetained]

/-- The number of items in a level. -/
lemma size_levelItems (hs : s.HasShape free populations) (level : ℕ) :
    (s.levelItems level).size = populations.getD level 0 := by
  obtain ⟨slack, runs, hrepresents, -, hlengths⟩ := hs.exists_represents
  rw [hrepresents.levelItems_eq, ← hlengths, List.size_toArray, List.getD_eq_getElem?_getD,
    List.getD_eq_getElem?_getD, List.getElem?_map]
  cases runs[level]? <;> rfl

/-- A sketch of a stream with one item has an item at its first slot that is not free. -/
lemma exists_first (hs : s.HasShape free populations) (hn : s.n = 1) :
    ∃ x rest, s.retained.toList = x :: rest ∧ s.items.extract s.free (s.free + 1) = #[x] := by
  have hweight : totalWeight populations = 1 := by
    rw [← hn]
    exact hs.totalWeight_eq (by rw [hn]; decide)
  obtain ⟨slack, runs, hrepresents, -, hlengths⟩ := hs.exists_represents
  have hne : runs.flatten ≠ [] := by
    intro hnil
    have hsum : populations.sum = 0 := by
      rw [← hlengths, ← List.length_flatten, hnil, List.length_nil]
    rw [totalWeight_eq_zero hsum] at hweight
    cases hweight
  obtain ⟨x, rest, hitems⟩ := List.exists_cons_of_ne_nil hne
  have hslots : s.items = (slack ++ [x] ++ rest).toArray := by
    rw [hrepresents.items_eq, hitems, List.append_assoc, List.singleton_append]
  refine ⟨x, rest, by rw [hrepresents.toList_retained, hitems], ?_⟩
  exact extract_eq hslots hrepresents.free_eq (by rw [hrepresents.free_eq]; rfl)

/-! ### Changes of the shape -/

/-- A sketch without free slots has a lowest level that is at its capacity. It holds at least two
items, and all levels below it have room left. -/
theorem exists_full (h : s.HasShape 0 populations) :
    ∃ lower here upper, populations = lower ++ here :: upper ∧
      firstFullLevel s.k s.m s.numLevels s.levels = .ok (some lower.length) ∧
      2 ≤ here ∧ capacityAt s.k s.m upper.length ≤ here ∧
      ∀ i (hi : i < lower.length), lower[i] < capacityAt s.k s.m (populations.length - i - 1) := by
  have hfull : populations.sum = totalCapacity s.k s.m populations.length := by
    rw [← h.room_eq, Nat.zero_add]
  obtain ⟨lower, here, upper, hsplit, hlevel, hhere, hunder⟩ :=
    exists_firstFullLevel h.parameters.k_lt h.ne_nil h.length_le hfull
  have hm : leastM ≤ here :=
    h.parameters.leastM_le.trans ((le_capacityAt s.k s.m upper.length).trans hhere)
  rw [h.numLevels_eq, h.levels_eq]
  exact ⟨lower, here, upper, hsplit, hlevel, hm, hhere, hunder⟩

/-- A sketch that is not at the limit has a capacity for another level 0. -/
lemma levelCapacity_eq_ok (h : s.HasShape free populations)
    (hlength : populations.length < maxLevels) :
    levelCapacity s.k (s.numLevels + 1) 0 s.m = .ok (capacityAt s.k s.m populations.length) := by
  rw [h.numLevels_eq]
  exact levelCapacity_eq_ok_of_depth h.parameters.k_lt hlength (Nat.zero_add _)

/-- A compaction that succeeds takes half of the items of a level out of it and adds as many to the
level above as it frees slots. -/
theorem compacted [Item α] {s' : Sketch α} {lower upper : List ℕ} {here above : ℕ} {bit : Bool}
    (h : s.HasShape free (lower ++ here :: above :: upper))
    (hcompact : s.compact (spanAt free lower here above) bit = .ok s') :
    s'.HasShape (free + here / 2) (lower ++ here % 2 :: (above + here / 2) :: upper) := by
  obtain ⟨items, hsize, rfl⟩ := compact_levels h.levels_eq h.room_lt hcompact
  have hlength : (lower ++ here % 2 :: (above + here / 2) :: upper).length =
      (lower ++ here :: above :: upper).length := by simp
  have hsum : free + here / 2 + (lower ++ here % 2 :: (above + here / 2) :: upper).sum =
      free + (lower ++ here :: above :: upper).sum := by
    simp only [List.sum_append, List.sum_cons]
    omega
  refine ⟨h.parameters, h.m_le_minK, h.minK_le_k, rfl, ?_, ?_, ?_, ?_, ?_, h.isSome_extremes⟩
  · rw [hlength]
    exact h.length_pos
  · rw [hlength]
    exact h.length_le
  · rw [hlength, hsum]
    exact h.room_eq
  · rw [hsum]
    exact hsize.trans h.size_eq
  · rw [totalWeight_compacted]
    exact h.saturate_eq

/-- The items of a level whose compaction succeeds and of the level above it. The pairs have been
ordered, whatever the items are, and none of them is lost. -/
theorem exists_orderedPairs [Item α] {s' : Sketch α} {slack : List α} {runs : List (List α)}
    {lower upper : List ℕ} {here above : ℕ} {bit : Bool}
    (hs : s.HasShape free (lower ++ here :: above :: upper)) (h : s.Represents slack runs)
    (hcompact : s.compact (spanAt free lower here above) bit = .ok s') :
    ∃ (lower' upper' : List (List α)) (here' above' pairs : List α),
      runs = lower' ++ here' :: above' :: upper' ∧ slack.length = free ∧
        lower'.map List.length = lower ∧ here'.length = here ∧ above'.length = above ∧
        orderedPairs lower'.length (here'.drop (here'.length % 2)) = .ok pairs ∧
        pairs.Perm (here'.drop (here'.length % 2)) := by
  obtain ⟨lower', upper', here', above', rfl, rfl, rfl, rfl, rfl⟩ := hs.exists_runs h
  obtain ⟨pairs, hpairs⟩ := h.exists_orderedPairs_of_compact hcompact
  have hlen : (here'.drop (here'.length % 2)).length ≤ Sorting.mergeLimit := by
    have hsize := hs.room_lt
    rw [List.sum_append, List.sum_cons] at hsize
    have hword : wordBound 32 ≤ Sorting.mergeLimit := by decide
    rw [List.length_drop]
    omega
  exact ⟨lower', upper', here', above', pairs, rfl, rfl, rfl, rfl, rfl, hpairs,
    orderedPairs_perm hlen hpairs⟩

/-- The items before and after a compaction that succeeds, whatever they are. -/
theorem exists_compacted [Item α] {s' : Sketch α} {slack : List α} {runs : List (List α)}
    {lower upper : List ℕ} {here above : ℕ} {bit : Bool}
    (hs : s.HasShape free (lower ++ here :: above :: upper)) (h : s.Represents slack runs)
    (hhere : 2 ≤ here) (hcompact : s.compact (spanAt free lower here above) bit = .ok s') :
    ∃ (slack' here' above' pairs : List α) (lower' upper' : List (List α)),
      runs = lower' ++ here' :: above' :: upper' ∧ lower'.length = lower.length ∧
      here'.length = here ∧
      s'.Represents slack'
        (lower' ++ here'.take (here'.length % 2) :: promoted bit pairs above' :: upper') ∧
      orderedPairs lower'.length (here'.drop (here'.length % 2)) = .ok pairs ∧
      pairs.Perm (here'.drop (here'.length % 2)) := by
  obtain ⟨lower', upper', here', above', pairs, rfl, rfl, rfl, rfl, rfl, hpairs, hperm⟩ :=
    hs.exists_orderedPairs h hcompact
  obtain ⟨levels, items, slack', -, hcompact', hrepresents⟩ :=
    compact_represents bit h hs.size_lt hhere hpairs hperm.length_eq
  rw [hcompact, Except.ok.injEq] at hcompact'
  rw [← hcompact'] at hrepresents
  exact ⟨slack', here', above', pairs, lower', upper', rfl, (List.length_map _).symm, rfl,
    hrepresents, hpairs, hperm⟩

/-- The weight that an insertion checks. -/
lemma sampleWeight_inserted {here : ℕ} {upper : List ℕ}
    (h : s.HasShape (free + 1) (here :: upper)) :
    sampleWeight s.numLevels ((s.free - 1) :: s.levels.tail) =
      .ok (saturate (totalWeight ((here + 1) :: upper))) := by
  have hstop : free + 1 + here = free + (here + 1) := by omega
  have hlevels : (s.free - 1) :: s.levels.tail = boundaries free ((here + 1) :: upper) := by
    rw [h.free_eq, h.levels_eq, boundaries, boundaries, List.tail_cons, hstop, Nat.add_sub_cancel]
  rw [hlevels, h.numLevels_eq]
  exact sampleWeight_boundaries free ((here + 1) :: upper)

variable [Item α]

/-- An insertion that succeeds takes a free slot and adds an item to level 0. -/
theorem inserted {x : α} {s' : Sketch α} (h : s.HasShape free populations)
    (hinsert : s.insert x = .ok s') :
    ∃ free' here upper, free = free' + 1 ∧ populations = here :: upper ∧ s' = s.inserted x ∧
      s'.HasShape free' ((here + 1) :: upper) := by
  obtain ⟨-, hfree, -, hweight, rfl⟩ := insert_eq_ok_iff.mp hinsert
  obtain ⟨here, upper, rfl⟩ := List.exists_cons_of_ne_nil h.ne_nil
  obtain ⟨free', rfl⟩ := Nat.exists_eq_add_one_of_ne_zero (h.free_eq ▸ hfree).ne'
  rw [h.sampleWeight_inserted, Except.ok.injEq] at hweight
  have hsum : free' + ((here + 1) :: upper).sum = free' + 1 + (here :: upper).sum := by
    rw [List.sum_cons, List.sum_cons]
    omega
  refine ⟨free', here, upper, rfl, rfl, rfl, h.parameters, h.m_le_minK, h.minK_le_k,
    levels_inserted h.levels_eq, h.length_pos, h.length_le, ?_, ?_, hweight, ?_⟩
  · rw [hsum]
    exact h.room_eq
  · rw [hsum, ← h.size_eq]
    exact Array.size_setIfInBounds
  · exact (decide_eq_true (Nat.succ_pos s.n)).symm

/-- An insertion into a sketch with a free slot succeeds as long as the length of the stream has not
reached the largest word. -/
theorem insert_eq_ok (x : α) (h : s.HasShape free populations) (hfree : 0 < free)
    (hn : s.n < maxWord64) : s.insert x = .ok (s.inserted x) := by
  obtain ⟨here, upper, rfl⟩ := List.exists_cons_of_ne_nil h.ne_nil
  obtain ⟨free', rfl⟩ := Nat.exists_eq_add_one_of_ne_zero hfree.ne'
  have hsucc : s.n + 1 ≤ maxWord64 := hn
  have hweight : totalWeight ((here + 1) :: upper) = s.n + 1 := by
    rw [← h.totalWeight_eq hn, totalWeight, totalWeight]
    omega
  refine insert_eq_ok_iff.mpr ⟨Nat.lt_succ_of_le hsucc, ?_, ?_, ?_, rfl⟩
  · rw [h.free_eq]
    exact hfree
  · rw [h.free_eq, h.size_eq]
    exact Nat.le_add_right _ _
  · rw [h.sampleWeight_inserted, hweight, saturate_of_le hsucc]

/-- Growth adds an empty level and as many free slots as the new level 0 has room for. -/
theorem grown (h : s.HasShape free populations) (hlength : populations.length < maxLevels) :
    (s.grown (capacityAt s.k s.m populations.length)).HasShape
      (free + capacityAt s.k s.m populations.length) (populations ++ [0]) := by
  set delta := capacityAt s.k s.m populations.length with hdelta
  have hroom : free + delta + (populations ++ [0]).sum =
      totalCapacity s.k s.m (populations ++ [0]).length := by
    rw [List.sum_append, List.sum_singleton, List.length_append, List.length_singleton,
      totalCapacity, ← h.room_eq, ← hdelta]
    omega
  refine ⟨h.parameters, h.m_le_minK, h.minK_le_k, levels_grown delta h.levels_eq, by simp, ?_,
    hroom, ?_, ?_, h.isSome_extremes⟩
  · rw [List.length_append, List.length_singleton]
    exact hlength
  · change (Array.replicate delta Item.filler ++ s.items).size = _
    rw [Array.size_append, Array.size_replicate, h.size_eq, List.sum_append, List.sum_singleton]
    omega
  · rw [totalWeight_append_zero]
    exact h.saturate_eq

/-- Growth of a sketch that is not at the limit always succeeds. -/
theorem enlarged_eq_ok (h : s.HasShape free populations)
    (hlength : populations.length < maxLevels) :
    s.enlarged = .ok (capacityAt s.k s.m populations.length,
      s.grown (capacityAt s.k s.m populations.length)) := by
  have hgrown := (h.grown hlength).room_lt
  rw [List.sum_append, List.sum_singleton] at hgrown
  refine enlarged_eq_ok_iff.mpr ⟨h.levelCapacity_eq_ok hlength,
    withTopLevel_eq_ok_iff.mpr ⟨?_, ?_, rfl⟩⟩
  · rw [h.capacity_eq]
    omega
  · intro b hb
    rw [h.levels_eq] at hb
    have := (mem_boundaries hb).2
    omega

end HasShape

/-- The items before and after an insertion: the highest free slot becomes the first one of
level 0. -/
theorem WellFormed.exists_inserted [Item α] {x : α} {s s' : Sketch α} {slack : List α}
    {runs : List (List α)} (hwf : s.WellFormed) (h : s.Represents slack runs)
    (hinsert : s.insert x = .ok s') :
    ∃ slack' y here upper, slack = slack' ++ [y] ∧ runs = here :: upper ∧ s' = s.inserted x ∧
      s'.Represents slack' ((x :: here) :: upper) := by
  obtain ⟨free, populations, hs⟩ := hwf
  obtain ⟨free', here, upper, rfl, rfl, rfl, -⟩ := hs.inserted hinsert
  obtain ⟨slack', here', y, upper', rfl, rfl⟩ := hs.exists_slot h
  exact ⟨slack', y, here', upper', rfl, rfl, rfl, inserted_represents x h⟩

/-- An insertion puts its item in front of the others. -/
lemma WellFormed.retained_insert [Item α] {x : α} {s s' : Sketch α} (hwf : s.WellFormed)
    (hinsert : s.insert x = .ok s') : s'.retained = #[x] ++ s.retained := by
  obtain ⟨free, populations, hs⟩ := hwf
  obtain ⟨slack, runs, hrepresents, -, -⟩ := hs.exists_represents
  obtain ⟨slack', y, here, upper, rfl, rfl, rfl, hinserted⟩ :=
    WellFormed.exists_inserted ⟨free, populations, hs⟩ hrepresents hinsert
  rw [hinserted.retained_eq, hrepresents.retained_eq]
  simp

/-- Every level keeps its items in growth, and the new one has none. -/
lemma WellFormed.levelItems_grown [Item α] {s : Sketch α} (delta : ℕ) (hwf : s.WellFormed) :
    (s.grown delta).levelItems = s.levelItems := by
  obtain ⟨free, populations, hs⟩ := hwf
  obtain ⟨slack, runs, hrepresents, -, -⟩ := hs.exists_represents
  funext level
  have htop : (runs ++ [[]]).getD level [] = runs.getD level [] := by
    rw [List.getD_eq_getElem?_getD, List.getD_eq_getElem?_getD, List.getElem?_append]
    split
    · rfl
    · rename_i hlevel
      rw [List.getElem?_eq_none (not_lt.mp hlevel), List.getElem?_singleton]
      split <;> rfl
  rw [(grown_represents delta hrepresents).levelItems_eq, hrepresents.levelItems_eq, htop]

/-- Growth does not touch the items of the levels. -/
lemma WellFormed.retained_grown [Item α] {s : Sketch α} (delta : ℕ) (hwf : s.WellFormed) :
    (s.grown delta).retained = s.retained := by
  obtain ⟨free, populations, hs⟩ := hwf
  obtain ⟨slack, runs, hrepresents, -, -⟩ := hs.exists_represents
  rw [(grown_represents delta hrepresents).retained_eq, hrepresents.retained_eq]
  simp

end Sketch

end QuantileSketch
