import Mathlib.Data.List.GetD
import QuantileSketch.Item.Integer
import QuantileSketch.Proofs.EmptyTopLevel
import QuantileSketch.Proofs.Samples

/-!
# What freeing slots does to the levels

Slots are freed by compacting the lowest level that is at its capacity (`Sketch.IsFirstFull`), after
growth if this is the top level. Growth leaves the items of all levels in place. All moves of the
compaction happen in one array, within the same slots and over one another, but level by level they
come to this (`IsHalved`): every second item of the pairs of the level joins the level above, an
item that has no partner stays, and no other level changes.

Neither step changes what is known of the stream (`Sketch.SameStream`).
`Session.isHalved_of_compress` puts the two together, for all full sketches of numbers with sorted
levels, whatever the number of items in the two levels, and tells how many slots are free then.
-/

namespace QuantileSketch

open Item

variable {α : Type}

/-! ### The level that is compacted -/

namespace Sketch

/-- The lowest level that is at its capacity. -/
structure IsFirstFull (s : Sketch α) (level : ℕ) : Prop where
  lt_numLevels : level < s.numLevels
  capacity_le : capacityAt s.k s.m (s.numLevels - level - 1) ≤ (s.levelItems level).size
  lt_capacity : ∀ i < level, (s.levelItems i).size < capacityAt s.k s.m (s.numLevels - i - 1)

variable {s : Sketch α}

/-- The level that is found in a sketch without free slots is the lowest one at its capacity. -/
lemma HasShape.isFirstFull {populations : List ℕ} {level : ℕ} (hs : s.HasShape 0 populations)
    (h : firstFullLevel s.k s.m s.numLevels s.levels = .ok (some level)) :
    s.IsFirstFull level := by
  obtain ⟨lower, here, upper, rfl, hfull, -, hhere, hunder⟩ := hs.exists_full
  obtain rfl : level = lower.length := by
    rwa [h, Except.ok.injEq, Option.some.injEq] at hfull
  refine ⟨?_, ?_, ?_⟩
  · rw [hs.numLevels_eq, List.length_append, List.length_cons]
    omega
  · have hdepth : (lower ++ here :: upper).length - lower.length - 1 = upper.length := by
      rw [List.length_append, List.length_cons]
      omega
    rw [hs.numLevels_eq, hdepth, hs.size_levelItems, List.getD_append_right _ _ _ _ le_rfl,
      Nat.sub_self]
    exact hhere
  · intro i hi
    rw [hs.numLevels_eq, hs.size_levelItems, List.getD_append _ _ _ _ hi,
      List.getD_eq_getElem _ _ hi]
    exact hunder i hi

/-- The sketch `s'` stands for a stream of the same length, extremes and weight as `s`. -/
structure SameStream (s s' : Sketch α) : Prop where
  n_eq : s'.n = s.n
  extremes_eq : s'.extremes = s.extremes
  exactWeight_eq : exactWeight s'.levels = exactWeight s.levels

/-- A sketch stands for its own stream. -/
lemma SameStream.refl (s : Sketch α) : s.SameStream s := ⟨rfl, rfl, rfl⟩

/-- Two changes that keep the stream. -/
lemma SameStream.trans {s' s'' : Sketch α} (h : s.SameStream s') (h' : s'.SameStream s'') :
    s.SameStream s'' :=
  ⟨h'.n_eq.trans h.n_eq, h'.extremes_eq.trans h.extremes_eq,
    h'.exactWeight_eq.trans h.exactWeight_eq⟩

/-- The items of the levels around a level with another one above it. -/
lemma Represents.levelItems_around {slack here above : List α} {lower upper : List (List α)}
    (h : s.Represents slack (lower ++ here :: above :: upper)) :
    s.levelItems lower.length = here.toArray ∧ s.levelItems (lower.length + 1) = above.toArray := by
  rw [h.levelItems_eq, h.levelItems_eq]
  simp

/-- Two lists that differ at two neighbouring places only are the same at all other places. -/
lemma getD_around {β : Type} {lower upper : List β} {a b a' b' d : β} {i : ℕ}
    (hhere : i ≠ lower.length) (habove : i ≠ lower.length + 1) :
    (lower ++ a :: b :: upper).getD i d = (lower ++ a' :: b' :: upper).getD i d := by
  rcases Nat.lt_or_ge i lower.length with hi | hi
  · rw [List.getD_append _ _ _ _ hi, List.getD_append _ _ _ _ hi]
  · obtain ⟨j, rfl⟩ : ∃ j, i = lower.length + (j + 2) := ⟨i - lower.length - 2, by omega⟩
    rw [List.getD_append_right _ _ _ _ hi, List.getD_append_right _ _ _ _ hi,
      Nat.add_sub_cancel_left]
    rfl

end Sketch

/-! ### The compaction -/

variable [Item α]

/-- The items of the levels before and after `level` is compacted with the bit `bit`. -/
structure IsHalved (level : ℕ) (bit : Bool) (before after : ℕ → Array α) : Prop where
  /-- All levels but the compacted one and the one above it have the same items. -/
  other_eq : ∀ i, i ≠ level → i ≠ level + 1 → after i = before i
  /-- The first item stays if there is an odd number of items, and otherwise none. -/
  toList_here : (after level).toList = (before level).toList.take ((before level).size % 2)
  /-- The other items are sorted if the level is level 0, and every second one of them comes to the
  items of the level above. Which ones these are depends on the bit. -/
  perm_above : ∃ pairs,
    Sketch.orderedPairs level ((before level).toList.drop ((before level).size % 2)) = .ok pairs ∧
      pairs.Perm ((before level).toList.drop ((before level).size % 2)) ∧ IsSorted pairs ∧
      (after (level + 1)).toList.Perm
        (alternate (Sketch.keepsSecond bit (before (level + 1)).toList) pairs ++
          (before (level + 1)).toList)
  isSorted_above : IsSorted (after (level + 1)).toList

/-- A compaction that succeeds halves its level. -/
theorem Sketch.Ordered.isHalved {s s' : Sketch α} {free here above : ℕ} {lower upper : List ℕ}
    {bit : Bool} (h : s.Ordered) (hs : s.HasShape free (lower ++ here :: above :: upper))
    (hhere : 2 ≤ here)
    (hcompact : s.compact (Sketch.spanAt free lower here above) bit = .ok s') :
    IsHalved lower.length bit s.levelItems s'.levelItems := by
  obtain ⟨slack, slack', here', above', pairs, lower', upper', hlower, hrepresents, hordered,
    hrepresents', hpairs, hperm, hsorted⟩ := h.exists_compacted hs hhere hcompact
  obtain ⟨hhere', habove'⟩ := hrepresents.levelItems_around
  obtain ⟨hodd, hpromoted⟩ := hrepresents'.levelItems_around
  rw [← hlower]
  refine ⟨?_, ?_, ⟨pairs, ?_, ?_, hsorted, ?_⟩, ?_⟩
  · intro i hne hne'
    rw [hrepresents'.levelItems_eq, hrepresents.levelItems_eq, getD_around hne hne']
  · rw [hodd, hhere', List.size_toArray]
  · rw [hhere', List.size_toArray]
    exact hpairs
  · rw [hhere', List.size_toArray]
    exact hperm
  · rw [hpromoted, habove']
    exact Slots.mergedRun_perm _ above'
  · rw [hpromoted]
    exact (hordered.compacted bit hperm hsorted).isSorted_tail _ (by cases lower' <;> simp)

/-- A compaction that succeeds keeps the stream. -/
lemma Sketch.HasShape.sameStream_compact {s s' : Sketch α} {free here above : ℕ}
    {lower upper : List ℕ} {bit : Bool}
    (hs : s.HasShape free (lower ++ here :: above :: upper))
    (h : s.compact (Sketch.spanAt free lower here above) bit = .ok s') : s.SameStream s' := by
  obtain ⟨levels, items, hsketch⟩ := Sketch.compact_eq h
  refine ⟨by rw [hsketch], by rw [hsketch], ?_⟩
  rw [(hs.compacted h).levels_eq, hs.levels_eq, exactWeight_boundaries, exactWeight_boundaries,
    totalWeight_compacted]

namespace Session

variable {γ : Type} {r r' : Session γ α} {populations : List ℕ}

/-- Growth keeps the stream. -/
lemma sameStream_grow (hs : r.sketch.HasShape 0 populations) (h : r.grow = .done r') :
    r.sketch.SameStream r'.sketch := by
  have hgrown := grow_grownBy ⟨_, _, hs⟩ h
  refine ⟨by rw [hgrown.other_eq], by rw [hgrown.other_eq], ?_⟩
  rw [(grow_shape hs h).2.levels_eq, hs.levels_eq, exactWeight_boundaries, exactWeight_boundaries,
    totalWeight_append_zero]

/-- What growth adds to a full sketch, if it takes place, and what it leaves as it was. -/
lemma keeps_of_grow_if {top : Prop} [Decidable top] (hs : r.sketch.HasShape 0 populations)
    (h : if top then r.grow = .done r' else r' = r) :
    r'.sketch.levelItems = r.sketch.levelItems ∧
      r'.sketch.numLevels = r.sketch.numLevels + (if top then 1 else 0) ∧
      r'.sketch.free = (if top then r.growth else 0) ∧
      r.sketch.SameStream r'.sketch ∧ r'.coin = r.coin := by
  split at h
  · rename_i htop
    have hgrown := grow_grownBy ⟨_, _, hs⟩ h
    obtain ⟨-, -, -, -, -, -, -, hcoin, -⟩ := grow_eq_done h
    refine ⟨funext hgrown.levelItems_eq, ?_, ?_, sameStream_grow hs h, hcoin⟩
    · rw [if_pos htop, hgrown.numLevels_eq]
    · rw [if_pos htop, hgrown.free_eq, hs.free_eq, Nat.zero_add]
  · rename_i htop
    rw [h, if_neg htop, if_neg htop]
    exact ⟨rfl, rfl, hs.free_eq, .refl _, rfl⟩

variable [Coin γ]

/-- Freeing slots of a full sketch of numbers whose levels above level 0 are sorted halves the
lowest level that is at its capacity, with the next bit of the coin. As many slots are free then as
there were pairs in it, which is at least one, and those that growth adds if this level was the top
level. The length of the stream, its extremes and the weight of the levels stay as they were. -/
theorem isHalved_of_compress (hwf : r.sketch.WellFormed) (hfull : r.sketch.free = 0)
    (hnumbers : r.sketch.HoldsNumbers) (hsorted : r.sketch.LevelsSorted)
    (h : r.compress = .done r') :
    ∃ level, r.sketch.IsFirstFull level ∧
      IsHalved level (Coin.toss r.coin).1 r.sketch.levelItems r'.sketch.levelItems ∧
      r'.sketch.numLevels =
        r.sketch.numLevels + (if level + 1 = r.sketch.numLevels then 1 else 0) ∧
      r'.sketch.free = (if level + 1 = r.sketch.numLevels then r.growth else 0) +
        (r.sketch.levelItems level).size / 2 ∧
      1 ≤ (r.sketch.levelItems level).size / 2 ∧
      r.sketch.SameStream r'.sketch ∧ r'.coin = (Coin.toss r.coin).2 := by
  have hordered := hwf.ordered_iff.mpr ⟨hnumbers, hsorted⟩
  obtain ⟨free, populations, hs⟩ := hwf
  replace hs := hs.of_free_eq_zero hfull
  obtain ⟨between, free, lower, here, above, upper, hlevel, hbetween, hshape, htwo, hcompact⟩ :=
    exists_compacted_level hs h
  obtain ⟨hitems, hlevels, hfree, hstream, hcoin⟩ := keeps_of_grow_if hs hbetween
  have hordered' : between.sketch.Ordered := by
    split at hbetween
    · exact (Changes.start.grow ⟨_, _, hs⟩ hbetween).ordered ⟨_, _, hs⟩ hordered
    · rw [hbetween]
      exact hordered
  obtain ⟨hsketch, hcoin', -⟩ := compact_shape hshape hcompact
  have hshape' := hshape.compacted hsketch
  have hhalved := hordered'.isHalved hshape htwo hsketch
  have hsize : (r.sketch.levelItems lower.length).size = here := by
    rw [← hitems, hshape.size_levelItems]
    simp
  rw [hitems, hcoin] at hhalved
  refine ⟨lower.length, hs.isFirstFull hlevel, hhalved, ?_, ?_, ?_,
    hstream.trans (hshape.sameStream_compact hsketch), ?_⟩
  · rw [← hlevels, hshape'.numLevels_eq, hshape.numLevels_eq]
    simp
  · rw [hshape'.free_eq, hsize, ← hfree, hshape.free_eq]
  · omega
  · rw [hcoin', hcoin]

/-- Three items in the three slots of level 0, out of order. The one that came last stays, and one
of the two others comes to a new level 1. -/
theorem isHalved_of_compress_three_items :
    ∃ r r' : Session Xorshift Int32, r.sketch.levelItems 0 = #[6, 5, 7] ∧
      r.compress = .done r' ∧ r'.sketch.levels = [3, 4, 5] ∧
      ∃ level, r.sketch.IsFirstFull level ∧
        IsHalved level (Coin.toss r.coin).1 r.sketch.levelItems r'.sketch.levelItems := by
  have hstate : ((performAll [.update 7, .update 5, .update 6]
      (begin (Sketch.empty 3 2 : Sketch Int32) (Xorshift.ofSeed 1))).bind fun r =>
        r.compress.done?.map fun r' =>
          (r.sketch.free, r.sketch.numLevels, r.sketch.levelItems 0, r'.sketch.levels)) =
            some (0, 1, #[6, 5, 7], [3, 4, 5]) := by decide +kernel
  obtain ⟨r, hr, hstate⟩ := Option.bind_eq_some_iff.mp hstate
  obtain ⟨r', hr', hstate⟩ := Option.map_eq_some_iff.mp hstate
  simp only [Prod.mk.injEq] at hstate
  obtain ⟨hfree, hlevels, hitems, hlevels'⟩ := hstate
  have hmade : Sketch.withM 3 2 = .ok (Sketch.empty 3 2 : Sketch Int32) :=
    Sketch.withM_eq_ok_iff.mpr ⟨by decide, rfl⟩
  have hwf : r.sketch.WellFormed :=
    (run_of_performAll hr).wellFormed (Sketch.Constructed.withM hmade).wellFormed
  have hsorted : r.sketch.LevelsSorted := by
    intro level hpos hlevel
    omega
  have hcompress := Outcome.done?_eq_some_iff.mp hr'
  obtain ⟨level, hfirst, hhalved, -⟩ :=
    isHalved_of_compress hwf hfree (fun _ _ => rfl) hsorted hcompress
  exact ⟨r, r', hitems, hcompress, hlevels', level, hfirst, hhalved⟩

end Session

end QuantileSketch
