import QuantileSketch.Proofs.Boundaries

/-!
# The weight of a sample

The weight of a sample is added up in words of 64 bits. The weight of an item, which doubles from
level to level, its product with the number of items of a level and the sum are each cut off at the
largest word. All the same the answer is the exact sum, cut off once (`sampleWeight_eq_min_sum`). A
level whose items would weigh more than the largest word still adds nothing if it has no items, and
there may be any number of levels. Boundaries above the levels are not looked at
(`addWeights_take`).
-/

namespace QuantileSketch

/-- The exact weight of some levels as a sum over the levels. -/
lemma exactWeight_eq_sum (levels : List ℕ) :
    exactWeight levels = ∑ level ∈ Finset.range (levels.length - 1),
      (levels.getD (level + 1) 0 - levels.getD level 0) * 2 ^ level := by
  fun_induction exactWeight levels with
  | case1 start stop levels ih =>
    have hlength : (start :: stop :: levels).length - 1 = levels.length + 1 := rfl
    have hupper : ∑ level ∈ Finset.range levels.length,
        ((start :: stop :: levels).getD (level + 1 + 1) 0 -
          (start :: stop :: levels).getD (level + 1) 0) * 2 ^ (level + 1) =
        2 * exactWeight (stop :: levels) := by
      rw [ih, Finset.mul_sum]
      apply Finset.sum_congr rfl
      intro level _
      simp only [List.getD_cons_succ, pow_succ]
      ring
    rw [hlength, Finset.sum_range_succ', hupper, List.getD_cons_succ, List.getD_cons_zero,
      List.getD_cons_zero, pow_zero, Nat.mul_one, Nat.add_comm]
  | case2 levels hshort =>
    match levels with
    | [] => rfl
    | [start] => rfl
    | start :: stop :: levels => exact absurd rfl (hshort start stop levels)

/-- Adding up the weights of some levels reads one boundary more than there are levels. -/
lemma addWeights_take (numLevels weight total : ℕ) (levels : List ℕ) :
    addWeights numLevels weight total (levels.take (numLevels + 1)) =
      addWeights numLevels weight total levels := by
  induction numLevels generalizing weight total levels with
  | zero => rfl
  | succ numLevels ih =>
    match levels with
    | [] => rfl
    | [start] => rfl
    | start :: stop :: levels =>
      have htail : (start :: stop :: levels).take (numLevels + 1 + 1) =
          start :: stop :: levels.take numLevels := rfl
      rw [htail, addWeights, addWeights]
      cases subWord stop start with
      | error abort => rfl
      | ok items => exact ih _ _ (stop :: levels)

/-- The weight of the lower levels of any non-decreasing list of boundaries is the exact sum of
their weights, cut off at the largest word. -/
theorem sampleWeight_eq_min_sum {numLevels : ℕ} {levels : List ℕ}
    (hlength : numLevels + 1 ≤ levels.length) (hlevels : levels.Pairwise (· ≤ ·)) :
    sampleWeight numLevels levels = .ok (min (2 ^ 64 - 1)
      (∑ level ∈ Finset.range numLevels,
        (levels.getD (level + 1) 0 - levels.getD level 0) * 2 ^ level)) := by
  obtain ⟨free, rest, rfl⟩ := List.exists_cons_of_length_pos (Nat.zero_lt_of_lt hlength)
  have htake : ((free :: rest).take (numLevels + 1)).Pairwise (· ≤ ·) :=
    hlevels.sublist (List.take_sublist _ _)
  obtain ⟨populations, hboundaries⟩ := exists_boundaries htake
  have hcount : populations.length = numLevels := by
    have h := congrArg List.length hboundaries
    rw [length_boundaries, ← List.take_succ_cons, List.length_take, Nat.min_eq_left hlength] at h
    omega
  have hsum : totalWeight populations = ∑ level ∈ Finset.range numLevels,
      ((free :: rest).getD (level + 1) 0 - (free :: rest).getD level 0) * 2 ^ level := by
    rw [← exactWeight_boundaries free, ← hboundaries, ← List.take_succ_cons, exactWeight_eq_sum,
      List.length_take, Nat.min_eq_left hlength, Nat.add_sub_cancel]
    apply Finset.sum_congr rfl
    intro level hlevel
    rw [Finset.mem_range] at hlevel
    simp only [List.getD_eq_getElem?_getD]
    rw [List.getElem?_take_of_lt (by omega), List.getElem?_take_of_lt (by omega)]
  calc sampleWeight numLevels (free :: rest)
      = sampleWeight populations.length (boundaries free populations) := by
        rw [sampleWeight, ← addWeights_take, List.take_succ_cons, hboundaries, hcount, sampleWeight]
    _ = .ok (saturate (totalWeight populations)) := sampleWeight_boundaries free populations
    _ = _ := by
        rw [hsum]
        rfl

/-- Seventy levels, two of which have items. The weight of an item is cut off from level 64 on. This
does not matter to the levels 64 and 65, which are empty, but then it does to level 66. The boundary
above the levels does not matter at all. -/
theorem sampleWeight_of_seventy_levels :
    (2 :: List.replicate 64 5 ++ [5, 5, 6, 6, 6, 6, 9]).Pairwise (· ≤ ·) ∧
      sampleWeight 66 (2 :: List.replicate 64 5 ++ [5, 5, 6, 6, 6, 6, 9]) = .ok 3 ∧
      sampleWeight 70 (2 :: List.replicate 64 5 ++ [5, 5, 6, 6, 6, 6, 9]) = .ok (2 ^ 64 - 1) := by
  have hlevels : (2 :: List.replicate 64 5 ++ [5, 5, 6, 6, 6, 6, 9]).Pairwise (· ≤ ·) := by
    decide
  refine ⟨hlevels, ?_, ?_⟩
  · rw [sampleWeight_eq_min_sum (by decide) hlevels]
    decide +kernel
  · rw [sampleWeight_eq_min_sum (by decide) hlevels]
    decide +kernel

end QuantileSketch
