import QuantileSketch.Proofs.Boundaries

/-!
# Full levels

A sketch whose levels are all full has as many items in each level as the level has room for
(`fullPopulations`), and stands for a stream of length `fullWeight`.

A sketch without free slots need not have full levels: some may have room left if others hold more
than they should. But if only the top level does, the sketch stands for no shorter a stream than
one with full levels. Each item that is missing below is made up for by one of the top level, and
there it weighs the most (`fullWeight_le_totalWeight`).
-/

namespace QuantileSketch

/-- The populations of levels that are all full, level 0 first. -/
def fullPopulations (k m : ℕ) : ℕ → List ℕ
  | 0 => []
  | numLevels + 1 => capacityAt k m numLevels :: fullPopulations k m numLevels

/-- The length of the stream that some full levels stand for. -/
def fullWeight (k m numLevels : ℕ) : ℕ := totalWeight (fullPopulations k m numLevels)

variable {k m : ℕ}

/-! ### Full levels -/

/-- One more full level below doubles the weight of all the others. -/
lemma fullWeight_succ (k m numLevels : ℕ) :
    fullWeight k m (numLevels + 1) = capacityAt k m numLevels + 2 * fullWeight k m numLevels := rfl

/-- More full levels stand for a longer stream. -/
lemma fullWeight_mono (k m : ℕ) : Monotone (fullWeight k m) := by
  apply monotone_nat_of_le_succ
  intro numLevels
  rw [fullWeight_succ]
  omega

/-- More levels have more slots. -/
lemma totalCapacity_mono (k m : ℕ) : Monotone (totalCapacity k m) := by
  apply monotone_nat_of_le_succ
  intro numLevels
  rw [totalCapacity]
  omega

/-- With at least two items in every level the weight at least doubles with each level. -/
lemma two_pow_le_fullWeight (hm : leastM ≤ m) (numLevels : ℕ) :
    2 ^ (numLevels + 1) ≤ fullWeight k m numLevels + 2 := by
  induction numLevels with
  | zero => exact Nat.le_refl 2
  | succ numLevels ih =>
    have hcapacity : 2 ≤ capacityAt k m numLevels := hm.trans (le_capacityAt k m numLevels)
    rw [fullWeight_succ, pow_succ]
    omega

/-- The simple bound on the number of levels is enough for the stream. -/
lemma le_fullWeight_levelBound (hm : leastM ≤ m) (n : ℕ) : n ≤ fullWeight k m (levelBound n) := by
  rcases Nat.eq_zero_or_pos n with rfl | hn
  · exact Nat.zero_le _
  have hbound : levelBound n = n.log2 + 1 := by
    rw [levelBound, if_neg hn.ne', Nat.add_comm]
  have hlog : n < 2 ^ (n.log2 + 1) := Nat.lt_log2_self
  have htwo : 2 ≤ 2 ^ (n.log2 + 1) := Nat.le_self_pow (Nat.succ_ne_zero _) 2
  have hweight := two_pow_le_fullWeight (k := k) hm (n.log2 + 1)
  rw [pow_succ] at hweight
  rw [hbound]
  omega

/-- Levels that have room left below the top, and together at least `excess` items more than full
ones, weigh at least `excess` more than full ones. -/
theorem fullWeight_add_le_totalWeight (excess : ℕ) {top : ℕ} {lower : List ℕ}
    (hunder : ∀ i (h : i < lower.length), lower[i] ≤ capacityAt k m (lower.length - i))
    (hsum : totalCapacity k m (lower.length + 1) + excess ≤ lower.sum + top) :
    fullWeight k m (lower.length + 1) + excess ≤ totalWeight (lower ++ [top]) := by
  induction lower generalizing excess with
  | nil =>
    have hweight : totalWeight ([] ++ [top]) = top := rfl
    have hcapacity : fullWeight k m (List.length ([] : List ℕ) + 1) = capacityAt k m 0 := rfl
    rw [List.length_nil, totalCapacity, totalCapacity, List.sum_nil] at hsum
    rw [hweight, hcapacity]
    omega
  | cons items lower ih =>
    have hitems : items ≤ capacityAt k m (lower.length + 1) := hunder 0 (Nat.succ_pos _)
    have hrest : ∀ i (h : i < lower.length), lower[i] ≤ capacityAt k m (lower.length - i) := by
      intro i h
      have hsucc := hunder (i + 1) (Nat.succ_lt_succ h)
      rwa [List.length_cons, Nat.add_sub_add_right] at hsucc
    rw [List.length_cons, totalCapacity, List.sum_cons] at hsum
    -- what is missing in this level is added to the excess of the levels above it
    have hweight := ih (excess + (capacityAt k m (lower.length + 1) - items)) hrest (by omega)
    rw [List.length_cons, fullWeight_succ, List.cons_append, totalWeight]
    omega

/-- Levels without free slots of which all but the top one are below their capacity stand for no
shorter a stream than full levels. -/
theorem fullWeight_le_totalWeight {top : ℕ} {lower : List ℕ}
    (hunder : ∀ i (h : i < lower.length), lower[i] < capacityAt k m (lower.length - i))
    (hfull : (lower ++ [top]).sum = totalCapacity k m (lower.length + 1)) :
    fullWeight k m (lower.length + 1) ≤ totalWeight (lower ++ [top]) := by
  refine fullWeight_add_le_totalWeight 0 (fun i h => (hunder i h).le) ?_
  rw [← hfull, List.sum_append, List.sum_singleton, Nat.add_zero]

end QuantileSketch
