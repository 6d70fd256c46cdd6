import Mathlib.Tactic
import QuantileSketch.Capacity

/-!
# Capacities

The plain functions behind the capacities, without words and without levels that are not there:
`shrink` for one level at a given depth, `capacityAt` with the least width taken into account, and
`totalCapacity`, which is summed from the top down. In range the words have the same answers
(`shrinkWord_eq_ok`, `levelCapacity_eq_ok`, `totalItemCapacity_eq_ok`): no shift loses bits, and no
condition on the way fails.

The top level of a sketch holds `k` items and no level holds more, because shrinking never
increases a number (`shrink_le`). As there are at most `maxLevels` levels, all slots together stay
far below the words of 32 bits in which the boundaries are kept (`totalCapacity_lt`).
-/

namespace QuantileSketch

/-- The parameters with which a sketch can be made. -/
structure ParametersValid (k m : ℕ) : Prop where
  leastM_le : leastM ≤ m
  le_greatestM : m ≤ greatestM
  even : m % 2 = 0
  m_le_k : m ≤ k
  k_le : k ≤ greatestK

/-- Whether parameters are valid can be decided. -/
instance (k m : ℕ) : Decidable (ParametersValid k m) :=
  decidable_of_iff (leastM ≤ m ∧ m ≤ greatestM ∧ m % 2 = 0 ∧ m ≤ k ∧ k ≤ greatestK)
    ⟨fun ⟨hleast, hgreatest, heven, hmk, hk⟩ => ⟨hleast, hgreatest, heven, hmk, hk⟩,
      fun h => ⟨h.leastM_le, h.le_greatestM, h.even, h.m_le_k, h.k_le⟩⟩

/-- The two checks of the parameters succeed exactly for valid parameters. -/
theorem parametersValid_iff {k m : ℕ} {u v : Unit} :
    ParametersValid k m ↔ checkM m = .ok u ∧ checkK k m = .ok v := by
  rw [checkM, checkK, Cause.unless_eq_ok_iff, Cause.unless_eq_ok_iff]
  constructor
  · intro h
    exact ⟨⟨h.leastM_le, h.le_greatestM, h.even⟩, h.m_le_k, h.k_le⟩
  · rintro ⟨⟨hleast, hgreatest, heven⟩, hmk, hk⟩
    exact ⟨hleast, hgreatest, heven, hmk, hk⟩

/-- The default least width goes with every accuracy parameter that is accepted without one. -/
theorem parametersValid_defaultM {k : ℕ} (hleast : leastK ≤ k) (hgreatest : k ≤ greatestK) :
    ParametersValid k defaultM :=
  ⟨by decide, by decide, by decide, hleast, hgreatest⟩

/-- An accuracy parameter is a word of 16 bits. -/
lemma ParametersValid.k_lt {k m : ℕ} (h : ParametersValid k m) : k < wordBound 16 :=
  Nat.lt_succ_of_le h.k_le

/-! ### Shrinking -/

/-- `k (2/3)^depth`, rounded in one step with a half going up. -/
def shrinkOnce (k depth : ℕ) : ℕ := (2 * k * 2 ^ depth / 3 ^ depth + 1) / 2

/-- `k (2/3)^depth` rounded. A great depth is folded into two halves, and each is rounded. -/
def shrink (k depth : ℕ) : ℕ :=
  if depth ≤ maxUnfoldedDepth then shrinkOnce k depth
  else shrink (shrink k (depth / 2)) (depth - depth / 2)
termination_by depth
decreasing_by all_goals simp [maxUnfoldedDepth] at *; omega

/-- One rounded step of shrinking does not increase a number. -/
theorem shrinkOnce_le (k depth : ℕ) : shrinkOnce k depth ≤ k := by
  have hpow : 2 ^ depth ≤ 3 ^ depth := Nat.pow_le_pow_left (by decide) depth
  have hquot : 2 * k * 2 ^ depth / 3 ^ depth ≤ 2 * k := by
    apply Nat.div_le_of_le_mul
    rw [Nat.mul_comm]
    exact Nat.mul_le_mul_right _ hpow
  unfold shrinkOnce
  omega

/-- The numerator from which a step of shrinking starts is a word. -/
lemma doubled_mul_two_pow_lt {k depth : ℕ} (hk : k ≤ greatestK)
    (hdepth : depth ≤ maxUnfoldedDepth) : 2 * k * 2 ^ depth < wordBound 64 := by
  have hpow : 2 ^ depth ≤ 2 ^ maxUnfoldedDepth := Nat.pow_le_pow_right (by decide) hdepth
  exact (Nat.mul_le_mul (Nat.mul_le_mul_left 2 hk) hpow).trans_lt (by decide)

/-- Shrinking does not increase a number, however deep the fold. -/
theorem shrink_le (k depth : ℕ) : shrink k depth ≤ k := by
  induction k, depth using shrink.induct with
  | case1 k depth hdepth =>
    rw [shrink, if_pos hdepth]
    exact shrinkOnce_le k depth
  | case2 k depth hdepth ihHalf ihRest =>
    rw [shrink, if_neg hdepth]
    exact ihRest.trans ihHalf

/-- The top level is not shrunk. -/
theorem shrink_zero (k : ℕ) : shrink k 0 = k := by
  rw [shrink, if_pos (Nat.zero_le _)]
  simp only [shrinkOnce, pow_zero, Nat.mul_one, Nat.div_one]
  omega

section Words

variable {k depth : ℕ}

/-! ### Shrinking in words -/

/-- The table holds the powers. -/
lemma entry_powersOfThree (hdepth : depth ≤ maxUnfoldedDepth) :
    entry powersOfThree depth = .ok (3 ^ depth) := by
  have hall : ∀ depth < maxUnfoldedDepth + 1, entry powersOfThree depth = .ok (3 ^ depth) := by
    decide
  exact hall depth (Nat.lt_succ_of_le hdepth)

/-- Neither of the two shifts of a step loses bits. -/
lemma shiftWord_product (hk : k < wordBound 16) (hdepth : depth ≤ maxUnfoldedDepth) :
    shiftWord 64 k 1 = .ok (2 * k) ∧
      shiftWord 64 (2 * k) depth = .ok (2 * k * 2 ^ depth) := by
  have hdouble : k <<< 1 = 2 * k := by rw [Nat.shiftLeft_eq, pow_one, Nat.mul_comm]
  have hproduct := doubled_mul_two_pow_lt (Nat.le_of_lt_succ hk) hdepth
  constructor
  · rw [← hdouble]
    refine shiftWord_eq_ok (by decide) ?_
    rw [hdouble]
    exact (Nat.mul_lt_mul_of_pos_left hk (by decide)).trans (by decide)
  · rw [← Nat.shiftLeft_eq] at hproduct ⊢
    exact shiftWord_eq_ok (Nat.lt_of_le_of_lt hdepth (by decide)) hproduct

/-- A step in words goes as the plain one. -/
lemma shrinkOnceWord_eq_ok (hk : k < wordBound 16) (hdepth : depth ≤ maxUnfoldedDepth) :
    shrinkOnceWord k depth = .ok (shrinkOnce k depth) := by
  obtain ⟨hdouble, hproduct⟩ := shiftWord_product hk hdepth
  have hle : shrinkOnce k depth ≤ k := shrinkOnce_le k depth
  have hunfold : shrinkOnce k depth = (2 * k * 2 ^ depth / 3 ^ depth + 1) >>> 1 := by
    rw [shrinkOnce, Nat.shiftRight_one]
  have hrounded : 2 * k * 2 ^ depth / 3 ^ depth + 1 < wordBound 64 := by
    have hbound : k < 2 ^ 16 := hk
    have hword : wordBound 64 = 2 ^ 64 := rfl
    rw [Nat.shiftRight_one] at hunfold
    omega
  have hshallow : require (depth ≤ maxUnfoldedDepth) "depth must be <= 30" = .ok () :=
    if_pos hdepth
  have hbelow : require (shrinkOnce k depth ≤ k) "capacity result exceeds k" = .ok () := if_pos hle
  rw [shrinkOnceWord, hshallow, ok_bind, hdouble, ok_bind, hproduct, ok_bind,
    entry_powersOfThree hdepth, ok_bind, addWord, fitWord, if_pos hrounded, ok_bind, ← hunfold]
  dsimp only
  rw [hbelow, ok_bind, Nat.mod_eq_of_lt (hle.trans_lt hk)]
  rfl

/-- Shrinking in words always has an answer, the same as without words. -/
theorem shrinkWord_eq_ok (hk : k < wordBound 16) (depth : ℕ) :
    shrinkWord k depth = .ok (shrink k depth) := by
  induction k, depth using shrink.induct with
  | case1 k depth hdepth =>
    rw [shrinkWord, shrink, if_pos hdepth, if_pos hdepth, shrinkOnceWord_eq_ok hk hdepth]
  | case2 k depth hdepth ihHalf ihRest =>
    rw [shrinkWord, shrink, if_neg hdepth, if_neg hdepth, ihHalf hk, ok_bind,
      ihRest ((shrink_le _ _).trans_lt hk)]

end Words

/-! ### Levels -/

/-- The capacity of a level at the given distance from the top. -/
def capacityAt (k m depth : ℕ) : ℕ := max m (shrink k depth)

/-- The capacity of all levels of a sketch together. -/
def totalCapacity (k m : ℕ) : ℕ → ℕ
  | 0 => 0
  | numLevels + 1 => totalCapacity k m numLevels + capacityAt k m numLevels

/-- Every level has room for the least width. -/
theorem le_capacityAt (k m depth : ℕ) : m ≤ capacityAt k m depth := Nat.le_max_left _ _

/-- No level is wider than the top level. -/
theorem capacityAt_le {k m : ℕ} (h : m ≤ k) (depth : ℕ) : capacityAt k m depth ≤ k :=
  Nat.max_le.mpr ⟨h, shrink_le k depth⟩

/-- The top level has room for `k` items. -/
theorem capacityAt_zero {k m : ℕ} (h : m ≤ k) : capacityAt k m 0 = k := by
  rw [capacityAt, shrink_zero, Nat.max_eq_right h]

/-- A sketch of one level has `k` slots. -/
theorem totalCapacity_one {k m : ℕ} (h : m ≤ k) : totalCapacity k m 1 = k := by
  rw [totalCapacity, totalCapacity, capacityAt_zero h, Nat.zero_add]

/-- All levels together have no more slots than as many top levels. -/
theorem totalCapacity_le {k m : ℕ} (h : m ≤ k) (numLevels : ℕ) :
    totalCapacity k m numLevels ≤ numLevels * k := by
  induction numLevels with
  | zero => exact Nat.zero_le _
  | succ numLevels ih =>
    rw [totalCapacity, Nat.succ_mul]
    exact Nat.add_le_add ih (capacityAt_le h numLevels)

/-- The most slots that a sketch can have. -/
def slotLimit : ℕ := maxLevels * greatestK

/-- No sketch has more slots than the limit. -/
theorem totalCapacity_le_slotLimit {k m numLevels : ℕ} (hp : ParametersValid k m)
    (hlevels : numLevels ≤ maxLevels) : totalCapacity k m numLevels ≤ slotLimit :=
  (totalCapacity_le hp.m_le_k numLevels).trans (Nat.mul_le_mul hlevels hp.k_le)

/-- The number of slots of any sketch is a word of 32 bits. -/
theorem totalCapacity_lt {k m numLevels : ℕ} (hp : ParametersValid k m)
    (hlevels : numLevels ≤ maxLevels) : totalCapacity k m numLevels < wordBound 32 :=
  (totalCapacity_le_slotLimit hp hlevels).trans_lt (by decide)

/-! ### Levels in words -/

/-- A numbered level of a sketch has the capacity of its distance from the top. -/
theorem levelCapacity_eq_ok {k m numLevels level : ℕ} (hk : k < wordBound 16)
    (hlevels : numLevels ≤ maxLevels) (hlevel : level < numLevels) :
    levelCapacity k numLevels level m = .ok (capacityAt k m (numLevels - level - 1)) := by
  have hpos : 1 ≤ numLevels := Nat.one_le_of_lt hlevel
  have hcount : require (1 ≤ numLevels ∧ numLevels ≤ maxLevels)
      s!"num_levels must be in [1, {maxLevels}], got {numLevels}" = .ok () := if_pos ⟨hpos, hlevels⟩
  have hthere : require (level < numLevels) "level must be < num_levels" = .ok () := if_pos hlevel
  rw [levelCapacity, hcount, ok_bind, hthere, ok_bind, shrinkWord_eq_ok hk, ok_bind, capacityAt]
  rfl

/-- A level with `depth` others above it has the capacity of this depth. -/
lemma levelCapacity_eq_ok_of_depth {k m numLevels level depth : ℕ} (hk : k < wordBound 16)
    (hlevels : numLevels ≤ maxLevels) (hcount : level + (depth + 1) = numLevels) :
    levelCapacity k numLevels level m = .ok (capacityAt k m depth) := by
  have hlevel : level < numLevels := by omega
  have hdepth : numLevels - level - 1 = depth := by omega
  rw [levelCapacity_eq_ok hk hlevels hlevel, hdepth]

/-- There is no level of more levels than there can be. -/
lemma numLevels_le_of_levelCapacity {k m numLevels level capacity : ℕ}
    (h : levelCapacity k numLevels level m = .ok capacity) : numLevels ≤ maxLevels := by
  obtain ⟨_, hcount, -⟩ := bind_eq_ok_iff.mp h
  exact (require_eq_ok_iff.mp hcount).2

/-- The sum over the levels from one of them to the top goes on with the capacity of as many levels,
because it is the distance from the top that counts. -/
lemma addCapacities_eq_ok {k m numLevels remaining level sum : ℕ} (hk : k < wordBound 16)
    (hlevels : numLevels ≤ maxLevels) (hcount : level + remaining = numLevels)
    (hword : sum + totalCapacity k m remaining < wordBound 32) :
    addCapacities k m numLevels remaining level sum =
      .ok (sum + totalCapacity k m remaining) := by
  induction remaining generalizing level sum with
  | zero => rfl
  | succ remaining ih =>
    have hcapacity := levelCapacity_eq_ok_of_depth (m := m) hk hlevels hcount
    have hsum : sum + totalCapacity k m (remaining + 1) =
        sum + capacityAt k m remaining + totalCapacity k m remaining := by
      rw [totalCapacity]
      omega
    rw [hsum] at hword ⊢
    have hadd : addWord 32 sum (capacityAt k m remaining) = .ok _ :=
      addWord_eq_ok_iff.mpr ⟨(Nat.le_add_right _ _).trans_lt hword, rfl⟩
    have hcount' : level + 1 + remaining = numLevels := by omega
    rw [addCapacities, hcapacity, ok_bind, hadd, ok_bind]
    exact ih hcount' hword

/-- The capacities of all levels have a sum, for every possible number of levels. -/
theorem totalItemCapacity_eq_ok {k m numLevels : ℕ} (hp : ParametersValid k m)
    (hlevels : numLevels ≤ maxLevels) :
    totalItemCapacity k m numLevels = .ok (totalCapacity k m numLevels) := by
  have hword : 0 + totalCapacity k m numLevels < wordBound 32 := by
    rw [Nat.zero_add]
    exact totalCapacity_lt hp hlevels
  have hsum := addCapacities_eq_ok hp.k_lt hlevels (Nat.zero_add numLevels) hword
  rwa [Nat.zero_add] at hsum

end QuantileSketch
