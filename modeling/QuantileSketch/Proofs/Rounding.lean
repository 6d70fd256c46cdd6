import Mathlib.Algebra.Order.Round
import Mathlib.Data.Rat.Floor
import QuantileSketch.Proofs.Capacity

/-!
# Capacities are rounded once

A great depth is folded into two halves, and each of them is rounded. In general rounding twice is
not rounding once, but here it is: what the first half leaves of any word of 16 bits is so small
that the second half rounds it to zero, and so does the exact number (`shrink_eq`).

Computed in words, shrinking loses no bits and meets no condition that fails (`shrinkWord_eq_ok`).
So the capacity of a level is the exact one, rounded with a half going up, and levels get no
narrower towards the top (`shrinkWord_rounds_exactly`).
-/

namespace QuantileSketch

variable {k k' depth depth' : ℕ}

/-! ### Exact rounding -/

/-- `k (2/3)^depth` as a fraction of whole numbers, rounded with a half going up. -/
def roundedShare (k depth : ℕ) : ℕ := (2 * k * 2 ^ depth + 3 ^ depth) / (2 * 3 ^ depth)

/-- The fraction is rounded to the nearest whole number. -/
theorem roundedShare_eq_round (k depth : ℕ) :
    (roundedShare k depth : ℤ) = round ((k : ℚ) * (2 / 3) ^ depth) := by
  have hfraction : (k : ℚ) * (2 / 3) ^ depth + 1 / 2 =
      ((2 * k * 2 ^ depth + 3 ^ depth : ℕ) : ℚ) / (2 * 3 ^ depth : ℕ) := by
    have hpow : (3 : ℚ) ^ depth ≠ 0 := pow_ne_zero _ (by norm_num)
    push_cast
    rw [div_pow]
    field_simp
  rw [round_eq, hfraction, Rat.floor_natCast_div_natCast]
  rfl

/-- One step of shrinking rounds once. -/
lemma shrinkOnce_eq (k depth : ℕ) : shrinkOnce k depth = roundedShare k depth := by
  have hpow : 0 < 3 ^ depth := Nat.pow_pos (by decide)
  rw [shrinkOnce, ← Nat.add_div_right _ hpow, Nat.div_div_eq_div_mul, Nat.mul_comm _ 2,
    roundedShare]

/-- One level further down the share is no greater. -/
lemma roundedShare_succ_le (k depth : ℕ) : roundedShare k (depth + 1) ≤ roundedShare k depth := by
  calc roundedShare k (depth + 1)
      = (3 * (2 * k * 2 ^ depth + 3 ^ depth) - 2 * k * 2 ^ depth) / (3 * (2 * 3 ^ depth)) := by
        unfold roundedShare
        congr 1
        · rw [pow_succ, pow_succ]
          have hsame : 2 * k * (2 ^ depth * 2) = 2 * (2 * k * 2 ^ depth) := by ring
          omega
        · ring
    _ ≤ 3 * (2 * k * 2 ^ depth + 3 ^ depth) / (3 * (2 * 3 ^ depth)) :=
        Nat.div_le_div_right (Nat.sub_le _ _)
    _ = roundedShare k depth := Nat.mul_div_mul_left _ _ (by decide)

/-- Shares grow with the number and fall with the depth. -/
lemma roundedShare_le (hk : k ≤ k') (hdepth : depth' ≤ depth) :
    roundedShare k depth ≤ roundedShare k' depth' := by
  have hfalls : Antitone (roundedShare k) := antitone_nat_of_succ_le (roundedShare_succ_le k)
  refine (hfalls hdepth).trans (Nat.div_le_div_right ?_)
  gcongr

/-! ### The fold -/

/-- Shrinking rounds once, even if it is folded. -/
theorem shrink_eq (hk : k < wordBound 16) : shrink k depth = roundedShare k depth := by
  induction k, depth using shrink.induct with
  | case1 k depth hdepth => rw [shrink, if_pos hdepth, shrinkOnce_eq]
  | case2 k depth hdepth ihHalf ihRest =>
    have hdeep : 31 ≤ depth := not_le.mp hdepth
    have hword : k ≤ 65535 := Nat.le_of_lt_succ hk
    have hhalf : shrink k (depth / 2) ≤ 150 := by
      have hle : roundedShare k (depth / 2) ≤ roundedShare 65535 15 :=
        roundedShare_le hword (by omega)
      rw [ihHalf hk]
      exact hle.trans (by decide)
    have hrest : roundedShare (shrink k (depth / 2)) (depth - depth / 2) ≤ roundedShare 150 16 :=
      roundedShare_le hhalf (by omega)
    have hexact : roundedShare k depth ≤ roundedShare 65535 31 := roundedShare_le hword hdeep
    have hzero : roundedShare 150 16 = 0 ∧ roundedShare 65535 31 = 0 := by decide
    rw [shrink, if_neg hdepth, ihRest ((shrink_le _ _).trans_lt hk)]
    omega

/-! ### The steps of a fold -/

/-- The steps of a fold: `k` is shrunk through `depth`, and on the way a number is shrunk in one
step through a part of the depth. -/
inductive UnfoldedStep (number part : ℕ) : ℕ → ℕ → Prop
  | last (h : part ≤ maxUnfoldedDepth) : UnfoldedStep number part number part
  | half {k depth : ℕ} (h : maxUnfoldedDepth < depth)
      (step : UnfoldedStep number part k (depth / 2)) : UnfoldedStep number part k depth
  | rest {k between depth : ℕ} (h : maxUnfoldedDepth < depth)
      (hhalf : shrinkWord k (depth / 2) = .ok between)
      (step : UnfoldedStep number part between (depth - depth / 2)) :
      UnfoldedStep number part k depth

/-- Numbers do not grow on the way, and each part is done in one step. -/
lemma UnfoldedStep.bounds {number part : ℕ} (h : UnfoldedStep number part k depth)
    (hk : k < wordBound 16) : number ≤ k ∧ part ≤ maxUnfoldedDepth := by
  induction h with
  | last hpart => exact ⟨le_rfl, hpart⟩
  | half _ _ ih => exact ih hk
  | @rest k between depth _ hhalf _ ih =>
    rw [shrinkWord_eq_ok hk, Except.ok.injEq] at hhalf
    have hle : between ≤ k := hhalf ▸ shrink_le k (depth / 2)
    obtain ⟨hnumber, hpart⟩ := ih (hle.trans_lt hk)
    exact ⟨hnumber.trans hle, hpart⟩

/-! ### Levels -/

/-- Deeper levels are no wider. -/
lemma capacityAt_anti (hk : k < wordBound 16) (m : ℕ) (h : depth' ≤ depth) :
    capacityAt k m depth ≤ capacityAt k m depth' := by
  refine max_le_max le_rfl ?_
  rw [shrink_eq hk, shrink_eq hk]
  exact roundedShare_le le_rfl h

/-- Shrinking a word of 16 bits through any depth has an answer. No shift loses bits on the way. The
answer is `k (2/3)^depth`, rounded exactly and with a half going up, and so it is not above `k` and
falls with the depth. The levels of a sketch get no narrower towards the top. -/
theorem shrinkWord_rounds_exactly (hk : k < wordBound 16) :
    (∀ depth, ∃ result, shrinkWord k depth = .ok result ∧
      result = (2 * k * 2 ^ depth + 3 ^ depth) / (2 * 3 ^ depth) ∧
      (result : ℤ) = round ((k : ℚ) * (2 / 3) ^ depth) ∧ result ≤ k ∧
      ∀ number part, UnfoldedStep number part k depth →
        shiftWord 64 number 1 = .ok (2 * number) ∧
          shiftWord 64 (2 * number) part = .ok (2 * number * 2 ^ part)) ∧
    (∀ depth depth' result result', depth ≤ depth' → shrinkWord k depth = .ok result →
      shrinkWord k depth' = .ok result' → result' ≤ result) ∧
    ∀ numLevels level level' m, numLevels ≤ maxLevels → level ≤ level' → level' < numLevels →
      ∃ capacity capacity', levelCapacity k numLevels level m = .ok capacity ∧
        levelCapacity k numLevels level' m = .ok capacity' ∧ capacity ≤ capacity' := by
  refine ⟨?_, ?_, ?_⟩
  · intro depth
    have hresult : shrink k depth = roundedShare k depth := shrink_eq hk
    refine ⟨_, shrinkWord_eq_ok hk depth, hresult, ?_, shrink_le k depth, ?_⟩
    · rw [hresult]
      exact roundedShare_eq_round k depth
    · intro number part hstep
      obtain ⟨hnumber, hpart⟩ := hstep.bounds hk
      exact shiftWord_product (hnumber.trans_lt hk) hpart
  · intro depth depth' result result' hdepth h h'
    rw [shrinkWord_eq_ok hk, Except.ok.injEq, shrink_eq hk] at h h'
    rw [← h, ← h']
    exact roundedShare_le le_rfl hdepth
  · intro numLevels level level' m hnumLevels hlevel hlevel'
    refine ⟨_, _, levelCapacity_eq_ok hk hnumLevels (hlevel.trans_lt hlevel'),
      levelCapacity_eq_ok hk hnumLevels hlevel', capacityAt_anti hk m ?_⟩
    omega

/-- The largest number shrinks to one at a depth of 29, and to zero further down, also at a depth
that is folded and at one that is folded twice. -/
theorem shrinkWord_rounds_exactly_of_greatest :
    65535 < wordBound 16 ∧ shrinkWord 65535 29 = .ok 1 ∧ shrinkWord 65535 31 = .ok 0 ∧
      shrinkWord 65535 200 = .ok 0 := by
  have hk : 65535 < wordBound 16 := by decide
  obtain ⟨hrounds, -⟩ := shrinkWord_rounds_exactly hk
  obtain ⟨_, h29, rfl, -⟩ := hrounds 29
  obtain ⟨_, h31, rfl, -⟩ := hrounds 31
  obtain ⟨_, h200, rfl, -⟩ := hrounds 200
  refine ⟨hk, h29.trans ?_, h31.trans ?_, h200.trans ?_⟩ <;> decide

end QuantileSketch
