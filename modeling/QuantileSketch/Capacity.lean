import QuantileSketch.Error.Cause
import QuantileSketch.Word

/-!
# Capacities of levels

The top level holds `k` items, and every level below it two thirds of the one above, but no level
fewer than `m`. Capacities are rounded to whole items, a half upwards, by exact arithmetic. The
depth of a level is its distance from the top.

Everything is computed in words, from a table of powers of three. A level that a sketch cannot have
ends the computation.
-/
namespace QuantileSketch

/-- Refuses a least width that is odd or out of range. -/
def checkM (m : Nat) : Except Error Unit :=
  (Cause.invalidM m).unless (leastM ≤ m ∧ m ≤ greatestM ∧ m % 2 = 0)

/-- Refuses an accuracy parameter that is out of range. -/
def checkK (k m : Nat) : Except Error Unit :=
  (Cause.invalidK k m).unless (m ≤ k ∧ k ≤ greatestK)

/-! ### Shrinking by thirds -/

/-- The largest depth that is computed in one step. Up to there all products fit into 64 bits. -/
def maxUnfoldedDepth : Nat := 30

/-- The powers of three up to the largest depth that is computed in one step. -/
def powersOfThree : List Nat :=
  [1, 3, 9, 27, 81, 243, 729, 2187, 6561, 19683, 59049, 177147, 531441, 1594323, 4782969, 14348907,
    43046721, 129140163, 387420489, 1162261467, 3486784401, 10460353203, 31381059609, 94143178827,
    282429536481, 847288609443, 2541865828329, 7625597484987, 22876792454961, 68630377364883,
    205891132094649]

/-- `k (2/3)^depth`, rounded in one step with a half going up. The answer is a word of 16 bits, as
`k` is, and the steps on the way have 64 bits. -/
def shrinkOnceWord (k depth : Nat) : Except Abort Nat := do
  require (depth ≤ maxUnfoldedDepth) "depth must be <= 30"
  let doubled ← shiftWord 64 k 1
  let product ← shiftWord 64 doubled depth
  let power ← entry powersOfThree depth
  let rounded ← addWord 64 (product / power) 1
  let result := rounded >>> 1
  require (result ≤ k) "capacity result exceeds k"
  return result % wordBound 16

/-- `k (2/3)^depth` rounded. A great depth is folded into two halves, and each is rounded. -/
def shrinkWord (k depth : Nat) : Except Abort Nat :=
  if depth ≤ maxUnfoldedDepth then shrinkOnceWord k depth
  else do
    let between ← shrinkWord k (depth / 2)
    shrinkWord between (depth - depth / 2)
termination_by depth
decreasing_by all_goals simp [maxUnfoldedDepth] at *; omega

/-! ### Levels -/

/-- The capacity of one level of a sketch, which has to have that level. -/
def levelCapacity (k numLevels level m : Nat) : Except Abort Nat := do
  require (1 ≤ numLevels ∧ numLevels ≤ maxLevels)
    s!"num_levels must be in [1, {maxLevels}], got {numLevels}"
  require (level < numLevels) "level must be < num_levels"
  let width ← shrinkWord k (numLevels - level - 1)
  return max m width

/-- Adds the capacities of the levels from `level` on, `remaining` of them, to a sum. -/
def addCapacities (k m numLevels : Nat) : Nat → Nat → Nat → Except Abort Nat
  | 0, _, sum => .ok sum
  | remaining + 1, level, sum => do
    let capacity ← levelCapacity k numLevels level m
    let sum ← addWord 32 sum capacity
    addCapacities k m numLevels remaining (level + 1) sum

/-- The capacity of all levels of a sketch together, summed from level 0 upwards. -/
def totalItemCapacity (k m numLevels : Nat) : Except Abort Nat :=
  addCapacities k m numLevels numLevels 0 0

end QuantileSketch
