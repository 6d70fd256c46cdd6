import QuantileSketch.Capacity

/-!
# Level boundaries

The levels of a sketch lie one after the other in an array of slots. A list of boundaries says
where: level `i` takes the slots from entry `i` up to entry `i + 1`, and what lies below the first
entry is free. An item of level `i` stands for `2 ^ i` items of the stream.

The functions here accept any list and abort where an entry is missing or a level ends before it
begins.
-/
namespace QuantileSketch

/-- The number of items in a level. -/
def population (levels : List Nat) (level : Nat) : Except Abort Nat := do
  let stop ← entry levels (level + 1)
  let start ← entry levels level
  subWord stop start

/-- The number of items in a level, none where there is no such level. -/
def levelSize (level numLevels : Nat) (levels : List Nat) : Except Abort Nat :=
  if numLevels ≤ level then .ok 0 else population levels level

/-- The number of items above level 0. -/
def retainedAboveZero (numLevels : Nat) (levels : List Nat) : Except Abort Nat := do
  let stop ← entry levels numLevels
  let start ← entry levels 1
  subWord stop start

/-! ### Weights -/

/-- The length of the stream that the levels stand for, as a number of any size. -/
def exactWeight : List Nat → Nat
  | start :: stop :: levels => (stop - start) + 2 * exactWeight (stop :: levels)
  | _ => 0

/-- The weight of some levels added to `total`, if an item of the lowest of them weighs `weight`.
All numbers stay at the largest word of 64 bits once they reach it. -/
def addWeights : Nat → Nat → Nat → List Nat → Except Abort Nat
  | 0, _, total, _ => .ok total
  | numLevels + 1, weight, total, start :: stop :: levels => do
    let items ← subWord stop start
    addWeights numLevels (saturate (weight * 2))
      (saturate (total + saturate (weight * items))) (stop :: levels)
  | _ + 1, _, _, _ => .error .index

/-- The length of the stream that the levels stand for, cut off at the largest word. -/
def sampleWeight (numLevels : Nat) (levels : List Nat) : Except Abort Nat :=
  addWeights numLevels 1 0 levels

/-- The running sums of some weights, and the last of them. -/
def cumulativeFrom (subtotal : Nat) : List Nat → Except Abort (List Nat × Nat)
  | [] => .ok ([], subtotal)
  | weight :: weights => do
    let subtotal ← addWord 64 subtotal weight
    let (sums, total) ← cumulativeFrom subtotal weights
    return (subtotal :: sums, total)

/-- The running sums of some weights, and their total. -/
def cumulative (weights : List Nat) : Except Abort (List Nat × Nat) :=
  cumulativeFrom 0 weights

/-! ### Numbers of levels -/

/-- A number of levels that is enough for a stream of `n` items, whatever the parameters. -/
def levelBound (n : Nat) : Nat :=
  if n = 0 then 1 else 1 + n.log2

/-- The first of some levels that is at its capacity. The boundaries are those from `level` on. -/
def findFull (k m numLevels : Nat) : Nat → Nat → List Nat → Except Abort (Option Nat)
  | 0, _, _ => .ok none
  | remaining + 1, level, start :: stop :: levels => do
    let items ← subWord stop start
    let capacity ← levelCapacity k numLevels level m
    if capacity ≤ items then return some level
    findFull k m numLevels remaining (level + 1) (stop :: levels)
  | _ + 1, _, _ => .error .index

/-- The first level, from level 0 on, whose population has reached its capacity. -/
def firstFullLevel (k m numLevels : Nat) (levels : List Nat) : Except Abort (Option Nat) :=
  findFull k m numLevels numLevels 0 levels

end QuantileSketch
