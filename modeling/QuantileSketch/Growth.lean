import QuantileSketch.Capacity
import QuantileSketch.Event
import QuantileSketch.Image.Format

/-!
# Growth planning

How many levels, items and bytes a sketch will need for a stream of a given length. A sketch is
taken to grow by a level when all its levels are full.
-/
namespace QuantileSketch

/-- Items, and the length of the stream that they stand for. -/
structure LevelStats where
  n : Nat
  numLevels : Nat
  numItems : Nat
  deriving DecidableEq, Repr

/-- One level of a sketch when it is full. -/
def levelCapacityItems (k m numLevels level : Nat) : Except Abort LevelStats := do
  let items ← levelCapacity k numLevels level m
  return { n := saturate (items <<< level), numLevels, numItems := items }

/-! ### Full sketches -/

/-- The totals of some full levels, and an event for each of them. -/
structure Totals where
  items : Nat
  n : Nat
  events : List Event

/-- Adds the full levels from `level` on, `remaining` of them, to the totals of the ones below. -/
def addFullLevels (k m numLevels : Nat) : Nat → Nat → Totals → Except Abort Totals
  | 0, _, totals => .ok totals
  | remaining + 1, level, below => do
    let stats ← levelCapacityItems k m numLevels level
    let items ← addWord 32 below.items stats.numItems
    let n := saturate (below.n + stats.n)
    addFullLevels k m numLevels remaining (level + 1)
      { items
        n
        events := below.events ++ [.levelStructure level stats.numItems items stats.n n] }

/-- The totals of a sketch of `numLevels` full levels. -/
def fullTotals (k m numLevels : Nat) : Except Abort Totals :=
  addFullLevels k m numLevels numLevels 0 { items := 0, n := 0, events := [] }

/-- A sketch of `numLevels` full levels, and the events of counting its items. If there cannot be so
many levels, level 0 is the one that cannot be counted, so that there are no events then. -/
def fullSketchStats (k m numLevels : Nat) : List Event × Except Abort LevelStats :=
  match fullTotals k m numLevels with
  | .error abort => ([], .error abort)
  | .ok totals => (totals.events, .ok { n := totals.n, numLevels, numItems := totals.items })

/-! ### The plan -/

/-- What a sketch will need for a stream. -/
structure GrowthPlan where
  k : Nat
  m : Nat
  /-- The length of the stream. -/
  givenN : Nat
  /-- The smallest number of levels that take the stream. -/
  numLevels : Nat
  /-- The capacity of that many levels. -/
  maxItems : Nat
  /-- The longest stream that they take. -/
  maxN : Nat
  /-- The size of the compact image when all these levels are full. -/
  compactBytes : Nat
  /-- The size of the updatable image at this number of levels. -/
  updatableBytes : Nat
  deriving DecidableEq, Repr

/-- Tries one number of levels after the other, `remaining` of them from `numLevels` on. -/
def planFrom (k m n itemSize : Nat) :
    Nat → Nat → List Event → List Event × Except Failure GrowthPlan
  | 0, _, log => (log, .error (.refused (Cause.streamTooLong k m n).error))
  | remaining + 1, numLevels, log =>
    match fullSketchStats k m numLevels with
    | (events, .error abort) => (log ++ events, .error (.aborted abort))
    | (events, .ok stats) =>
      let log := log ++ events
      let compactBytes := fullImageSize numLevels stats.numItems itemSize
      let updatableBytes := compactBytes + offsetBytes
      match fitWord 64 updatableBytes with
      | .error abort => (log, .error (.aborted abort))
      | .ok _ =>
        let log := log ++
          [.growthScheme numLevels stats.numItems stats.n compactBytes updatableBytes]
        if n ≤ stats.n then
          (log, .ok
            { k
              m
              givenN := n
              numLevels
              maxItems := stats.numItems
              maxN := stats.n
              compactBytes
              updatableBytes })
        else planFrom k m n itemSize remaining (numLevels + 1) log

/-- The plan for a stream of `n` items of `itemSize` bytes, and the events of making it. -/
def growthPlan (k m n itemSize : Nat) : List Event × Except Failure GrowthPlan :=
  match do checkM m; checkK k m with
  | .error e => ([], .error (.refused e))
  | .ok () => planFrom k m n itemSize maxLevels 1 []

end QuantileSketch
