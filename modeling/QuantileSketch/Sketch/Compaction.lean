import QuantileSketch.Sketch.Basic
import QuantileSketch.Slots.Merge
import QuantileSketch.Slots.Move
import QuantileSketch.Slots.Sort

/-!
# Compacting a level

Compacting a level frees slots: of each pair of neighbours in the sorted level one item is kept and
moves to the level above, where it stands for both. If the number of items is odd the first item
stays in its level. The levels below move up over the slots that have become free.
-/
namespace QuantileSketch

/-- The slots of a level and the number of items in the level above it. -/
structure Span where
  level : Nat
  start : Nat
  stop : Nat
  above : Nat
  deriving DecidableEq, Repr

namespace Span

/-- The number of items in the level. -/
def population (span : Span) : Nat := span.stop - span.start

/-- The number of items that stay in the level, none or one. -/
def odd (span : Span) : Nat := span.population % 2

/-- The number of items that move to the level above. -/
def half (span : Span) : Nat := span.population / 2

/-- The first slot of the pairs of neighbours. -/
def pairsStart (span : Span) : Nat := span.start + span.odd

/-- The number of items in the pairs of neighbours. -/
def pairsLength (span : Span) : Nat := span.population - span.odd

end Span

namespace Sketch

variable {α : Type}

/-- The slots of a level that has a level above it. -/
def span (s : Sketch α) (level : Nat) : Except Abort Span := do
  let start ← entry s.levels level
  let stop ← entry s.levels (level + 1)
  let top ← entry s.levels (level + 2)
  let above ← subWord top stop
  let _ ← subWord stop start
  return { level, start, stop, above }

/-- The boundaries after a compaction. The level above begins with the kept items, an odd item lies
right below them, and the levels further down move up by the number of freed slots. -/
def compactedLevels (levels : List Nat) (span : Span) : Except Abort (List Nat) := do
  let above ← subWord span.stop span.half
  let here ← subWord above span.odd
  require (here = span.start + span.half) "compacted level starts at the wrong slot"
  let lower ← (levels.take span.level).mapM (addWord 32 · span.half)
  return lower ++ here :: above :: levels.drop (span.level + 2)

variable [Item α]

/-- The slots after a compaction. -/
def compactedItems (items : Array α) (free : Nat) (span : Span) (bit : Bool) :
    Except Abort (Array α) := do
  let items ←
    if span.level = 0 then Slots.sortRun items span.pairsStart span.pairsLength else .ok items
  let items ←
    if span.above = 0 then Slots.halveUp items span.pairsStart span.pairsLength bit
    else do
      let items ← Slots.halveDown items span.pairsStart span.pairsLength bit
      Slots.mergeRuns items span.pairsStart span.half span.stop span.above
        (span.pairsStart + span.half)
  let items ←
    if span.odd = 1 then Slots.move items span.start (span.stop - span.half - 1) else .ok items
  if 0 < span.level then Slots.shiftUp items free span.start span.half else .ok items

/-- Compacts a level; `bit` chooses which item of each pair is kept. -/
def compact (s : Sketch α) (span : Span) (bit : Bool) : Except Abort (Sketch α) := do
  let levels ← compactedLevels s.levels span
  let items ← compactedItems s.items s.free span bit
  return { s with levels, items }

/-! ### Insertion -/

/-- Puts an item into the highest free slot. The levels then have to stand for a stream that is
longer by one item. -/
def insert (x : α) : Sketch α → Except Abort (Sketch α)
  | ⟨k, m, minK, n, levels, items, extremes, _, readOnly, backing⟩ => do
    let n ← addWord 64 n 1
    match levels with
    | [] => .error .index
    | free :: levels =>
      let slot ← subWord free 1
      if h : slot < items.size then
        let weight ← sampleWeight levels.length (slot :: levels)
        require (weight = n) "total weight does not match n"
        return ⟨k, m, minK, n, slot :: levels, items.set slot x, some (Extremes.insert x extremes),
          false, readOnly, backing⟩
      else .error .index

end Sketch

end QuantileSketch
