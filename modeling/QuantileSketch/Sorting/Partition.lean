import QuantileSketch.Sorting.Runs
import QuantileSketch.Sorting.Short

/-!
# Sorting by partition

A list without long ordered stretches is split around one of its items, the pivot: the items that
stand before it, and the others, each in their old order. The parts are sorted in the same way down
to short lists. After too many splits the rest is sorted by merging short runs.
-/
namespace QuantileSketch.Sorting

variable {α : Type} (less : α → α → Bool)

/-- Sorts by merging runs, all of which are sorted as soon as they are found. -/
def sortByShortRuns (xs : List α) : Except Abort (List α) := do
  let make (piece : List α) : Except Abort (Run α) := do
    let items ← sortShort less piece
    return ⟨items, true⟩
  let runs ← cut less (goodLength xs.length) shortLength make xs
  mergeRuns less .ok xs.length runs

/-! ### The pivot -/

/-- The middle one of three items. -/
def median (a b c : α) : α :=
  if less a b == less a c then if less b c == less a b then b else c else a

/-- An item near the middle of the order among the `n` items from `start` on: the median of three
items, or, if there are at least 64 items, of three such medians. -/
def pseudoMedian (item : Nat → α) (start n : Nat) : α :=
  let step := n / 8
  if 8 ≤ step then
    median less (pseudoMedian item start step) (pseudoMedian item (start + 4 * step) step)
      (pseudoMedian item (start + 7 * step) step)
  else median less (item start) (item (start + 4 * step)) (item (start + 7 * step))
termination_by n
decreasing_by all_goals omega

/-- The item around which a list is split, which begins with `x`. -/
def pivot (x : α) (xs : List α) : α :=
  let items := (x :: xs).toArray
  pseudoMedian less (fun i => items.getD i x) 0 items.size

/-! ### The splits -/

/-- Sorts a list with at most `limit` splits one inside the other. No item of the list stands
before `floor`. If the pivot is not above the floor, or no item stands before it, then the items
that do not stand after the pivot are all equal to it and need no more sorting. -/
def sortBySplits : Nat → Option α → List α → Except Abort (List α)
  | _, _, [] => .ok []
  | 0, _, x :: xs =>
    if (x :: xs).length ≤ shortLength then sortShort less (x :: xs)
    else sortByShortRuns less (x :: xs)
  | limit + 1, floor, x :: xs =>
    if (x :: xs).length ≤ shortLength then sortShort less (x :: xs)
    else
      let p := pivot less x xs
      let lower := (x :: xs).filter fun y => less y p
      if floor.any (fun f => !less f p) || lower.isEmpty then do
        let upper ← sortBySplits limit none ((x :: xs).filter fun y => less p y)
        return (x :: xs).filter (fun y => !less p y) ++ upper
      else do
        let upper ← sortBySplits limit (some p) ((x :: xs).filter fun y => !less y p)
        let lower ← sortBySplits limit floor lower
        return lower ++ upper

/-- Sorts by partition. The splits are limited to twice the number that halves would need. -/
def sortByPartition (xs : List α) : Except Abort (List α) :=
  sortBySplits less (2 * Nat.log2 xs.length) none xs

end QuantileSketch.Sorting
