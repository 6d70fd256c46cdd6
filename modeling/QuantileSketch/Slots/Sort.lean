import QuantileSketch.Item
import QuantileSketch.Sorting.Adaptive

/-!
# Sorting a run

Runs are sorted stably, short ones by insertion. Longer ones whose items all have a place on the
line are sorted by merging halves; every stable method gives the same answer for them. Items without
a place are neither before nor after any other item, so that there is no order to be found. What
becomes of a longer run with such items is up to the method, which may abort.
-/
namespace QuantileSketch.Slots

variable {α : Type} [Item α]

/-- The greatest length of a run that is sorted by insertion. -/
def insertionLimit : Nat := 20

/-- The sorted run of some items, items at the same place in their old order. -/
def sorted (xs : List α) : Except Abort (List α) :=
  if xs.length ≤ insertionLimit then .ok (Sorting.extend Item.less [] xs)
  else if xs.any Item.isNaN then Sorting.sortAdaptively Item.less xs
  else .ok (xs.mergeSort fun x y => !Item.less y x)

/-- Sorts the `len` items from `start` on. -/
def sortRun (xs : Array α) (start len : Nat) : Except Abort (Array α) :=
  if start + len ≤ xs.size then do
    let run ← sorted (xs.extract start (start + len)).toList
    return overwrite xs start run
  else .error .index

end QuantileSketch.Slots
