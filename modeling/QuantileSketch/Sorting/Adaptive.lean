import QuantileSketch.Sorting.Partition

/-!
# Sorting that adapts to its input

The list is cut into runs, and the runs are merged. The stretches that are not in order are sorted
as they are found if the list is small, else together with their neighbours by partition. The sort
is stable on a total order. On a relation that is none it comes to some arrangement of the items,
or it aborts if it notices.
-/
namespace QuantileSketch.Sorting

variable {α : Type} (less : α → α → Bool)

/-- Sorts by merging runs, some of which are left to be sorted by partition. -/
def sortByLongRuns (xs : List α) : Except Abort (List α) := do
  let good := goodLength xs.length
  let runs ← cut less good good (fun piece => .ok ⟨piece, false⟩) xs
  mergeRuns less (sortByPartition less) xs.length runs

/-- Sorts by merging runs. -/
def sortAdaptively (xs : List α) : Except Abort (List α) :=
  if xs.length ≤ 2 * shortLength then sortByShortRuns less xs else sortByLongRuns less xs

end QuantileSketch.Sorting
