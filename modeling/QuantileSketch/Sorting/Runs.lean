import QuantileSketch.Abort

/-!
# Merging runs

A list falls into runs: stretches that are in order already, and stretches in between that are
still to be sorted. Neighbouring runs are merged, and the order of the merges is that of a tree
which is nearly balanced by length. Two runs that are not sorted yet are put together as they are,
so that they are sorted in one go later.
-/
namespace QuantileSketch.Sorting

variable {α : Type} (less : α → α → Bool)

/-- Neighbouring items of a list, and whether they are sorted. -/
structure Run (α : Type) where
  items : List α
  sorted : Bool

/-! ### Finding runs -/

/-- A power of two near the square root, averaged with the quotient by it. -/
def roughSqrt (n : Nat) : Nat :=
  let shift := (1 + Nat.log2 n) / 2
  ((1 <<< shift) + (n >>> shift)) / 2

/-- The least length of an ordered stretch that makes a run in a list of length `n`. Shorter ones
are not worth a merge of their own. -/
def goodLength (n : Nat) : Nat :=
  if n ≤ 4096 then min (n - n / 2) 64 else roughSqrt n

/-- Whether a list that begins with `x` begins with a strictly falling stretch. -/
def falls (x : α) : List α → Bool
  | [] => false
  | y :: _ => less y x

/-- The number of items behind `x` up to which the list keeps falling, or keeps not falling. -/
def stretch (x : α) (xs : List α) : Nat :=
  (((x :: xs).zip xs).takeWhile fun (y, z) => less z y == falls less x xs).length

/-- Cuts a list into runs. An ordered stretch of at least `good` items is a run; a falling one is
turned round, which keeps equal items in order because it has none. Where there is no such stretch
the next `size` items are the run that `make` makes of them. -/
def cut (good size : Nat) (make : List α → Except Abort (Run α)) :
    List α → Except Abort (List (Run α))
  | [] => .ok []
  | x :: xs =>
    let more := stretch less x xs
    if good ≤ more + 1 then do
      let items := x :: xs.take more
      let runs ← cut good size make (xs.drop more)
      return ⟨if falls less x xs then items.reverse else items, true⟩ :: runs
    else do
      let run ← make (x :: xs.take (size - 1))
      let runs ← cut good size make (xs.drop (size - 1))
      return run :: runs
termination_by xs => xs.length
decreasing_by all_goals (simp only [List.length_drop, List.length_cons]; omega)

/-! ### Joining runs -/

namespace Run

/-- The items of a run, which `sort` sorts if they are not sorted yet. -/
def settle (sort : List α → Except Abort (List α)) (run : Run α) : Except Abort (List α) :=
  if run.sorted then .ok run.items else sort run.items

end Run

/-- Merges two sorted lists, from the front if the first is not the longer one, else from the back.
Of two items that do not stand before one another the one of the first list comes first. -/
def mergeSorted (xs ys : List α) : List α :=
  if xs.length ≤ ys.length then xs.merge ys fun x y => !less y x
  else (ys.reverse.merge xs.reverse fun y x => !less y x).reverse

/-- Puts two neighbouring runs together. -/
def join (sort : List α → Except Abort (List α)) (a b : Run α) : Except Abort (Run α) :=
  if a.sorted || b.sorted then do
    let xs ← a.settle sort
    let ys ← b.settle sort
    return ⟨mergeSorted less xs ys, true⟩
  else .ok ⟨a.items ++ b.items, false⟩

/-! ### The tree of merges

Each boundary between two runs is a node of the tree. Its height tells in which binary place the
middles of the two runs first differ, as fractions of the whole length: the lower the place, the
lower the node. A run waits at its right boundary until all lower nodes to its right are merged. -/

/-- The height of the boundary `mid` between the runs from `start` to `mid` and from `mid` to
`stop` in a list of length `total`. -/
def boundaryHeight (total start mid stop : Nat) : Nat :=
  let scale := ((1 <<< 62) + total - 1) / total
  Nat.log2 ((scale * (start + mid)) ^^^ (scale * (mid + stop)))

/-- Joins a run with the runs that wait to its left at boundaries up to a height. -/
def joinWaiting (sort : List α → Except Abort (List α)) (height : Nat) :
    List (Nat × Run α) → Run α → Except Abort (List (Nat × Run α) × Run α)
  | [], run => .ok ([], run)
  | (h, left) :: waiting, run =>
    if h ≤ height then do
      let run ← join less sort left run
      joinWaiting sort height waiting run
    else .ok ((h, left) :: waiting, run)

/-- Joins the run that begins at `start` with all runs that wait to its left and all that follow
it. -/
def joinAll (sort : List α → Except Abort (List α)) (total : Nat) :
    Nat → List (Nat × Run α) → Run α → List (Run α) → Except Abort (Run α)
  | _, waiting, run, [] => do
    let (_, run) ← joinWaiting less sort 64 waiting run
    return run
  | start, waiting, run, next :: runs => do
    let mid := start + run.items.length
    let height := boundaryHeight total start mid (mid + next.items.length)
    let (waiting, run) ← joinWaiting less sort height waiting run
    joinAll sort total mid ((height, run) :: waiting) next runs

/-- The sorted items of some runs of `total` items. -/
def mergeRuns (sort : List α → Except Abort (List α)) (total : Nat) :
    List (Run α) → Except Abort (List α)
  | [] => .ok []
  | run :: runs => do
    let run ← joinAll less sort total 0 [] run runs
    run.settle sort

end QuantileSketch.Sorting
