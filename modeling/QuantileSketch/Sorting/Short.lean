import QuantileSketch.Abort
import QuantileSketch.Sorting.Insertion

/-!
# Sorting a short list

A short list is sorted in two halves. Each half begins with a few items that are put in order by a
fixed sequence of comparisons, and the others are inserted. The halves are then merged from both
ends at once: one merge goes up and takes the lower half of the items, one goes down and takes the
upper half. On a total order the two meet in the middle. If an item is taken by both of them the
comparisons contradict one another, and the computation aborts.
-/
namespace QuantileSketch.Sorting

variable {α : Type} (less : α → α → Bool)

/-! ### Merging from both ends -/

/-- The first `count` items of the merge of two lists, as long as neither list ends, and how many of
them are from the first list. `second x y` says that `y`, from the second list, goes first. -/
def mergeFront (second : α → α → Bool) : Nat → List α → List α → List α × Nat
  | count + 1, x :: xs, y :: ys =>
    if second x y then
      let (merged, taken) := mergeFront second count (x :: xs) ys
      (y :: merged, taken)
    else
      let (merged, taken) := mergeFront second count xs (y :: ys)
      (x :: merged, taken + 1)
  | _, _, _ => ([], 0)

/-- Merges two runs from both ends. The second run is as long as the first or longer by one. Each
end takes as many items as the first run has; an item that neither takes is the middle one. -/
def mergeEnds (xs ys : List α) : Except Abort (List α) := do
  let count := xs.length
  let (low, lowX) := mergeFront (fun x y => less y x) count xs ys
  let (high, highY) := mergeFront less count ys.reverse xs.reverse
  let lowY := count - lowX
  let highX := count - highY
  require (lowX + highX ≤ xs.length ∧ lowY + highY ≤ ys.length)
    "user-provided comparison function does not correctly implement a total order"
  let middle := (xs.drop lowX).take (xs.length - lowX - highX) ++
    (ys.drop lowY).take (ys.length - lowY - highY)
  return low ++ middle ++ high.reverse

/-! ### Four and eight items -/

/-- Two items, the second before the first only if it has to be. -/
def inOrder (x y : α) : α × α := if less y x then (y, x) else (x, y)

/-- Four items in order, by five comparisons. -/
def sortFour (w x y z : α) : List α :=
  let (a, b) := inOrder less w x
  let (c, d) := inOrder less y z
  let (first, left, right, last) :=
    match less c a, less d b with
    | false, false => (a, b, c, d)
    | false, true => (a, c, d, b)
    | true, false => (c, a, b, d)
    | true, true => (c, a, d, b)
  let (left, right) := inOrder less left right
  [first, left, right, last]

/-- The items that a half begins with, in order: one, four or eight. -/
def sortSeed : List α → Except Abort (List α)
  | [a, b, c, d] => .ok (sortFour less a b c d)
  | [a, b, c, d, e, f, g, h] => mergeEnds less (sortFour less a b c d) (sortFour less e f g h)
  | xs => .ok xs

/-! ### Short lists -/

/-- The greatest length of a short list. -/
def shortLength : Nat := 32

/-- The number of items that the halves of a list of length `n` begin with. -/
def seedLength (n : Nat) : Nat := if 16 ≤ n then 8 else if 8 ≤ n then 4 else 1

/-- Sorts a half that begins with `seed` items. -/
def sortHalf (seed : Nat) (xs : List α) : Except Abort (List α) := do
  let front ← sortSeed less (xs.take seed)
  return extend less front (xs.drop seed)

/-- Sorts a short list. -/
def sortShort (xs : List α) : Except Abort (List α) := do
  let seed := seedLength xs.length
  let half := xs.length / 2
  let lower ← sortHalf less seed (xs.take half)
  let upper ← sortHalf less seed (xs.drop half)
  mergeEnds less lower upper

end QuantileSketch.Sorting
