import QuantileSketch.Item

/-!
# Merging two runs in place

Two sorted runs become one; of two items at the same place of the line the one of the first run
comes first. The slots that receive the items may overlap those of the upper run, because no slot
is written before its item has been read.
-/
namespace QuantileSketch.Slots

variable {α : Type} [Item α]

/-- Writes `count` items to the slots from `target` on. They come from the slots `i` up to `stopI`
and `j` up to `stopJ`. -/
def mergeInto (stopI stopJ : Nat) : Nat → Nat → Nat → Nat → Array α → Except Abort (Array α)
  | 0, _, _, _, xs => .ok xs
  | count + 1, i, j, target, xs =>
    let takeSecond :=
      if i = stopI then some true
      else if j < stopJ then
        match xs[j]?, xs[i]? with
        | some y, some x => some (Item.less y x)
        | _, _ => none
      else some false
    match takeSecond with
    | none => .error .index
    | some second =>
      let source := if second then j else i
      if h : source < xs.size ∧ target < xs.size then
        mergeInto stopI stopJ count (if second then i else i + 1) (if second then j + 1 else j)
          (target + 1) (xs.set target xs[source])
      else .error .index

/-- Merges the runs of `lenA` items from `a` on and of `lenB` items from `b` on into the slots from
`c` on. The receiving slots begin after the first run and leave room for it below the second. -/
def mergeRuns (xs : Array α) (a lenA b lenB c : Nat) : Except Abort (Array α) := do
  require (a + lenA ≤ c ∧ c + lenA ≤ b) "merge output overlaps unread items"
  mergeInto (a + lenA) (b + lenB) (lenA + lenB) a b c xs

end QuantileSketch.Slots
