import QuantileSketch.Bytes

/-!
# Moving items between slots

A move copies one slot to another. The old item stays where it was. Several moves make up the
halving of a run and the shift of a run, and the order of the moves matters as soon as the slots
that are read and those that are written overlap.
-/
namespace QuantileSketch.Slots

variable {α : Type}

/-- Copies the item in one slot to another slot. -/
def move (xs : Array α) (source target : Nat) : Except Abort (Array α) :=
  if h : source < xs.size ∧ target < xs.size then .ok (xs.set target xs[source])
  else .error .index

/-! ### Halving

Of each pair of neighbours in a run one is kept. The kept items are packed together at the upper or
at the lower end of the run; the other half of the run is free afterwards. -/

/-- Moves items that are two slots apart to neighbouring slots, going down. -/
def packDown : Nat → Nat → Nat → Array α → Except Abort (Array α)
  | 0, _, _, xs => .ok xs
  | count + 1, source, target, xs => do
    let xs ← move xs source target
    packDown count (source - 2) (target - 1) xs

/-- Moves items that are two slots apart to neighbouring slots, going up. -/
def packUp : Nat → Nat → Nat → Array α → Except Abort (Array α)
  | 0, _, _, xs => .ok xs
  | count + 1, source, target, xs => do
    let xs ← move xs source target
    packUp count (source + 2) (target + 1) xs

/-- Keeps the second item of each pair, or the first one if `bit` is set, in the upper half of the
`len` slots from `start` on. -/
def halveUp (xs : Array α) (start len : Nat) (bit : Bool) : Except Abort (Array α) := do
  require (len % 2 = 0) "length must be even"
  let source ← subWord (start + len) (1 + bit.toNat)
  packDown (len / 2) source (start + len - 1) xs

/-- Keeps the first item of each pair, or the second one if `bit` is set, in the lower half of the
`len` slots from `start` on. -/
def halveDown (xs : Array α) (start len : Nat) (bit : Bool) : Except Abort (Array α) := do
  require (len % 2 = 0) "length must be even"
  packUp (len / 2) (start + bit.toNat) start xs

/-! ### Shifting -/

/-- Copies the slots from `start` up to `stop` all at once to the slots `distance` higher. -/
def shiftUp (xs : Array α) (start stop distance : Nat) : Except Abort (Array α) :=
  if start ≤ stop ∧ stop + distance ≤ xs.size then
    .ok (overwrite xs (start + distance) (xs.extract start stop).toList)
  else .error .index

end QuantileSketch.Slots
