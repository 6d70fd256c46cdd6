import QuantileSketch.Session.Basic
import QuantileSketch.Sketch.Backing

/-!
# Growing by a level

A sketch without free slots can grow by an empty top level. Every other level is then one further
from the top, so that the total capacity grows by that of level 0. The new slots open below the
items, and every level keeps its items in their order.

A sketch with a region makes sure first that the larger image will fit. If it does not get enough
room the sketch stays as it is.
-/
namespace QuantileSketch

namespace Sketch

variable {α : Type} [Item α]

/-- The sketch with an empty level on top and `delta` free slots. -/
def withTopLevel (s : Sketch α) (delta : Nat) : Except Abort (Sketch α) := do
  let top ← addWord 32 s.capacity delta
  let levels ← s.levels.mapM (addWord 32 · delta)
  return { s with
    levels := levels ++ [top]
    items := Array.replicate delta Item.filler ++ s.items }

/-- The capacity of the new level 0, and the sketch with as many free slots and an empty level on
top. -/
def enlarged (s : Sketch α) : Except Abort (Nat × Sketch α) := do
  let delta ← levelCapacity s.k (s.numLevels + 1) 0 s.m
  let grown ← s.withTopLevel delta
  return (delta, grown)

end Sketch

namespace Session

variable {γ α : Type} [Item α]

/-- Installs a region, after copying the preamble of the old one to it. -/
def installRegion (region : Bytes) (s : Sketch α) : Except Abort (Sketch α) :=
  s.mapRegion fun old => do
    require (Format.dataAt ≤ old.size) "region must hold a preamble"
    region.splice 0 (old.window 0 Format.dataAt)

/-- Replaces the region by one of at least `required` bytes if it is shorter. -/
def reserve (required : Nat) (r : Session γ α) : Outcome (Session γ α) :=
  match r.sketch.backing with
  | none => .done r
  | some b =>
    if required ≤ b.region.size then .done r
    else
      let r := r.record (.regionRequest b.region.size required)
      let r := { r with sketch := { r.sketch with backing := some b.asked } }
      match b.request required with
      | .error (.refused error) => .refused error r
      | .error (.aborted abort) => .aborted abort r.log
      | .ok region => r.change (installRegion region)

/-- Grows a sketch without free slots by an empty top level. -/
def grow (r : Session γ α) : Outcome (Session γ α) :=
  let s := r.sketch
  if s.free ≠ 0 then .aborted (.check "sketch must be completely full") r.log
  else if s.items.size ≠ s.capacity then
    .aborted (.check "items must fill the capacity") r.log
  else if maxLevels ≤ s.numLevels then .refused Cause.tooManyLevels.error r
  else
    match s.enlarged with
    | .error abort => .aborted abort r.log
    | .ok (delta, grown) =>
      (r.reserve (updatableSize grown.numLevels grown.capacity (Item.width α))).andThen fun r =>
        let r := r.record (.newTopLevel s.k grown.numLevels delta grown.capacity)
        r.change fun s => Sketch.sync { grown with backing := s.backing }

/-- Grows a sketch by an empty top level, unless it is read only or still has free slots. -/
def addEmptyTopLevel (r : Session γ α) : Outcome (Session γ α) :=
  if r.sketch.readOnly then .refused (Cause.readOnly .addEmptyTopLevel).error r
  else if r.sketch.free ≠ 0 then .refused (Cause.notFull r.sketch.free).error r
  else r.grow

end Session

end QuantileSketch
