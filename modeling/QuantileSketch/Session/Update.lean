import QuantileSketch.Session.Growth
import QuantileSketch.Sketch.Compaction

/-!
# Feeding a sketch

A new item needs a free slot. If there is none a level is compacted first: the lowest one that is
at its capacity. If that is the top level the sketch grows by a level before.
-/
namespace QuantileSketch

namespace Session

variable {γ α : Type} [Coin γ] [Item α]

/-- Compacts a level that has a level above it. -/
def compact (level : Nat) (r : Session γ α) : Outcome (Session γ α) :=
  match r.sketch.span level with
  | .error abort => .aborted abort r.log
  | .ok span =>
    let (bit, coin) := Coin.toss r.coin
    let r := { r.record (.compacting level span.population span.above) with coin }
    r.change fun s => s.compact span bit

/-- Frees slots of a sketch that has none. -/
def compress (r : Session γ α) : Outcome (Session γ α) :=
  let s := r.sketch
  match firstFullLevel s.k s.m s.numLevels s.levels with
  | .error abort => .aborted abort r.log
  | .ok none =>
    .aborted (.check "a completely full sketch always has a level at or over capacity") r.log
  | .ok (some level) =>
    (if level + 1 = s.numLevels then r.grow else .done r).andThen (compact level)

/-- Feeds one item to a sketch. What is no number is dropped. -/
def update (x : α) (r : Session γ α) : Outcome (Session γ α) :=
  if r.sketch.readOnly then .refused (Cause.readOnly .update).error r
  else if Item.isNaN x then .done r
  else if r.sketch.free = 0 then
    r.compress.andThen (change fun s => do
      let s ← s.insert x
      s.sync)
  else
    r.change fun s => do
      let s ← s.insert x
      s.writeInsertion x

/-- Feeds items to a sketch up to the first that is not taken, and counts those that are. -/
def updateAll (count : Nat) : List α → Session γ α → Nat × Outcome (Session γ α)
  | [], r => (count, .done r)
  | x :: xs, r =>
    match r.update x with
    | .done r => updateAll (count + 1) xs r
    | outcome => (count, outcome)

end Session

end QuantileSketch
