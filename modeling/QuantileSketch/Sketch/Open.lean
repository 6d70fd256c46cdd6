import QuantileSketch.Image.Validation
import QuantileSketch.Sketch.Backing

/-!
# Opening images

A sketch is read back from any valid image, wherever the image came from. It can be opened for
changes, for reading only, and, if the image is updatable, for working in the region of the image.
-/
namespace QuantileSketch

namespace Sketch

variable {α : Type} [Item α]

/-- Reads one item. -/
def readItem (bytes : Bytes) (pos : Nat) : Except Error α :=
  match Item.read? bytes pos with
  | some x => .ok x
  | none => .error (Cause.itemCutOff (Item.typeName α)).error

/-- Reads `count` items that stand one after the other and puts them behind some others. -/
def readItems (bytes : Bytes) : Nat → Nat → Array α → Except Error (Array α)
  | 0, _, items => .ok items
  | count + 1, pos, items => do
    let x ← readItem bytes pos
    readItems bytes count (pos + Item.width α) (items.push x)

/-- Reads the least and the greatest item. -/
def readExtremes (bytes : Bytes) (pos : Nat) : Except Error (Extremes α) := do
  let least ← readItem bytes pos
  let greatest ← readItem bytes (pos + Item.width α)
  return { least, greatest }

/-- The extremes and the slots of a valid image. -/
def readData (v : ImageInfo) (bytes : Bytes) :
    Except Failure (Option (Extremes α) × Array α) := do
  let capacity := v.levels.getLastD 0
  let free := v.levels.headD 0
  match v.layout with
  | .emptyCompact => return (none, Array.replicate capacity Item.filler)
  | .singleCompact =>
    let x ← readItem bytes Format.singleDataAt
    let slot ← subWord capacity 1
    return (some ⟨x, x⟩, (Array.replicate capacity Item.filler).setIfInBounds slot x)
  | .fullCompact =>
    let pos := Format.dataAt + v.numLevels * offsetBytes
    let extremes ← readExtremes bytes pos
    let retained ← subWord capacity free
    let items ← readItems bytes retained (pos + 2 * Item.width α)
      (Array.replicate free Item.filler)
    return (if v.n = 0 then none else some extremes, items)
  | .updatable =>
    let pos := Format.dataAt + (v.numLevels + 1) * offsetBytes
    let extremes ← readExtremes bytes pos
    let items ← readItems bytes capacity (pos + 2 * Item.width α) #[]
    return (if v.n = 0 then none else some extremes, items)

/-- The sketch in a valid image. -/
def ofImage (v : ImageInfo) (bytes : Bytes) : Except Failure (Sketch α) := do
  let (extremes, items) ← readData v bytes
  let expected ← totalItemCapacity v.k v.m v.numLevels
  require (expected = v.levels.getLastD 0) "levels must end at the total capacity"
  return {
    k := v.k
    m := v.m
    minK := v.minK
    n := v.n
    levels := v.levels
    items
    extremes
    levelZeroSorted := v.levelZeroSorted
    readOnly := false
    backing := none }

/-- Opens an image for changes. The sketch does not depend on the image any more. -/
def read (bytes : Bytes) : Except Failure (Sketch α) := do
  let v ← ImageInfo.read bytes (Item.width α)
  ofImage v bytes

/-- Opens an image for reading only. -/
def wrap (bytes : Bytes) : Except Failure (Sketch α) := do
  let s ← read bytes
  return { s with readOnly := true }

/-- Opens an updatable image for working in its region. -/
def wrapInRegion (region : Bytes) (server : RegionServer) : Except Failure (Sketch α) := do
  let v ← ImageInfo.read region (Item.width α)
  (Cause.notUpdatable v.layout).unless (v.layout = .updatable)
  let s ← ofImage v region
  return { s with backing := some { region, server } }

end Sketch

end QuantileSketch
