import QuantileSketch.Sketch.Image

/-!
# Keeping the region current

A sketch with a region writes every change to it. An insertion touches a few fields only, so that
just these are written; after any other change the whole image is written.
-/
namespace QuantileSketch

/-- Writes fields at their positions. -/
def spliceAll : List (Nat × List UInt8) → Bytes → Except Abort Bytes
  | [], bytes => .ok bytes
  | (pos, field) :: fields, bytes => do
    let bytes ← bytes.splice pos field
    spliceAll fields bytes

namespace Sketch

variable {α : Type}

/-- Changes the region, if there is one. -/
def mapRegion (f : Bytes → Except Abort Bytes) : Sketch α → Except Abort (Sketch α)
  | ⟨k, m, minK, n, levels, items, extremes, sorted, readOnly,
      some ⟨region, server, requests⟩⟩ => do
    let region ← f region
    return ⟨k, m, minK, n, levels, items, extremes, sorted, readOnly,
      some ⟨region, server, requests⟩⟩
  | s => .ok s

variable [Item α]

/-- Writes the whole updatable image to the region. -/
def sync (s : Sketch α) : Except Abort (Sketch α) :=
  match s.backing with
  | none => .ok s
  | some _ =>
    let image := s.updatableBytes
    let size := s.imageSize true
    s.mapRegion fun region => do
      require (size ≤ region.size) "region must hold the image"
      require (image.length = size) "image has the wrong size"
      region.splice 0 image

/-- The fields of the image that an insertion into a slot changes. -/
def insertionFields (s : Sketch α) (slot : Nat) (x : α) : List (Nat × List UInt8) :=
  let extremes := Extremes.orFiller s.extremes
  let extremesAt := Format.dataAt + (s.numLevels + 1) * offsetBytes
  let itemsAt := extremesAt + 2 * Item.width α
  [(Format.flagsAt, littleEndian 1 s.flags), (Format.nAt, littleEndian 8 s.n),
    (Format.dataAt, littleEndian offsetBytes s.free),
    (extremesAt, Item.encode extremes.least ++ Item.encode extremes.greatest),
    (itemsAt + slot * Item.width α, Item.encode x)]

/-- Writes an insertion of `x` to the region, which holds the image from before it. -/
def writeInsertion (s : Sketch α) (x : α) : Except Abort (Sketch α) :=
  match s.backing with
  | none => .ok s
  | some _ =>
    let size := fullImageSize (s.numLevels + 1) (s.free + 1) (Item.width α)
    let fields := s.insertionFields s.free x
    s.mapRegion fun region => do
      require (size ≤ region.size) "region must hold the image"
      spliceAll fields region

/-- A new sketch that lives in a region. -/
def newInRegion (k m : Nat) (region : Bytes) (server : RegionServer) :
    Except Failure (Sketch α) := do
  let s : Sketch α ← withM k m
  let required := updatableSize 1 k (Item.width α)
  (Cause.shortBuffer required region.size).unless (required ≤ region.size)
  sync { s with backing := some { region, server } }

end Sketch

end QuantileSketch
