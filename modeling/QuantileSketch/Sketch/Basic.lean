import QuantileSketch.Image.Format
import QuantileSketch.Item
import QuantileSketch.Levels
import QuantileSketch.Region

/-!
# Sketches

A sketch keeps a sample of a stream of items in one array of slots that is divided into levels. An
item of level `i` stands for `2 ^ i` items of the stream. The slots below level 0 are free. A new
item goes into the highest free slot and so becomes the first item of level 0.
-/
namespace QuantileSketch

/-- The least and the greatest item of a stream. They are one value, because a sketch has either
both or none: the first item of a stream sets both, an image brings both along, and a sketch with
just one of them would set both anew with the next item. -/
structure Extremes (α : Type) where
  least : α
  greatest : α
  deriving DecidableEq, Repr

namespace Extremes

variable {α : Type} [Item α]

/-- The extremes when one more item has come. -/
def insert (x : α) : Option (Extremes α) → Extremes α
  | none => ⟨x, x⟩
  | some e =>
    { least := if Item.less x e.least then x else e.least
      greatest := if Item.less e.greatest x then x else e.greatest }

/-- The extremes as they are written to an image: fillers stand for those of an empty stream. -/
def orFiller (extremes : Option (Extremes α)) : Extremes α :=
  extremes.getD ⟨Item.filler, Item.filler⟩

end Extremes

/-- A sample of a stream. The number of levels is not kept beside the boundaries. There is always
one boundary more than there are levels: constructors and images bring both along, growth adds one
level and one boundary, and nothing else changes either number. -/
structure Sketch (α : Type) where
  /-- The accuracy parameter, the width of the top level. -/
  k : Nat
  /-- The least width of a level. -/
  m : Nat
  /-- The smallest accuracy parameter of the sketches that were merged into this one. -/
  minK : Nat
  /-- The length of the stream. -/
  n : Nat
  /-- The boundaries of the levels. -/
  levels : List Nat
  /-- All slots, those below the first boundary free. -/
  items : Array α
  /-- The extremes of the stream, none while it is empty. -/
  extremes : Option (Extremes α)
  /-- Whether level 0 is known to be sorted. -/
  levelZeroSorted : Bool
  /-- Whether the sketch refuses to change. -/
  readOnly : Bool
  /-- The region that holds the image of the sketch, if it has one. -/
  backing : Option Backing

namespace Sketch

variable {α : Type}

/-! ### Shape -/

/-- The number of levels, which is that of the spans between the boundaries. -/
def numLevels (s : Sketch α) : Nat := s.levels.length - 1

/-- The number of free slots. -/
def free (s : Sketch α) : Nat := s.levels.headD 0

/-- The number of slots. -/
def capacity (s : Sketch α) : Nat := s.levels.getLastD 0

/-- The number of items in the sample. -/
def numRetained (s : Sketch α) : Nat := s.capacity - s.free

/-- Whether the stream is empty. -/
def isEmpty (s : Sketch α) : Bool := s.n == 0

/-- Whether the stream has a single item. -/
def isSingle (s : Sketch α) : Bool := s.n == 1

/-- Whether the sketch may have dropped items of the stream. -/
def isEstimating (s : Sketch α) : Bool := decide (1 < s.numLevels)

/-! ### Contents -/

/-- The items of the sample, level 0 first. -/
def retained (s : Sketch α) : Array α := s.items.extract s.free s.capacity

/-- The items of one level, none where there is no such level. -/
def levelItems (s : Sketch α) (level : Nat) : Array α :=
  match s.levels.drop level with
  | start :: stop :: _ => s.items.extract start stop
  | _ => #[]

/-- The least item of the stream. -/
def least? (s : Sketch α) : Option α := s.extremes.map (·.least)

/-- The greatest item of the stream. -/
def greatest? (s : Sketch α) : Option α := s.extremes.map (·.greatest)

/-- The only item of a stream. -/
def single (s : Sketch α) : Except Failure α :=
  if s.isSingle then
    match s.items[s.free]? with
    | some x => .ok x
    | none => .error (.aborted .index)
  else .error (.refused (Cause.notSingle s.n).error)

/-! ### The region -/

/-- The region that holds the image. -/
def region? (s : Sketch α) : Option Bytes := s.backing.map (·.region)

/-- Whether the region carries the serial version of updatable images. -/
def regionIsUpdatable (s : Sketch α) : Bool :=
  match s.region? with
  | some region => region[Format.versionAt]?.any (·.toNat == Format.updatableVersion)
  | none => false

/-! ### Empty sketches -/

variable [Item α]

/-- A sketch of an empty stream, with one level. -/
def empty (k m : Nat) : Sketch α where
  k := k
  m := m
  minK := k
  n := 0
  levels := [k, k]
  items := Array.replicate k Item.filler
  extremes := none
  levelZeroSorted := false
  readOnly := false
  backing := none

/-- An empty sketch with the default least width. An accuracy parameter out of range is the
caller's mistake and aborts. -/
def new (k : Nat) : Except Abort (Sketch α) := do
  require (leastK ≤ k ∧ k ≤ greatestK)
    s!"k must be in [{leastK}, {greatestK}], got {k}"
  return empty k defaultM

/-- An empty sketch with a chosen least width. -/
def withM (k m : Nat) : Except Error (Sketch α) := do
  checkM m
  checkK k m
  return empty k m

end Sketch

end QuantileSketch
