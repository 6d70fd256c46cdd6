/-!
# Encodings of an image

An image has one of four layouts. All of them begin with the same preamble.
-/
namespace QuantileSketch

/-- The encodings of a sketch in an image. -/
inductive Layout where
  /-- The retained items of a sketch of several items. -/
  | fullCompact
  /-- The preamble alone. -/
  | emptyCompact
  /-- The preamble and the only item. -/
  | singleCompact
  /-- All slots of a sketch, the free ones too. -/
  | updatable
  deriving DecidableEq, Repr

/-- The name of a layout. -/
def Layout.name : Layout → String
  | .fullCompact => "FullCompact"
  | .emptyCompact => "EmptyCompact"
  | .singleCompact => "SingleCompact"
  | .updatable => "Updatable"

/-- The parts of an image that can be cut off. -/
inductive ImagePart where
  | preamble
  | levels
  | sketch
  deriving DecidableEq, Repr

/-- The name of a part of an image. -/
def ImagePart.name : ImagePart → String
  | .preamble => "preamble"
  | .levels => "levels"
  | .sketch => "sketch"

end QuantileSketch
