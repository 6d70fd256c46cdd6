import QuantileSketch.Sketch.Basic

/-!
# The text of a sketch

All fields of a sketch on one line, with all its slots. Of the region only the size is shown.
-/
namespace QuantileSketch

namespace Sketch

variable {α : Type} [Item α]

/-- Texts between square brackets. -/
def listText (texts : List String) : String :=
  "[" ++ ", ".intercalate texts ++ "]"

/-- The text of a value that may be absent. -/
def optionText : Option String → String
  | none => "None"
  | some text => "Some(" ++ text ++ ")"

/-- The text of the region. -/
def backingText (b : Backing) : String :=
  "DirectMemory \x7b capacity: " ++ toString b.region.size ++ ", .. \x7d"

/-- The names and texts of the fields. -/
def fieldTexts (s : Sketch α) : List (String × String) :=
  [("k", toString s.k), ("m", toString s.m), ("min_k", toString s.minK), ("n", toString s.n),
    ("num_levels", toString s.numLevels), ("levels_arr", listText (s.levels.map toString)),
    ("items", listText (s.items.toList.map Item.text)),
    ("min_item", optionText (s.least?.map Item.text)),
    ("max_item", optionText (s.greatest?.map Item.text)),
    ("is_level_zero_sorted", toString s.levelZeroSorted), ("is_read_only", toString s.readOnly),
    ("memory", optionText (s.backing.map backingText))]

/-- The text of a sketch. -/
def text (s : Sketch α) : String :=
  "KllSketch \x7b "
    ++ ", ".intercalate (s.fieldTexts.map fun field => field.1 ++ ": " ++ field.2) ++ " \x7d"

end Sketch

end QuantileSketch
