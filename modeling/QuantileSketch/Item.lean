import QuantileSketch.Bytes

/-!
# Items

What a sketch can hold: values of four or eight bytes, placed on a line. A value without a place on
the line is no number. It is dropped when it comes in, and no comparison with it succeeds.
-/
namespace QuantileSketch

/-- The widths that the values in a sketch can have. -/
def IsItemWidth (width : Nat) : Prop := width = 4 ∨ width = 8

theorem isItemWidth_four : IsItemWidth 4 := .inl rfl

theorem isItemWidth_eight : IsItemWidth 8 := .inr rfl

/-- Values that a sketch can hold. -/
class Item (α : Type) where
  /-- The name of the type of the values. -/
  typeName : String
  /-- The number of bytes that a value takes. -/
  width : Nat
  /-- The place of a value on the line. -/
  position : α → Option Int
  /-- What unused slots hold. -/
  filler : α
  /-- The bytes of a value. -/
  encode : α → List UInt8
  /-- The value that some bytes stand for. -/
  decode : List UInt8 → α
  /-- The text of a value. -/
  text : α → String
  isItemWidth : IsItemWidth width
  length_encode : ∀ x, (encode x).length = width
  decode_encode : ∀ x, decode (encode x) = x
  encode_decode : ∀ bytes, bytes.length = width → encode (decode bytes) = bytes

namespace Item

variable {α : Type} [Item α]

/-- Whether a value is no number. -/
def isNaN (x : α) : Bool := (position x).isNone

/-- Whether a value stands before another one. -/
def less (x y : α) : Bool :=
  match position x, position y with
  | some a, some b => decide (a < b)
  | _, _ => false

/-- The item in the bytes from a position on, if they are there. -/
def read? (bytes : Bytes) (pos : Nat) : Option α :=
  if pos + width α ≤ bytes.size then some (decode (bytes.window pos (width α))) else none

theorem less_irrefl (x : α) : less x x = false := by
  unfold less
  split <;> simp_all

end Item

end QuantileSketch
