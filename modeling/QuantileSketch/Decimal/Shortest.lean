/-!
# Shortest decimals

A floating-point number stands for all reals that round to it. Among the decimals in this interval
those with the fewest digits are looked for, and of these the one nearest to the number; of two
equally near ones the greater is taken.
-/
namespace QuantileSketch.Decimal

/-- The interval of reals around `4 * significand * 2 ^ scale`, reaching `below` units down and two
units up. The ends belong to it if `closed` is set. -/
structure Interval where
  significand : Nat
  scale : Int
  below : Nat
  closed : Bool

namespace Interval

/-- The interval of the reals that round to a number `significand * 2 ^ scale`. -/
def around (significand : Nat) (scale : Int) (narrowBelow : Bool) : Interval :=
  { significand
    scale := scale - 2
    below := if narrowBelow then 1 else 2
    closed := significand % 2 == 0 }

/-- What a unit of the interval counts beside a step of `10 ^ grid`. -/
def unit (v : Interval) (grid : Int) : Nat := Nat.pow 10 (-grid).toNat <<< v.scale.toNat

/-- What a step of `10 ^ grid` counts beside a unit of the interval. -/
def step (v : Interval) (grid : Int) : Nat := Nat.pow 10 grid.toNat <<< (-v.scale).toNat

/-- Whether a point of the grid lies in the interval. -/
def contains (v : Interval) (grid : Int) (point : Nat) : Bool :=
  let low := (4 * v.significand - v.below) * v.unit grid
  let high := (4 * v.significand + 2) * v.unit grid
  let here := point * v.step grid
  if v.closed then decide (low ≤ here ∧ here ≤ high) else decide (low < here ∧ here < high)

/-- The point of the grid in the interval that is nearest to its middle, if there is one. -/
def nearest? (v : Interval) (grid : Int) : Option Nat :=
  let middle := 4 * v.significand * v.unit grid
  let lower := middle / v.step grid
  let hasLower := decide (0 < lower) && v.contains grid lower
  let hasUpper := v.contains grid (lower + 1)
  if hasLower && hasUpper then
    some (if 2 * (middle % v.step grid) < v.step grid then lower else lower + 1)
  else if hasLower then some lower
  else if hasUpper then some (lower + 1)
  else none

/-- The coarsest of some grids, from `10 ^ grid` on down, that has a point in the interval, and
that point. -/
def coarsest (v : Interval) : Nat → Int → Nat × Int
  | 0, grid => ((v.nearest? grid).getD 0, grid)
  | steps + 1, grid =>
    match v.nearest? grid with
    | some point => (point, grid)
    | none => coarsest v steps (grid - 1)

/-- A grid whose first point lies above the interval. -/
def startGrid (v : Interval) : Int :=
  ((4 * v.significand).log2 + 1 + v.scale) * 30103 / 100000 + 1

/-- The digits and the power of ten of the shortest decimal in the interval. -/
def shortest (v : Interval) : Nat × Int :=
  v.coarsest 25 v.startGrid

end Interval

/-! ### Writing decimals -/

/-- How a decimal is written. -/
structure Style where
  /-- The least power of ten of a first digit that is written without an exponent. -/
  leastPositional : Int
  /-- The greatest power of ten of a first digit that is written without an exponent. -/
  greatestPositional : Int
  /-- What ends a whole number that is written without an exponent. -/
  wholeEnding : String
  /-- What stands between the digits and the exponent. -/
  exponentMark : String

/-- Some zeros. -/
def zeros (n : Nat) : String := String.ofList (List.replicate n '0')

/-- The decimal `digits * 10 ^ power` as text. -/
def Style.write (style : Style) (digits : Nat) (power : Int) : String :=
  let text := (toString digits).toList
  let first := power + text.length - 1
  if style.leastPositional ≤ first ∧ first ≤ style.greatestPositional then
    if 0 ≤ power then String.ofList text ++ zeros power.toNat ++ style.wholeEnding
    else if 0 ≤ first then
      let whole := (first + 1).toNat
      String.ofList (text.take whole) ++ "." ++ String.ofList (text.drop whole)
    else "0." ++ zeros (-first - 1).toNat ++ String.ofList text
  else
    String.ofList (text.take 1)
      ++ (if text.length = 1 then "" else "." ++ String.ofList (text.drop 1))
      ++ style.exponentMark ++ toString first

end QuantileSketch.Decimal
