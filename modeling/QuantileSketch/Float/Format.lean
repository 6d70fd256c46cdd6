import QuantileSketch.Word

/-!
# Binary floating-point formats

The interchange formats: a sign bit, an exponent and a fraction, from the highest bit down. A
number is kept as its bits, so that not-a-numbers keep their payload, and everything said about it
is arithmetic on natural numbers.
-/
namespace QuantileSketch

/-- A binary interchange format. -/
structure FloatFormat where
  fractionBits : Nat
  exponentBits : Nat

namespace FloatFormat

/-- The format of 32 bits. -/
def binary32 : FloatFormat := ⟨23, 8⟩

/-- The format of 64 bits. -/
def binary64 : FloatFormat := ⟨52, 11⟩

variable (f : FloatFormat)

/-- The weight of the lowest bit of the exponent. -/
def fractionUnit : Nat := wordBound f.fractionBits

/-- The weight of the sign bit. -/
def signUnit : Nat := wordBound (f.fractionBits + f.exponentBits)

/-- The bits without the sign bit. -/
def magnitude (bits : Nat) : Nat := bits % f.signUnit

/-- Whether the sign bit is set. -/
def isNegative (bits : Nat) : Bool := bits / f.signUnit % 2 == 1

/-- The bits of positive infinity. -/
def infinity : Nat := (wordBound f.exponentBits - 1) <<< f.fractionBits

/-- The quiet not-a-number without payload. -/
def quietNaN : Nat := f.infinity + wordBound (f.fractionBits - 1)

/-- Whether the bits are no number. -/
def isNaN (bits : Nat) : Bool := decide (f.infinity < f.magnitude bits)

/-- Where a number stands among all numbers of the format: the greater number has the greater
position, the two zeros have the same one, and what is no number has none. -/
def position (bits : Nat) : Option Int :=
  if f.isNaN bits then none
  else some (if f.isNegative bits then -(f.magnitude bits : Int) else f.magnitude bits)

/-! ### Whole numbers -/

/-- What is added to an exponent before it is stored. -/
def bias : Nat := wordBound (f.exponentBits - 1) - 1

/-- A quotient rounded to the nearest whole number, a half to the even one. -/
def roundHalfEven (a b : Nat) : Nat :=
  let q := a / b
  let twice := 2 * (a % b)
  if twice < b then q
  else if b < twice then q + 1
  else q + q % 2

/-- The bits of a natural number, rounded to the nearest number of the format. -/
def ofNat (n : Nat) : Nat :=
  if n = 0 then 0
  else
    let exponent := n.log2
    let significand :=
      if exponent ≤ f.fractionBits then n <<< (f.fractionBits - exponent)
      else roundHalfEven n (wordBound (exponent - f.fractionBits))
    min f.infinity
      (((exponent + f.bias) <<< f.fractionBits) + (significand - f.fractionUnit))

/-- The bits of an integer, rounded to the nearest number of the format. -/
def ofInt : Int → Nat
  | .ofNat n => f.ofNat n
  | .negSucc n => f.signUnit + f.ofNat (n + 1)

/-! ### Significand and exponent -/

/-- The significand of a finite number, a natural number. -/
def significand (bits : Nat) : Nat :=
  let exponent := f.magnitude bits / f.fractionUnit
  let fraction := f.magnitude bits % f.fractionUnit
  if exponent = 0 then fraction else f.fractionUnit + fraction

/-- The power of two that the significand of a finite number is multiplied by. -/
def scale (bits : Nat) : Int :=
  let exponent := f.magnitude bits / f.fractionUnit
  (max 1 exponent : Nat) - (f.bias + f.fractionBits : Nat)

/-- Whether the next smaller number is only half as far away as the next greater one. -/
def isPowerOfTwo (bits : Nat) : Bool :=
  f.magnitude bits % f.fractionUnit == 0 && decide (1 < f.magnitude bits / f.fractionUnit)

end FloatFormat

end QuantileSketch
