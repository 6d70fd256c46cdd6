import QuantileSketch.Decimal.Shortest
import QuantileSketch.Float.Format
import QuantileSketch.Item.Integer

/-!
# Floating-point items

Floating-point numbers of 32 and of 64 bits, kept as their bits. Both zeros stand at the same place
of the line, and what is no number has no place on it.
-/
namespace QuantileSketch

/-- A floating-point number of 32 bits. -/
structure Binary32 where
  bits : UInt32
  deriving DecidableEq, Repr

/-- A floating-point number of 64 bits. -/
structure Binary64 where
  bits : UInt64
  deriving DecidableEq, Repr

/-- The number nearest to an integer. -/
def Binary32.ofInt (z : Int) : Binary32 := ⟨UInt32.ofNat (FloatFormat.binary32.ofInt z)⟩

/-- The number nearest to an integer. -/
def Binary64.ofInt (z : Int) : Binary64 := ⟨UInt64.ofNat (FloatFormat.binary64.ofInt z)⟩

/-! ### Text -/

/-- Numbers from a ten-thousandth to below ten to the sixteenth have no exponent, and whole numbers
among them end in a zero. -/
def itemStyle : Decimal.Style :=
  { leastPositional := -4
    greatestPositional := 15
    wholeEnding := ".0"
    exponentMark := "e" }

/-- The shortest text that is read back as the same number. -/
def FloatFormat.text (f : FloatFormat) (bits : Nat) : String :=
  if f.isNaN bits then "NaN"
  else
    let sign := if f.isNegative bits then "-" else ""
    if f.magnitude bits = f.infinity then sign ++ "inf"
    else if f.magnitude bits = 0 then sign ++ "0.0"
    else
      let interval := Decimal.Interval.around (f.significand bits) (f.scale bits)
        (f.isPowerOfTwo bits)
      let (digits, power) := interval.shortest
      sign ++ itemStyle.write digits power

/-! ### As items -/

instance : Item Binary32 where
  typeName := "f32"
  width := 4
  position x := FloatFormat.binary32.position x.bits.toNat
  filler := ⟨UInt32.ofNat FloatFormat.binary32.quietNaN⟩
  encode x := littleEndian 4 x.bits.toNat
  decode bytes := ⟨UInt32.ofNat (ofLittleEndian bytes)⟩
  text x := FloatFormat.binary32.text x.bits.toNat
  isItemWidth := isItemWidth_four
  length_encode _ := length_littleEndian _ _
  decode_encode x := by
    rw [ofLittleEndian_littleEndian_of_lt x.bits.toNat_lt, UInt32.ofNat_toNat]
  encode_decode bytes h := by
    have hlt := ofLittleEndian_lt_of_length h
    change littleEndian 4 (UInt32.ofNat (ofLittleEndian bytes)).toNat = bytes
    rw [UInt32.toNat_ofNat_of_lt' hlt, littleEndian_ofLittleEndian_of_length h]

instance : Item Binary64 where
  typeName := "f64"
  width := 8
  position x := FloatFormat.binary64.position x.bits.toNat
  filler := ⟨UInt64.ofNat FloatFormat.binary64.quietNaN⟩
  encode x := littleEndian 8 x.bits.toNat
  decode bytes := ⟨UInt64.ofNat (ofLittleEndian bytes)⟩
  text x := FloatFormat.binary64.text x.bits.toNat
  isItemWidth := isItemWidth_eight
  length_encode _ := length_littleEndian _ _
  decode_encode x := by
    rw [ofLittleEndian_littleEndian_of_lt x.bits.toNat_lt, UInt64.ofNat_toNat]
  encode_decode bytes h := by
    have hlt := ofLittleEndian_lt_of_length h
    change littleEndian 8 (UInt64.ofNat (ofLittleEndian bytes)).toNat = bytes
    rw [UInt64.toNat_ofNat_of_lt' hlt, littleEndian_ofLittleEndian_of_length h]

end QuantileSketch
