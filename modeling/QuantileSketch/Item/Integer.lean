import QuantileSketch.Item

/-!
# Integer items

Signed integers of 32 and of 64 bits. Every integer is its own place on the line.
-/
namespace QuantileSketch

theorem ofLittleEndian_lt_of_length {bytes : List UInt8} {width : Nat}
    (h : bytes.length = width) : ofLittleEndian bytes < wordBound (8 * width) :=
  h ▸ ofLittleEndian_lt bytes

theorem littleEndian_ofLittleEndian_of_length {bytes : List UInt8} {width : Nat}
    (h : bytes.length = width) : littleEndian width (ofLittleEndian bytes) = bytes :=
  h ▸ littleEndian_ofLittleEndian bytes

instance : Item Int32 where
  typeName := "i32"
  width := 4
  position x := some x.toInt
  filler := 0
  encode x := littleEndian 4 x.toUInt32.toNat
  decode bytes := (UInt32.ofNat (ofLittleEndian bytes)).toInt32
  text x := toString x.toInt
  isItemWidth := isItemWidth_four
  length_encode _ := length_littleEndian _ _
  decode_encode x := by
    rw [ofLittleEndian_littleEndian_of_lt x.toUInt32.toNat_lt, UInt32.ofNat_toNat,
      Int32.toInt32_toUInt32]
  encode_decode bytes h := by
    have hlt := ofLittleEndian_lt_of_length h
    rw [UInt32.toUInt32_toInt32, UInt32.toNat_ofNat_of_lt' hlt,
      littleEndian_ofLittleEndian_of_length h]

instance : Item Int64 where
  typeName := "i64"
  width := 8
  position x := some x.toInt
  filler := 0
  encode x := littleEndian 8 x.toUInt64.toNat
  decode bytes := (UInt64.ofNat (ofLittleEndian bytes)).toInt64
  text x := toString x.toInt
  isItemWidth := isItemWidth_eight
  length_encode _ := length_littleEndian _ _
  decode_encode x := by
    rw [ofLittleEndian_littleEndian_of_lt x.toUInt64.toNat_lt, UInt64.ofNat_toNat,
      Int64.toInt64_toUInt64]
  encode_decode bytes h := by
    have hlt := ofLittleEndian_lt_of_length h
    rw [UInt64.toUInt64_toInt64, UInt64.toNat_ofNat_of_lt' hlt,
      littleEndian_ofLittleEndian_of_length h]

end QuantileSketch
