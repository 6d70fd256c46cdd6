import QuantileSketch.Word

/-!
# Bytes

Numbers as bytes, lowest byte first, and reading and writing at a position of a byte array.
`ofLittleEndian_littleEndian` and `littleEndian_ofLittleEndian` say that numbers of a fixed width
and lists of that many bytes are the same thing.
-/
namespace QuantileSketch

/-- A string of bytes. -/
abbrev Bytes := Array UInt8

/-! ### Numbers as bytes -/

/-- The lowest `width` bytes of a number, lowest byte first. -/
def littleEndian : Nat → Nat → List UInt8
  | 0, _ => []
  | width + 1, n => UInt8.ofNat n :: littleEndian width (n / 256)

/-- The number that some bytes stand for, lowest byte first. -/
def ofLittleEndian : List UInt8 → Nat
  | [] => 0
  | byte :: bytes => byte.toNat + 256 * ofLittleEndian bytes

@[simp] theorem length_littleEndian (width n : Nat) : (littleEndian width n).length = width := by
  induction width generalizing n with
  | zero => rfl
  | succ width ih => simp [littleEndian, ih]

theorem ofLittleEndian_littleEndian (width n : Nat) :
    ofLittleEndian (littleEndian width n) = n % wordBound (8 * width) := by
  induction width generalizing n with
  | zero => exact (Nat.mod_one n).symm
  | succ width ih =>
    have h : (UInt8.ofNat n).toNat = n % 256 := UInt8.toNat_ofNat'
    rw [littleEndian, ofLittleEndian, ih, h, Nat.mul_succ, wordBound_add_eight, Nat.mod_mul]

theorem ofLittleEndian_littleEndian_of_lt {width n : Nat} (h : n < wordBound (8 * width)) :
    ofLittleEndian (littleEndian width n) = n := by
  rw [ofLittleEndian_littleEndian, Nat.mod_eq_of_lt h]

theorem ofLittleEndian_lt (bytes : List UInt8) :
    ofLittleEndian bytes < wordBound (8 * bytes.length) := by
  induction bytes with
  | nil => exact wordBound_pos 0
  | cons byte bytes ih =>
    have h := byte.toNat_lt
    rw [ofLittleEndian, List.length_cons, Nat.mul_succ, wordBound_add_eight]
    omega

theorem littleEndian_ofLittleEndian (bytes : List UInt8) :
    littleEndian bytes.length (ofLittleEndian bytes) = bytes := by
  induction bytes with
  | nil => rfl
  | cons byte bytes ih =>
    have h : byte.toNat < 256 := byte.toNat_lt
    have hdiv : (byte.toNat + 256 * ofLittleEndian bytes) / 256 = ofLittleEndian bytes := by omega
    have hbyte : UInt8.ofNat (byte.toNat + 256 * ofLittleEndian bytes) = byte := by
      apply UInt8.toNat_inj.mp
      rw [UInt8.toNat_ofNat']
      omega
    simp [littleEndian, ofLittleEndian, hdiv, hbyte, ih]

/-! ### Positions in an array -/

/-- A list put into an array from a position on. What lies past the end of the array is left
out. -/
def overwrite {α : Type} (xs : Array α) (pos : Nat) : List α → Array α
  | [] => xs
  | y :: ys => overwrite (xs.setIfInBounds pos y) (pos + 1) ys

@[simp] theorem size_overwrite {α : Type} (xs : Array α) (pos : Nat) (ys : List α) :
    (overwrite xs pos ys).size = xs.size := by
  induction ys generalizing xs pos with
  | nil => rfl
  | cons y ys ih => simp [overwrite, ih]

namespace Bytes

/-- The `width` bytes at a position. -/
def window (bytes : Bytes) (pos width : Nat) : List UInt8 :=
  (bytes.extract pos (pos + width)).toList

/-- The number in the `width` bytes at a position that lies inside. -/
def number (bytes : Bytes) (pos width : Nat) : Except Abort Nat :=
  if pos + width ≤ bytes.size then .ok (ofLittleEndian (bytes.window pos width))
  else .error .index

/-- Writes a field at a position where there is room for it. -/
def splice (bytes : Bytes) (pos : Nat) (field : List UInt8) : Except Abort Bytes :=
  if pos + field.length ≤ bytes.size then .ok (overwrite bytes pos field) else .error .index

end Bytes

end QuantileSketch
