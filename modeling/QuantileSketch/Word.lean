import QuantileSketch.Abort

/-!
# Words

A word of some number of bits is kept as a natural number below a bound. Arithmetic on words either
has an exact answer or aborts, but for the sums that are cut off at the largest word on purpose and
for shifts, which drop the bits that leave the word.
-/
namespace QuantileSketch

/-- The number of words of `width` bits. -/
def wordBound (width : Nat) : Nat := Nat.pow 2 width

/-- The number itself, if it is a word of `width` bits. -/
def fitWord (width a : Nat) : Except Abort Nat :=
  if a < wordBound width then .ok a else .error .overflow

/-- The sum of two words of `width` bits. -/
def addWord (width a b : Nat) : Except Abort Nat :=
  fitWord width (a + b)

/-- The difference of two words; there are no negative words. -/
def subWord (a b : Nat) : Except Abort Nat :=
  if b ≤ a then .ok (a - b) else .error .overflow

/-- A word of `width` bits shifted to the left. Its upper bits get lost. -/
def shiftWord (width a count : Nat) : Except Abort Nat :=
  if count < width then .ok (a <<< count % wordBound width) else .error .overflow

/-- The largest word of 64 bits. -/
def maxWord64 : Nat := wordBound 64 - 1

/-- A number cut off at the largest word of 64 bits. -/
def saturate (a : Nat) : Nat := min maxWord64 a

theorem wordBound_pos (width : Nat) : 0 < wordBound width := Nat.two_pow_pos width

theorem wordBound_add_eight (width : Nat) : wordBound (width + 8) = 256 * wordBound width := by
  have h : wordBound (width + 8) = wordBound width * 2 * 2 * 2 * 2 * 2 * 2 * 2 * 2 := rfl
  omega

theorem fitWord_eq_ok_iff {width a b : Nat} :
    fitWord width a = .ok b ↔ a < wordBound width ∧ a = b := by
  by_cases h : a < wordBound width <;> simp [fitWord, h]

theorem addWord_eq_ok_iff {width a b c : Nat} :
    addWord width a b = .ok c ↔ a + b < wordBound width ∧ a + b = c := fitWord_eq_ok_iff

theorem subWord_eq_ok_iff {a b c : Nat} : subWord a b = .ok c ↔ b ≤ a ∧ a - b = c := by
  by_cases h : b ≤ a <;> simp [subWord, h]

/-- A shift is exact if no bit leaves the word. -/
theorem shiftWord_eq_ok {width a count : Nat} (hcount : count < width)
    (h : a <<< count < wordBound width) : shiftWord width a count = .ok (a <<< count) := by
  rw [shiftWord, if_pos hcount, Nat.mod_eq_of_lt h]

theorem saturate_le (a : Nat) : saturate a ≤ maxWord64 := Nat.min_le_left _ _

theorem saturate_of_le {a : Nat} (h : a ≤ maxWord64) : saturate a = a := Nat.min_eq_right h

end QuantileSketch
