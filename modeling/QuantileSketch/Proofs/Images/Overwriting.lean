import QuantileSketch.Proofs.Images.Fields
import QuantileSketch.Proofs.Regions

/-!
# Reading after writing

Fields that are written to some bytes change nothing apart from them
(`Bytes.window_overwriteAll_of_apart`), and as long as they stand one behind the other each of them
is read back (`Bytes.InOrder.window_overwriteAll`).
-/

namespace QuantileSketch

/-! ### One field -/

section

variable {α : Type} {xs : Array α} {pos i : ℕ} {ys : List α}

/-- Writing does not change what comes later. -/
lemma getElem?_overwrite_of_le (h : pos + ys.length ≤ i) : (overwrite xs pos ys)[i]? = xs[i]? := by
  induction ys generalizing xs pos with
  | nil => rfl
  | cons y ys ih =>
    rw [List.length_cons] at h
    rw [overwrite, ih (by omega), Array.getElem?_setIfInBounds_ne (by omega)]

/-- Writing does not change what comes before. -/
lemma getElem?_overwrite_of_lt (h : i < pos) : (overwrite xs pos ys)[i]? = xs[i]? := by
  induction ys generalizing xs pos with
  | nil => rfl
  | cons y ys ih => rw [overwrite, ih (by omega), Array.getElem?_setIfInBounds_ne (by omega)]

/-- Writing at the beginning leaves the rest. -/
lemma overwrite_zero (h : ys.length ≤ xs.size) :
    overwrite xs 0 ys = (ys ++ xs.toList.drop ys.length).toArray := by
  have hxs : xs = ([] ++ xs.toList.take ys.length ++ xs.toList.drop ys.length).toArray := by
    rw [List.nil_append, List.take_append_drop, Array.toArray_toList]
  have hlength : (xs.toList.take ys.length).length = ys.length := by
    rw [List.length_take, Array.length_toList]
    exact Nat.min_eq_left h
  exact overwrite_eq hxs rfl hlength

end

namespace Bytes

variable {bytes bytes' : Bytes} {pos width : ℕ}

/-- The bytes in a window. -/
lemma getElem?_window (bytes : Bytes) (pos width i : ℕ) :
    (bytes.window pos width)[i]? = if i < width then bytes[pos + i]? else none := by
  rw [window, Array.getElem?_toList, Array.getElem?_extract]
  split
  · rw [if_pos (by omega)]
  · rename_i hout
    split
    · exact (Array.getElem?_eq_none (by omega)).symm
    · rfl

/-- Windows with the same bytes. -/
lemma window_ext (h : ∀ i, pos ≤ i → i < pos + width → bytes'[i]? = bytes[i]?) :
    bytes'.window pos width = bytes.window pos width := by
  apply List.ext_getElem?
  intro i
  rw [getElem?_window, getElem?_window]
  split
  · exact h (pos + i) (Nat.le_add_right _ _) (by omega)
  · rfl

/-- A window and a field that do not overlap. -/
def Apart (pos width : ℕ) (field : ℕ × List UInt8) : Prop :=
  pos + width ≤ field.1 ∨ field.1 + field.2.length ≤ pos

/-- Writing a field does not change a window apart from it. -/
lemma window_overwrite_of_apart {field : ℕ × List UInt8} (h : Apart pos width field) :
    window (overwrite bytes field.1 field.2) pos width = bytes.window pos width := by
  apply window_ext
  intro i hlow hhigh
  rcases h with h | h
  · exact getElem?_overwrite_of_lt (by omega)
  · exact getElem?_overwrite_of_le (by omega)

/-- A field that was written is read back. -/
lemma window_overwrite_self {field : List UInt8} (h : pos + field.length ≤ bytes.size) :
    window (overwrite bytes pos field) pos field.length = field := by
  have hbytes : bytes = (bytes.toList.take pos ++ bytes.window pos field.length ++
      bytes.toList.drop (pos + field.length)).toArray := by
    rw [window, Array.toList_extract, List.extract_eq_take_drop]
    simp
  have hpos : pos = (bytes.toList.take pos).length := by
    rw [List.length_take, Array.length_toList]
    omega
  exact window_eq (overwrite_eq hbytes hpos (length_window h)) hpos rfl

/-! ### Several fields -/

variable {fields : List (ℕ × List UInt8)}

/-- Writing some fields does not change what comes behind all of them. -/
lemma getElem?_overwriteAll_of_le {i : ℕ}
    (h : ∀ field ∈ fields, field.1 + field.2.length ≤ i) :
    (overwriteAll fields bytes)[i]? = bytes[i]? := by
  induction fields generalizing bytes with
  | nil => rfl
  | cons field fields ih =>
    obtain ⟨hfirst, hrest⟩ := List.forall_mem_cons.mp h
    rw [overwriteAll, ih hrest, getElem?_overwrite_of_le hfirst]

/-- Writing some fields does not change a window apart from all of them. -/
theorem window_overwriteAll_of_apart (h : ∀ field ∈ fields, Apart pos width field) :
    window (overwriteAll fields bytes) pos width = bytes.window pos width := by
  induction fields generalizing bytes with
  | nil => rfl
  | cons field fields ih =>
    obtain ⟨hfirst, hrest⟩ := List.forall_mem_cons.mp h
    rw [overwriteAll, ih hrest, window_overwrite_of_apart hfirst]

/-- Fields that stand one behind the other inside some bytes. -/
structure InOrder (fields : List (ℕ × List UInt8)) (bytes : Bytes) : Prop where
  pairwise : fields.Pairwise fun field later => field.1 + field.2.length ≤ later.1
  le_size : ∀ field ∈ fields, field.1 + field.2.length ≤ bytes.size

/-- Each of the fields that were written is read back. -/
theorem InOrder.window_overwriteAll {field : ℕ × List UInt8} (h : InOrder fields bytes)
    (hmem : field ∈ fields) :
    window (overwriteAll fields bytes) field.1 field.2.length = field.2 := by
  induction fields generalizing bytes with
  | nil => exact absurd hmem List.not_mem_nil
  | cons first fields ih =>
    obtain ⟨hfirst, hrest⟩ := List.pairwise_cons.mp h.pairwise
    obtain ⟨hroom, hrooms⟩ := List.forall_mem_cons.mp h.le_size
    rw [overwriteAll]
    rcases List.mem_cons.mp hmem with rfl | hmem
    · -- the later fields stand behind it
      rw [window_overwriteAll_of_apart fun later hlater => .inl (hfirst later hlater)]
      exact window_overwrite_self hroom
    · exact ih ⟨hrest, fun later hlater => (hrooms later hlater).trans_eq
        (size_overwrite _ _ _).symm⟩ hmem

/-- The number in each of the fields that were written. -/
lemma InOrder.field_overwriteAll {n : ℕ} (h : InOrder fields bytes)
    (hmem : (pos, littleEndian width n) ∈ fields) (hn : n < wordBound (8 * width)) :
    field (overwriteAll fields bytes) pos width = n := by
  have hwindow := h.window_overwriteAll hmem
  rw [length_littleEndian] at hwindow
  rw [field, hwindow, ofLittleEndian_littleEndian_of_lt hn]

end Bytes

end QuantileSketch
