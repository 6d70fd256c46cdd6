import QuantileSketch.Proofs.Slots.Segments
import QuantileSketch.Sketch.Open

/-!
# Fields of an image

A field is a window of some bytes. Where the bytes are put together from segments, the window at a
segment is that segment, so that what was written is read back: numbers (`field_eq`), lists of
boundaries (`offsets_eq`), extremes (`extremesOf_eq`) and items (`itemList_eq`).
-/

namespace QuantileSketch

namespace Bytes

/-- The window of a segment. -/
lemma window_eq {bytes : Bytes} {pos width : ℕ} {pre mid post : List UInt8}
    (hbytes : bytes = (pre ++ mid ++ post).toArray) (hpos : pos = pre.length)
    (hwidth : width = mid.length) : bytes.window pos width = mid := by
  rw [window, extract_eq hbytes hpos (by rw [hpos, hwidth])]

/-- A window is not longer than it should be. -/
lemma length_window_le (bytes : Bytes) (pos width : ℕ) :
    (bytes.window pos width).length ≤ width := by
  rw [window, Array.length_toList, Array.size_extract]
  omega

/-- A window that lies inside is as long as it should be. -/
lemma length_window {bytes : Bytes} {pos width : ℕ} (h : pos + width ≤ bytes.size) :
    (bytes.window pos width).length = width := by
  rw [window, Array.length_toList, Array.size_extract, Nat.min_eq_left h, Nat.add_sub_cancel_left]

/-- Two windows side by side are one. -/
lemma window_append {bytes : Bytes} {pos width next width' : ℕ} (h : next = pos + width) :
    bytes.window pos width ++ bytes.window next width' = bytes.window pos (width + width') := by
  rw [h, window, window, window, ← Array.toList_append, Array.extract_append_extract,
    Nat.min_eq_left (Nat.le_add_right _ _), Nat.max_eq_right (Nat.le_add_right _ _), Nat.add_assoc]

/-- The number in the `width` bytes at a position. -/
def field (bytes : Bytes) (pos width : ℕ) : ℕ := ofLittleEndian (bytes.window pos width)

/-- A number is read if the bytes go on as far as it does. -/
lemma number_eq_ok_iff {bytes : Bytes} {pos width n : ℕ} :
    bytes.number pos width = .ok n ↔ pos + width ≤ bytes.size ∧ bytes.field pos width = n := by
  by_cases h : pos + width ≤ bytes.size <;> simp [number, field, h]

/-- The number that was written to a segment. -/
lemma field_eq {bytes : Bytes} {pos width n : ℕ} {pre post : List UInt8}
    (hbytes : bytes = (pre ++ littleEndian width n ++ post).toArray) (hpos : pos = pre.length)
    (hn : n < wordBound (8 * width)) : bytes.field pos width = n := by
  rw [field, window_eq hbytes hpos (length_littleEndian width n).symm,
    ofLittleEndian_littleEndian_of_lt hn]

/-! ### Boundaries -/

/-- The boundaries at a position. -/
def offsets (bytes : Bytes) : ℕ → ℕ → List ℕ
  | 0, _ => []
  | count + 1, pos => bytes.field pos offsetBytes :: bytes.offsets count (pos + offsetBytes)

/-- The number of boundaries. -/
@[simp] lemma length_offsets (bytes : Bytes) (count pos : ℕ) :
    (bytes.offsets count pos).length = count := by
  induction count generalizing pos with
  | zero => rfl
  | succ count ih => rw [offsets, List.length_cons, ih]

/-- Each of the boundaries. -/
lemma getElem_offsets {bytes : Bytes} {count pos i : ℕ} (h : i < (bytes.offsets count pos).length) :
    (bytes.offsets count pos)[i] = bytes.field (pos + i * offsetBytes) offsetBytes := by
  induction count generalizing pos i with
  | zero => exact absurd h (Nat.not_lt_zero i)
  | succ count ih =>
    cases i with
    | zero => simp [offsets]
    | succ i =>
      have hpos : pos + (i + 1) * offsetBytes = pos + offsetBytes + i * offsetBytes := by
        rw [Nat.succ_mul]
        omega
      rw [hpos, ← ih]
      rfl

/-- Boundaries of which each is the same. -/
lemma offsets_ext {bytes bytes' : Bytes} {count pos : ℕ}
    (h : ∀ i < count, bytes'.field (pos + i * offsetBytes) offsetBytes =
      bytes.field (pos + i * offsetBytes) offsetBytes) :
    bytes'.offsets count pos = bytes.offsets count pos := by
  refine List.ext_getElem (by rw [length_offsets, length_offsets]) fun i hi _ => ?_
  rw [length_offsets] at hi
  rw [getElem_offsets, getElem_offsets, h i hi]

/-- Boundaries are read if the bytes go on as far as they do. -/
lemma readOffsets_eq_ok {bytes : Bytes} {count pos : ℕ}
    (h : pos + count * offsetBytes ≤ bytes.size) :
    readOffsets bytes count pos = .ok (bytes.offsets count pos) := by
  induction count generalizing pos with
  | zero => rfl
  | succ count ih =>
    rw [Nat.succ_mul] at h
    have hfirst : bytes.number pos offsetBytes = .ok (bytes.field pos offsetBytes) :=
      number_eq_ok_iff.mpr ⟨by omega, rfl⟩
    rw [readOffsets, hfirst, ok_bind, ih (by omega)]
    rfl

/-- The boundaries that were written to a segment. -/
lemma offsets_eq {bytes : Bytes} {pos : ℕ} {levels : List ℕ} {pre post : List UInt8}
    (hbytes : bytes = (pre ++ encodeNumbers offsetBytes levels ++ post).toArray)
    (hpos : pos = pre.length) (hlevels : ∀ b ∈ levels, b < wordBound 32) :
    bytes.offsets levels.length pos = levels := by
  induction levels generalizing pos pre with
  | nil => rfl
  | cons b levels ih =>
    obtain ⟨hb, hlevels⟩ := List.forall_mem_cons.mp hlevels
    have hsplit : encodeNumbers offsetBytes (b :: levels) =
        littleEndian offsetBytes b ++ encodeNumbers offsetBytes levels := List.flatMap_cons
    rw [hsplit] at hbytes
    have hfirst : bytes = (pre ++ littleEndian offsetBytes b ++
        (encodeNumbers offsetBytes levels ++ post)).toArray := by
      rw [hbytes]
      simp
    have hrest : bytes = ((pre ++ littleEndian offsetBytes b) ++
        encodeNumbers offsetBytes levels ++ post).toArray := by
      rw [hbytes]
      simp
    rw [List.length_cons, offsets, field_eq hfirst hpos hb, ih hrest _ hlevels]
    rw [List.length_append, length_littleEndian, hpos]

end Bytes

/-! ### Items -/

namespace Sketch

variable {α : Type} [Item α]

/-- An item is read if the bytes go on as far as it does. -/
lemma readItem_eq_ok_iff {bytes : Bytes} {pos : ℕ} {x : α} :
    readItem bytes pos = .ok x ↔
      pos + Item.width α ≤ bytes.size ∧ Item.decode (bytes.window pos (Item.width α)) = x := by
  by_cases h : pos + Item.width α ≤ bytes.size <;> simp [readItem, Item.read?, h]

/-- The extremes that stand at a position. -/
def extremesOf (bytes : Bytes) (pos : ℕ) : Extremes α where
  least := Item.decode (bytes.window pos (Item.width α))
  greatest := Item.decode (bytes.window (pos + Item.width α) (Item.width α))

/-- The extremes are read if the bytes go on as far as they do. -/
lemma readExtremes_eq_ok {bytes : Bytes} {pos : ℕ} (h : pos + 2 * Item.width α ≤ bytes.size) :
    readExtremes bytes pos = .ok (extremesOf bytes pos : Extremes α) := by
  have hleast : readItem bytes pos = .ok (Item.decode (bytes.window pos (Item.width α)) : α) :=
    readItem_eq_ok_iff.mpr ⟨by omega, rfl⟩
  have hgreatest : readItem bytes (pos + Item.width α) =
      .ok (Item.decode (bytes.window (pos + Item.width α) (Item.width α)) : α) :=
    readItem_eq_ok_iff.mpr ⟨by omega, rfl⟩
  rw [readExtremes, hleast, ok_bind, hgreatest]
  rfl

/-- The items at a position. -/
def itemList (bytes : Bytes) : ℕ → ℕ → List α
  | 0, _ => []
  | count + 1, pos =>
    Item.decode (bytes.window pos (Item.width α)) :: itemList bytes count (pos + Item.width α)

/-- The number of items at a position. -/
@[simp] lemma length_itemList (bytes : Bytes) (count pos : ℕ) :
    (itemList bytes count pos : List α).length = count := by
  induction count generalizing pos with
  | zero => rfl
  | succ count ih => rw [itemList, List.length_cons, ih]

/-- Each of the items. -/
lemma getElem_itemList {bytes : Bytes} {count pos i : ℕ}
    (h : i < (itemList bytes count pos : List α).length) :
    (itemList bytes count pos : List α)[i] =
      Item.decode (bytes.window (pos + i * Item.width α) (Item.width α)) := by
  induction count generalizing pos i with
  | zero => exact absurd h (Nat.not_lt_zero i)
  | succ count ih =>
    cases i with
    | zero => simp [itemList]
    | succ i =>
      have hpos : pos + (i + 1) * Item.width α = pos + Item.width α + i * Item.width α := by
        rw [Nat.succ_mul]
        omega
      rw [hpos, ← ih]
      rfl

/-- The number of items that are read. -/
lemma size_readItems {bytes : Bytes} {count pos : ℕ} {items items' : Array α}
    (h : readItems bytes count pos items = .ok items') : items'.size = items.size + count := by
  induction count generalizing pos items with
  | zero => rw [Except.ok.inj h, Nat.add_zero]
  | succ count ih =>
    obtain ⟨x, -, h⟩ := bind_eq_ok_iff.mp h
    rw [ih h, Array.size_push]
    omega

/-- Items are read if the bytes go on as far as they do. -/
lemma readItems_eq_ok {bytes : Bytes} {count pos : ℕ} (items : Array α)
    (h : pos + count * Item.width α ≤ bytes.size) :
    readItems bytes count pos items = .ok (items ++ (itemList bytes count pos).toArray) := by
  induction count generalizing pos items with
  | zero => simp [readItems, itemList]
  | succ count ih =>
    rw [Nat.succ_mul] at h
    have hfirst : readItem bytes pos = .ok (Item.decode (bytes.window pos (Item.width α)) : α) :=
      readItem_eq_ok_iff.mpr ⟨by omega, rfl⟩
    rw [readItems, hfirst, ok_bind, ih _ (by omega), itemList]
    simp

/-- The item that was written to a segment. -/
lemma decode_window_eq {bytes : Bytes} {pos : ℕ} {x : α} {pre post : List UInt8}
    (hbytes : bytes = (pre ++ Item.encode x ++ post).toArray) (hpos : pos = pre.length) :
    Item.decode (bytes.window pos (Item.width α)) = x := by
  rw [Bytes.window_eq hbytes hpos (Item.length_encode x).symm, Item.decode_encode]

/-- The extremes in a window that has their bytes. -/
lemma extremesOf_eq_of_window {bytes : Bytes} {pos : ℕ} {e : Extremes α}
    (h : bytes.window pos (2 * Item.width α) = Item.encode e.least ++ Item.encode e.greatest) :
    extremesOf bytes pos = e := by
  rw [Nat.two_mul, ← Bytes.window_append rfl] at h
  have hlength := congrArg List.length h
  have hleast := bytes.length_window_le pos (Item.width α)
  have hgreatest := bytes.length_window_le (pos + Item.width α) (Item.width α)
  rw [List.length_append, List.length_append, Item.length_encode, Item.length_encode] at hlength
  obtain ⟨hleast, hgreatest⟩ := List.append_inj h (by rw [Item.length_encode]; omega)
  rw [extremesOf, hleast, hgreatest, Item.decode_encode, Item.decode_encode]

/-- The extremes that were written to a segment. -/
lemma extremesOf_eq {bytes : Bytes} {pos : ℕ} {e : Extremes α} {pre post : List UInt8}
    (hbytes :
      bytes = (pre ++ (Item.encode e.least ++ Item.encode e.greatest) ++ post).toArray)
    (hpos : pos = pre.length) : extremesOf bytes pos = e := by
  refine extremesOf_eq_of_window (Bytes.window_eq hbytes hpos ?_)
  rw [List.length_append, Item.length_encode, Item.length_encode, Nat.two_mul]

/-- Items of which one has been replaced and the others are the same. -/
lemma itemList_set {bytes bytes' : Bytes} {count pos slot : ℕ} {x : α}
    (hslot : bytes'.window (pos + slot * Item.width α) (Item.width α) = Item.encode x)
    (hothers : ∀ i, i ≠ slot → bytes'.window (pos + i * Item.width α) (Item.width α) =
      bytes.window (pos + i * Item.width α) (Item.width α)) :
    itemList bytes' count pos = (itemList bytes count pos).set slot x := by
  refine List.ext_getElem (by simp) fun i _ _ => ?_
  rw [getElem_itemList, List.getElem_set]
  split
  · rename_i hi
    rw [← hi, hslot, Item.decode_encode]
  · rename_i hi
    rw [getElem_itemList, hothers i (Ne.symm hi)]

/-- The items that were written to a segment. -/
lemma itemList_eq {bytes : Bytes} {pos : ℕ} {items : List α} {pre post : List UInt8}
    (hbytes : bytes = (pre ++ items.flatMap Item.encode ++ post).toArray)
    (hpos : pos = pre.length) : itemList bytes items.length pos = items := by
  induction items generalizing pos pre with
  | nil => rfl
  | cons x items ih =>
    rw [List.flatMap_cons] at hbytes
    have hfirst : bytes =
        (pre ++ Item.encode x ++ (items.flatMap Item.encode ++ post)).toArray := by
      rw [hbytes]
      simp
    have hrest : bytes =
        ((pre ++ Item.encode x) ++ items.flatMap Item.encode ++ post).toArray := by
      rw [hbytes]
      simp
    rw [List.length_cons, itemList, decode_window_eq hfirst hpos, ih hrest]
    rw [List.length_append, Item.length_encode, hpos]

end Sketch

end QuantileSketch
