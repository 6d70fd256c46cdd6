import Mathlib.Tactic
import QuantileSketch.Slots.Move
import QuantileSketch.Slots.Sort

/-!
# Slots in segments

An array of slots is looked at as a list that is put together from segments. What a move, a shift or
the sorting of a run does is then said by naming the segments before and after it. The operations
succeed whenever the segments that they touch are there.
-/

namespace QuantileSketch

variable {α : Type}

/-- Writing over a segment of the same length replaces it. -/
theorem overwrite_append {pre old post new : List α} (h : old.length = new.length) :
    overwrite (pre ++ old ++ post).toArray pre.length new = (pre ++ new ++ post).toArray := by
  induction new generalizing pre old with
  | nil => rw [List.length_eq_zero_iff.mp h, overwrite]
  | cons y new ih =>
    obtain ⟨x, old, rfl⟩ := List.exists_cons_of_length_eq_add_one h
    have hset : (pre ++ x :: old ++ post).toArray.setIfInBounds pre.length y =
        ((pre ++ [y]) ++ old ++ post).toArray := by simp
    have hlen : pre.length + 1 = (pre ++ [y]).length := by simp
    rw [overwrite, hset, hlen, ih (by simpa using h)]
    simp

/-- Writing over a segment that begins at a given position. -/
lemma overwrite_eq {xs : Array α} {pos : ℕ} {pre old post new : List α}
    (hxs : xs = (pre ++ old ++ post).toArray) (hpos : pos = pre.length)
    (h : old.length = new.length) : overwrite xs pos new = (pre ++ new ++ post).toArray := by
  rw [hxs, hpos, overwrite_append h]

/-- The slots of a segment. -/
lemma extract_append (pre mid post : List α) :
    (pre ++ mid ++ post).toArray.extract pre.length (pre.length + mid.length) = mid.toArray := by
  simp [List.extract_eq_take_drop]

/-- The slots of a segment that lies between two given positions. -/
lemma extract_eq {xs : Array α} {start stop : ℕ} {pre mid post : List α}
    (hxs : xs = (pre ++ mid ++ post).toArray) (hstart : start = pre.length)
    (hstop : stop = pre.length + mid.length) : xs.extract start stop = mid.toArray := by
  rw [hxs, hstart, hstop, extract_append]

/-- A nonempty list ends in some item. -/
lemma exists_eq_append_singleton {l : List α} {n : ℕ} (h : l.length = n + 1) :
    ∃ init last, l = init ++ [last] ∧ init.length = n := by
  have hne : l ≠ [] := List.ne_nil_of_length_eq_add_one h
  exact ⟨l.dropLast, l.getLast hne, (List.dropLast_append_getLast hne).symm, by simp [h]⟩

/-- A list splits into two parts of given lengths. -/
lemma exists_eq_append {l : List α} {a b : ℕ} (h : l.length = a + b) :
    ∃ front back, l = front ++ back ∧ front.length = a ∧ back.length = b :=
  ⟨l.take a, l.drop a, (List.take_append_drop a l).symm, by simp [h], by simp [h]⟩

namespace Slots

/-! ### Single moves -/

/-- A move sets one entry of the list of slots. -/
lemma move_toArray {l : List α} {source target : ℕ} {x : α} (hsource : l[source]? = some x)
    (htarget : target < l.length) :
    move l.toArray source target = .ok (l.set target x).toArray := by
  obtain ⟨hlt, hx⟩ := List.getElem?_eq_some_iff.mp hsource
  have hbounds : source < l.toArray.size ∧ target < l.toArray.size := ⟨hlt, htarget⟩
  rw [move, dif_pos hbounds, List.set_toArray]
  congr 3

/-- The first item of a segment is moved to its last slot. -/
theorem move_append (pre mid post : List α) (x : α) {source target : ℕ}
    (hsource : source = pre.length) (htarget : target = pre.length + mid.length) :
    ∃ rest, rest.length = mid.length ∧
      move (pre ++ x :: mid ++ post).toArray source target =
        .ok (pre ++ rest ++ x :: post).toArray := by
  obtain ⟨rest, last, hrest, hlen⟩ :=
    exists_eq_append_singleton (l := x :: mid) (n := mid.length) (by simp)
  refine ⟨rest, hlen, ?_⟩
  have hx : (pre ++ x :: mid ++ post)[source]? = some x := by simp [hsource]
  have hset : (pre ++ x :: mid ++ post).set target x = pre ++ rest ++ x :: post := by
    rw [hrest, htarget, ← hlen]
    simp
  rw [move_toArray hx (by simp [htarget]), hset]

/-- A move keeps the number of slots. -/
lemma size_move {xs ys : Array α} {source target : ℕ} (h : move xs source target = .ok ys) :
    ys.size = xs.size := by
  unfold move at h
  split at h
  · rw [← Except.ok.inj h, Array.size_set]
  · cases h

/-- A move writes one slot. -/
lemma getElem?_move {xs ys : Array α} {source target i : ℕ} (h : move xs source target = .ok ys)
    (hi : i ≠ target) : ys[i]? = xs[i]? := by
  unfold move at h
  split at h
  · rw [← Except.ok.inj h, Array.getElem?_set_ne _ hi.symm]
  · cases h

/-! ### Shifts -/

/-- A shift moves a segment up over the slots that follow it. The slots below it that become free
keep some of the old items. -/
theorem shiftUp_append (pre mid gap post : List α) {start stop distance : ℕ}
    (hstart : start = pre.length) (hstop : stop = pre.length + mid.length)
    (hdistance : distance = gap.length) :
    ∃ rest, rest.length = gap.length ∧
      shiftUp (pre ++ mid ++ gap ++ post).toArray start stop distance =
        .ok (pre ++ rest ++ mid ++ post).toArray := by
  obtain ⟨rest, old, hsplit, hrest, hold⟩ :=
    exists_eq_append (l := mid ++ gap) (a := gap.length) (b := mid.length) (by simp [Nat.add_comm])
  refine ⟨rest, hrest, ?_⟩
  have hmid : (pre ++ mid ++ gap ++ post).toArray.extract start stop = mid.toArray :=
    extract_eq (by rw [List.append_assoc (pre ++ mid)]) hstart hstop
  have hxs : (pre ++ mid ++ gap ++ post).toArray = ((pre ++ rest) ++ old ++ post).toArray := by
    rw [List.append_assoc pre, hsplit, ← List.append_assoc]
  have hbounds : start ≤ stop ∧ stop + distance ≤ (pre ++ mid ++ gap ++ post).toArray.size := by
    simp [hstart, hstop, hdistance]
    omega
  rw [shiftUp, if_pos hbounds, hmid, overwrite_eq hxs (by simp [hstart, hdistance, hrest]) hold]

/-- A shift keeps the number of slots. -/
lemma size_shiftUp {xs ys : Array α} {start stop distance : ℕ}
    (h : shiftUp xs start stop distance = .ok ys) : ys.size = xs.size := by
  unfold shiftUp at h
  split at h
  · rw [← Except.ok.inj h, size_overwrite]
  · cases h

/-! ### Sorting -/

variable [Item α]

/-- Sorting a run replaces it by its sorted items. -/
theorem sortRun_append (pre post : List α) {mid run : List α} {start len : ℕ}
    (hstart : start = pre.length) (hlen : len = mid.length) (hsorted : sorted mid = .ok run)
    (hrun : run.length = mid.length) :
    sortRun (pre ++ mid ++ post).toArray start len = .ok (pre ++ run ++ post).toArray := by
  have hbounds : start + len ≤ (pre ++ mid ++ post).toArray.size := by
    simp [hstart, hlen]
  rw [sortRun, if_pos hbounds, extract_eq rfl hstart (by rw [hstart, hlen]), hsorted]
  change Except.ok (overwrite (pre ++ mid ++ post).toArray start run) = _
  rw [overwrite_eq rfl hstart hrun.symm]

/-- A run that is sorted in its slots can be sorted. -/
lemma exists_sorted_of_sortRun (pre mid post : List α) {ys : Array α} {start len : ℕ}
    (hstart : start = pre.length) (hlen : len = mid.length)
    (h : sortRun (pre ++ mid ++ post).toArray start len = .ok ys) :
    ∃ run, sorted mid = .ok run := by
  unfold sortRun at h
  split at h
  · rw [extract_eq rfl hstart (by rw [hstart, hlen])] at h
    obtain ⟨run, hrun, -⟩ := bind_eq_ok_iff.mp h
    exact ⟨run, hrun⟩
  · cases h

/-- Sorting a run keeps the number of slots. -/
lemma size_sortRun {xs ys : Array α} {start len : ℕ} (h : sortRun xs start len = .ok ys) :
    ys.size = xs.size := by
  unfold sortRun at h
  split at h
  · obtain ⟨run, -, h⟩ := bind_eq_ok_iff.mp h
    rw [← pure_eq_ok_iff.mp h, size_overwrite]
  · cases h

end Slots

end QuantileSketch
