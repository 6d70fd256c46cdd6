import QuantileSketch.Proofs.Slots.Segments
import QuantileSketch.Slots.Merge

/-!
# Merging two runs in place

The merge of two runs takes the item of the second run only if it stands before that of the first.
Merged in place, the runs give the same list (`mergeRuns_append`): between the slots already written
and the items of the second run that are still to be read there is always room for all the items of
the first run that are still to come.
-/

namespace QuantileSketch.Slots

variable {α : Type} [Item α]

/-- The merge of two runs, of two items at the same place first the one of the first run. -/
def mergedRun (xs ys : List α) : List α := xs.merge ys fun x y => !Item.less y x

/-- Every item of the two runs is in the merge once. -/
theorem mergedRun_perm (xs ys : List α) : (mergedRun xs ys).Perm (xs ++ ys) :=
  List.merge_perm_append _

/-- Nothing is merged with an empty second run. -/
@[simp] theorem mergedRun_nil (xs : List α) : mergedRun xs [] = xs := List.merge_right xs

/-- The merge of two runs that both have items. -/
lemma mergedRun_cons_cons (x y : α) (xs ys : List α) :
    mergedRun (x :: xs) (y :: ys) =
      if Item.less y x then y :: mergedRun (x :: xs) ys else x :: mergedRun xs (y :: ys) := by
  rw [mergedRun, List.cons_merge_cons]
  cases Item.less y x <;> rfl

/-- The item of the second run comes first if the first run has none that may come before it. -/
lemma mergedRun_eq_cons_second {xs : List α} {y : α} (ys : List α)
    (h : xs = [] ∨ ∃ x tail, xs = x :: tail ∧ Item.less y x = true) :
    mergedRun xs (y :: ys) = y :: mergedRun xs ys := by
  rcases h with rfl | ⟨x, tail, rfl, hless⟩
  · simp [mergedRun]
  · rw [mergedRun_cons_cons, if_pos hless]

/-- The item of the first run comes first unless that of the second run stands before it. -/
lemma mergedRun_eq_cons_first {x : α} (xs : List α) {ys : List α}
    (h : ∀ y tail, ys = y :: tail → Item.less y x = false) :
    mergedRun (x :: xs) ys = x :: mergedRun xs ys := by
  rcases ys with _ | ⟨y, tail⟩
  · simp
  · rw [mergedRun_cons_cons, h y tail rfl, if_neg Bool.false_ne_true]

/-! ### One step of the loop -/

/-- The next item is that of the second run if the first run is used up, or if the item of the
second run stands before that of the first. -/
lemma mergeInto_takeSecond {l : List α} {stopI stopJ count i j target : ℕ} {y : α}
    (hy : l[j]? = some y) (htarget : target < l.length)
    (h : i = stopI ∨ j < stopJ ∧ ∃ x, l[i]? = some x ∧ Item.less y x = true) :
    mergeInto stopI stopJ (count + 1) i j target l.toArray =
      mergeInto stopI stopJ count i (j + 1) (target + 1) (l.set target y).toArray := by
  obtain ⟨hj, hget⟩ := List.getElem?_eq_some_iff.mp hy
  rw [mergeInto]
  rcases eq_or_ne i stopI with hi | hi
  · simp [hi, hj, htarget, hget]
  · obtain ⟨hstop, x, hx, hless⟩ := h.resolve_left hi
    simp [hi, hstop, hx, hless, hj, htarget, hget]

/-- The next item is that of the first run unless the item of the second run stands before it. -/
lemma mergeInto_takeFirst {l : List α} {stopI stopJ count i j target : ℕ} {x : α}
    (hx : l[i]? = some x) (htarget : target < l.length) (hi : i ≠ stopI)
    (h : j < stopJ → ∃ y, l[j]? = some y ∧ Item.less y x = false) :
    mergeInto stopI stopJ (count + 1) i j target l.toArray =
      mergeInto stopI stopJ count (i + 1) j (target + 1) (l.set target x).toArray := by
  obtain ⟨hlt, hget⟩ := List.getElem?_eq_some_iff.mp hx
  rw [mergeInto]
  by_cases hstop : j < stopJ
  · obtain ⟨y, hy, hless⟩ := h hstop
    simp [hi, hstop, hy, hless, hlt, htarget, hget]
  · simp [hi, hstop, hlt, htarget, hget]

/-- Taking an item of the second run leaves the gap between the runs as wide as it is. -/
lemma mergeInto_second (count : ℕ) (front xs behind gap ys post : List α) (y : α)
    {stopI stopJ i j target : ℕ} (hi : i = front.length)
    (htarget : target = (front ++ xs ++ behind).length) (hj : j = target + gap.length)
    (h : i = stopI ∨ j < stopJ ∧ ∃ x tail, xs = x :: tail ∧ Item.less y x = true) :
    ∃ gap', gap'.length = gap.length ∧
      mergeInto stopI stopJ (count + 1) i j target
          (front ++ xs ++ behind ++ gap ++ y :: ys ++ post).toArray =
        mergeInto stopI stopJ count i (j + 1) (target + 1)
          (front ++ xs ++ (behind ++ [y]) ++ gap' ++ ys ++ post).toArray := by
  obtain ⟨old, gap', hsplit⟩ : ∃ old gap', gap ++ [y] = old :: gap' :=
    List.exists_cons_of_ne_nil (by simp)
  have hlen : gap'.length = gap.length := by
    have := congrArg List.length hsplit
    simpa using this.symm
  have hslots : front ++ xs ++ behind ++ gap ++ y :: ys ++ post =
      front ++ xs ++ behind ++ old :: (gap' ++ ys ++ post) := by
    calc front ++ xs ++ behind ++ gap ++ y :: ys ++ post
        = front ++ xs ++ behind ++ (gap ++ [y]) ++ ys ++ post := by simp
      _ = front ++ xs ++ behind ++ old :: (gap' ++ ys ++ post) := by rw [hsplit]; simp
  have hy : (front ++ xs ++ behind ++ gap ++ y :: ys ++ post)[j]? = some y := by
    have : j = (front ++ xs ++ behind ++ gap).length := by rw [hj, htarget, ← List.length_append]
    rw [this]
    simp
  have hx : i = stopI ∨ j < stopJ ∧
      ∃ x, (front ++ xs ++ behind ++ gap ++ y :: ys ++ post)[i]? = some x ∧
        Item.less y x = true := by
    refine h.imp_right (And.imp_right ?_)
    rintro ⟨x, tail, rfl, hless⟩
    exact ⟨x, by simp [hi], hless⟩
  refine ⟨gap', hlen, ?_⟩
  rw [mergeInto_takeSecond hy (by rw [hslots, htarget]; simp) hx, hslots, htarget]
  simp

/-- Taking an item of the first run narrows the gap between the runs by one slot. -/
lemma mergeInto_first (count : ℕ) (front xs behind gap ys post : List α) (x old : α)
    {stopI stopJ i j target : ℕ} (hi : i = front.length)
    (htarget : target = (front ++ x :: xs ++ behind).length) (hj : j = target + gap.length + 1)
    (hne : i ≠ stopI)
    (h : j < stopJ → ∃ y tail, ys = y :: tail ∧ Item.less y x = false) :
    mergeInto stopI stopJ (count + 1) i j target
        (front ++ x :: xs ++ behind ++ old :: gap ++ ys ++ post).toArray =
      mergeInto stopI stopJ count (i + 1) j (target + 1)
        ((front ++ [x]) ++ xs ++ (behind ++ [x]) ++ gap ++ ys ++ post).toArray := by
  have hx : (front ++ x :: xs ++ behind ++ old :: gap ++ ys ++ post)[i]? = some x := by simp [hi]
  have hy : j < stopJ → ∃ y,
      (front ++ x :: xs ++ behind ++ old :: gap ++ ys ++ post)[j]? = some y ∧
        Item.less y x = false := by
    intro hstop
    obtain ⟨y, tail, rfl, hless⟩ := h hstop
    have : j = (front ++ x :: xs ++ behind ++ old :: gap).length := by
      rw [hj, htarget, Nat.add_assoc, ← List.length_cons (a := old), ← List.length_append]
    exact ⟨y, by rw [this]; simp, hless⟩
  have hslots : front ++ x :: xs ++ behind ++ old :: gap ++ ys ++ post =
      (front ++ x :: xs ++ behind) ++ old :: (gap ++ ys ++ post) := by simp
  rw [mergeInto_takeFirst hx (by rw [hslots, htarget]; simp) hne hy, hslots, htarget]
  simp

/-! ### The loop -/

/-- The loop of the merge. The items `xs` of the first run are still to come, in slots that are left
behind, and the items `ys` of the second run lie behind a gap that has room for `xs` and for `spare`
items more. -/
lemma mergeInto_append (front xs behind gap ys post : List α) {count i j target spare : ℕ}
    (hcount : count = xs.length + ys.length) (hi : i = front.length)
    (htarget : target = (front ++ xs ++ behind).length) (hj : j = target + gap.length)
    (hgap : gap.length = xs.length + spare) :
    ∃ rest, rest.length = spare ∧
      mergeInto (i + xs.length) (j + ys.length) count i j target
          (front ++ xs ++ behind ++ gap ++ ys ++ post).toArray =
        .ok (front ++ xs ++ behind ++ mergedRun xs ys ++ rest ++ post).toArray := by
  induction count generalizing front xs behind gap ys i j target with
  | zero =>
    obtain rfl : xs = [] := List.length_eq_zero_iff.mp (by omega)
    obtain rfl : ys = [] := List.length_eq_zero_iff.mp (by omega)
    exact ⟨gap, by simpa using hgap, by simp [mergeInto]⟩
  | succ count ih =>
    by_cases hsecond : ∃ y tail, ys = y :: tail ∧
        (xs = [] ∨ ∃ x t, xs = x :: t ∧ Item.less y x = true)
    · obtain ⟨y, tail, rfl, hfirst⟩ := hsecond
      have hnext : i = i + xs.length ∨ j < j + (y :: tail).length ∧
          ∃ x t, xs = x :: t ∧ Item.less y x = true :=
        hfirst.imp (fun h => by simp [h]) fun h => ⟨by simp, h⟩
      obtain ⟨gap', hlen, hstep⟩ := mergeInto_second count front xs behind gap tail post y hi
        htarget hj hnext
      have hstop : j + (y :: tail).length = j + 1 + tail.length := by
        rw [List.length_cons]
        omega
      obtain ⟨rest, hrest, hloop⟩ := ih front xs (behind ++ [y]) gap' tail
        (by rw [List.length_cons] at hcount; omega) hi (by simp [htarget]; omega)
        (by omega : j + 1 = target + 1 + gap'.length) (by omega)
      refine ⟨rest, hrest, ?_⟩
      rw [hstep, hstop, hloop, mergedRun_eq_cons_second tail hfirst]
      simp
    · obtain ⟨x, t, rfl⟩ : ∃ x t, xs = x :: t := by
        apply List.exists_cons_of_ne_nil
        intro hxs
        apply hsecond
        obtain ⟨y, tail, rfl⟩ := List.exists_cons_of_length_pos (l := ys) (by
          rw [hxs, List.length_nil] at hcount
          omega)
        exact ⟨y, tail, rfl, .inl hxs⟩
      obtain ⟨old, gap', rfl⟩ := List.exists_cons_of_length_pos (l := gap) (by
        rw [hgap, List.length_cons]
        omega)
      have hless (y : α) (tail : List α) (hys : ys = y :: tail) : Item.less y x = false := by
        apply Bool.eq_false_iff.mpr
        intro h
        exact hsecond ⟨y, tail, hys, .inr ⟨x, t, rfl, h⟩⟩
      have hnext : j < j + ys.length → ∃ y tail, ys = y :: tail ∧ Item.less y x = false := by
        intro h
        obtain ⟨y, tail, hys⟩ := List.exists_cons_of_length_pos (l := ys) (by omega)
        exact ⟨y, tail, hys, hless y tail hys⟩
      rw [List.length_cons] at hcount hgap hj
      have hstep := mergeInto_first count front t behind gap' ys post x old hi htarget
        (by omega) (by rw [List.length_cons]; omega : i ≠ i + (x :: t).length) hnext
      have hstop : i + (x :: t).length = i + 1 + t.length := by
        rw [List.length_cons]
        omega
      obtain ⟨rest, hrest, hloop⟩ := ih (front ++ [x]) t (behind ++ [x]) gap' ys (by omega)
        (by simp [hi] : i + 1 = (front ++ [x]).length) (by simp [htarget]; omega)
        (by omega : j = target + 1 + gap'.length) (by omega)
      refine ⟨rest, hrest, ?_⟩
      rw [hstep, hstop, hloop, mergedRun_eq_cons_first t hless]
      simp

/-- Merging two runs in place into slots above the first one, with room for it below the second
one. -/
theorem mergeRuns_append (pre xs behind gap ys post : List α) {a lenA b lenB c : ℕ}
    (ha : a = pre.length) (hlenA : lenA = xs.length) (hlenB : lenB = ys.length)
    (hc : c = (pre ++ xs ++ behind).length) (hb : b = c + gap.length)
    (hgap : xs.length ≤ gap.length) :
    ∃ rest, rest.length + xs.length = gap.length ∧
      mergeRuns (pre ++ xs ++ behind ++ gap ++ ys ++ post).toArray a lenA b lenB c =
        .ok (pre ++ xs ++ behind ++ mergedRun xs ys ++ rest ++ post).toArray := by
  have hroom : a + lenA ≤ c ∧ c + lenA ≤ b := by
    rw [hb, hc, ha, hlenA]
    simp
    omega
  obtain ⟨rest, hrest, hloop⟩ := mergeInto_append pre xs behind gap ys post rfl ha hc hb
    (Nat.add_sub_cancel' hgap).symm
  refine ⟨rest, by omega, ?_⟩
  rw [mergeRuns, require_eq_ok_iff (u := ()).mpr hroom, hlenA, hlenB]
  exact hloop

/-! ### Numbers of slots -/

/-- The steps of a merge keep the number of slots. -/
lemma size_mergeInto {stopI stopJ count i j target : ℕ} {xs ys : Array α}
    (h : mergeInto stopI stopJ count i j target xs = .ok ys) : ys.size = xs.size := by
  induction count generalizing i j target xs with
  | zero => rw [Except.ok.inj h]
  | succ count ih =>
    rw [mergeInto] at h
    split at h
    · cases h
    · -- the item comes from either run
      dsimp only at h
      split at h <;> split at h
      · rw [ih h, Array.size_set]
      · cases h
      · rw [ih h, Array.size_set]
      · cases h

/-- A merge keeps the number of slots. -/
lemma size_mergeRuns {xs ys : Array α} {a lenA b lenB c : ℕ}
    (h : mergeRuns xs a lenA b lenB c = .ok ys) : ys.size = xs.size := by
  obtain ⟨_, -, h⟩ := bind_eq_ok_iff.mp h
  exact size_mergeInto h

/-! ### Slots that are not written -/

/-- A merge writes as many slots up from its target as it moves items. -/
lemma getElem?_mergeInto {xs ys : Array α} {stopI stopJ count i j target n : ℕ}
    (h : mergeInto stopI stopJ count i j target xs = .ok ys)
    (hn : n < target ∨ target + count ≤ n) : ys[n]? = xs[n]? := by
  induction count generalizing i j target xs with
  | zero => rw [Except.ok.inj h]
  | succ count ih =>
    have hne : target ≠ n := by omega
    rw [mergeInto] at h
    split at h
    · cases h
    · -- the item comes from either run
      dsimp only at h
      split at h <;> split at h
      · rw [ih h (by omega), Array.getElem?_set_ne _ hne]
      · cases h
      · rw [ih h (by omega), Array.getElem?_set_ne _ hne]
      · cases h

end QuantileSketch.Slots
