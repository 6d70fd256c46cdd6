import QuantileSketch.Proofs.Slots.Halving
import QuantileSketch.Proofs.Slots.Merging

/-!
# The order of items

Items that have a place on the line are ordered by their places (`less_iff_key_lt`), and a list of
them is sorted if no item stands before an earlier one. Sorting and merging give sorted lists
(`sorted_spec`, `isSorted_mergedRun`), and merging is stable (`filter_mergedRun`). In a sorted list
the items that stand before a given one come first, so that every second item of the list stands for
two of them up to a rounding (`two_mul_countP_alternate`).

Items without a place are neither before nor after any other item. What is still true of a merge of
any items is that none of them stands before its neighbour (`ascends_mergedRun`).
-/

namespace QuantileSketch

namespace Item

variable {α : Type} [Item α]

/-- The place of an item on the line, zero for what has none. -/
def key (x : α) : ℤ := (position x).getD 0

/-- Whether all items of a list have a place on the line. -/
def AllNumbers (xs : List α) : Prop := ∀ x ∈ xs, isNaN x = false

/-- Whether no item of a list stands before an earlier one. -/
def IsSorted (xs : List α) : Prop := xs.Pairwise fun x y => less y x = false

/-- Whether no item of a list stands before the one right before it. -/
def Ascends (xs : List α) : Prop := xs.IsChain fun x y => less y x = false

/-- Whether an item has a given place on the line. -/
def standsAt (place : ℤ) (x : α) : Bool := position x == some place

/-- The place of an item that is a number. -/
lemma position_eq_some {x : α} (hx : isNaN x = false) : position x = some (key x) := by
  cases h : position x with
  | none => simp [isNaN, h] at hx
  | some a => simp [key, h]

/-- Only numbers stand before one another. -/
lemma isNaN_eq_false_of_less {x y : α} (h : less x y = true) :
    isNaN x = false ∧ isNaN y = false := by
  unfold less at h
  split at h
  · rename_i hx hy
    simp [isNaN, hx, hy]
  · cases h

/-- One number stands before another if its place does. -/
theorem less_iff_key_lt {x y : α} (hx : isNaN x = false) (hy : isNaN y = false) :
    less x y = true ↔ key x < key y := by
  simp [less, position_eq_some hx, position_eq_some hy]

/-- Of two numbers the first is not behind the second if its place is not. -/
lemma less_eq_false_iff {x y : α} (hx : isNaN x = false) (hy : isNaN y = false) :
    less y x = false ↔ key x ≤ key y := by
  rw [← Bool.not_eq_true, less_iff_key_lt hy hx, not_lt]

/-- Of two numbers only one can stand before the other. -/
lemma less_asymm {x y : α} (hx : isNaN x = false) (hy : isNaN y = false) (h : less x y = true) :
    less y x = false :=
  (less_eq_false_iff hx hy).mpr ((less_iff_key_lt hx hy).mp h).le

/-- An item that does not stand before `x` is not at the place of one that does. -/
lemma standsAt_eq_false {place : ℤ} {x y z : α} (hy : standsAt place y = true)
    (hyx : less y x = true) (hxz : less z x = false) : standsAt place z = false := by
  have hplace : position y = some place := by simpa [standsAt] using hy
  by_contra hz
  have hplace' : position z = some place := by simpa [standsAt] using hz
  rw [less, hplace'] at hxz
  rw [less, hplace] at hyx
  rw [hyx] at hxz
  cases hxz

/-- If a number does not stand behind a second one and that one not behind a third one, the first
does not stand behind the third one. -/
lemma not_less_trans {x y z : α} (hx : isNaN x = false) (hy : isNaN y = false)
    (hz : isNaN z = false) (hxy : less y x = false) (hyz : less z y = false) :
    less z x = false := by
  rw [less_eq_false_iff hx hy] at hxy
  rw [less_eq_false_iff hy hz] at hyz
  exact (less_eq_false_iff hx hz).mpr (hxy.trans hyz)

/-- A list of numbers is sorted if their places do not decrease. -/
theorem isSorted_iff {xs : List α} (h : AllNumbers xs) :
    IsSorted xs ↔ xs.Pairwise fun x y => key x ≤ key y :=
  List.Pairwise.iff_of_mem fun hx hy => less_eq_false_iff (h _ hx) (h _ hy)

/-- The empty list holds numbers only. -/
lemma allNumbers_nil : AllNumbers ([] : List α) := fun _ h => absurd h List.not_mem_nil

/-- Two lists of numbers together. -/
lemma allNumbers_append {xs ys : List α} :
    AllNumbers (xs ++ ys) ↔ AllNumbers xs ∧ AllNumbers ys := List.forall_mem_append

/-- Rearranging a list of numbers gives a list of numbers. -/
lemma AllNumbers.perm {xs ys : List α} (h : AllNumbers xs) (hperm : ys.Perm xs) : AllNumbers ys :=
  fun x hx => h x (hperm.mem_iff.mp hx)

/-- Some of the items of a list of numbers. -/
lemma AllNumbers.sublist {xs ys : List α} (h : AllNumbers xs) (hsub : ys.Sublist xs) :
    AllNumbers ys := fun x hx => h x (hsub.mem hx)

/-- The order in which merges compare items, extended to all items by their places. -/
def keyLe (x y : α) : Bool := decide (key x ≤ key y)

/-- Numbers are compared by their places. -/
lemma not_less_eq_keyLe {x y : α} (hx : isNaN x = false) (hy : isNaN y = false) :
    (!less y x) = keyLe x y := by
  rw [keyLe, Bool.eq_iff_iff, Bool.not_eq_true', less_eq_false_iff hx hy, decide_eq_true_iff]

/-- A list of numbers is sorted by the order of their places. -/
lemma isSorted_iff_keyLe {xs : List α} (h : AllNumbers xs) :
    IsSorted xs ↔ xs.Pairwise fun x y => keyLe x y = true := by
  simp only [isSorted_iff h, keyLe, decide_eq_true_iff]

/-- The order of the places is transitive. -/
lemma keyLe_trans (x y z : α) (hxy : keyLe x y = true) (hyz : keyLe y z = true) :
    keyLe x z = true := by
  rw [keyLe, decide_eq_true_iff] at *
  exact hxy.trans hyz

/-- The order of the places compares any two items. -/
lemma keyLe_total (x y : α) : (keyLe x y || keyLe y x) = true := by
  rw [Bool.or_eq_true, keyLe, keyLe, decide_eq_true_iff, decide_eq_true_iff]
  exact le_total _ _

end Item

open Item

variable {α : Type} [Item α]

/-! ### Sorting -/

namespace Sorting

/-- Inserting a number into a sorted run that is given backwards. -/
lemma pairwise_insertLast {x : α} {run : List α} (hx : isNaN x = false) (hrun : AllNumbers run)
    (h : run.Pairwise fun a b => key b ≤ key a) :
    (insertLast less x run).Pairwise fun a b => key b ≤ key a := by
  induction run with
  | nil => exact List.pairwise_singleton _ _
  | cons y run ih =>
    obtain ⟨hy, hrest⟩ := List.pairwise_cons.mp h
    have hynum : isNaN y = false := hrun y List.mem_cons_self
    have hrestnum : AllNumbers run := fun z hz => hrun z (List.mem_cons_of_mem y hz)
    rw [insertLast]
    by_cases hless : less x y = true
    · rw [if_pos hless]
      refine List.pairwise_cons.mpr ⟨?_, ih hrestnum hrest⟩
      intro z hz
      rcases List.mem_cons.mp ((insertLast_perm less x run).mem_iff.mp hz) with rfl | hz
      · exact ((less_iff_key_lt hx hynum).mp hless).le
      · exact hy z hz
    · rw [if_neg hless]
      have hyx : key y ≤ key x :=
        (less_eq_false_iff hynum hx).mp (Bool.eq_false_iff.mpr hless)
      refine List.pairwise_cons.mpr ⟨?_, h⟩
      intro z hz
      rcases List.mem_cons.mp hz with rfl | hz
      · exact hyx
      · exact (hy z hz).trans hyx

/-- Inserting numbers one after the other into a sorted run that is given backwards. -/
lemma pairwise_insertAll {run xs : List α} (hrun : AllNumbers run) (hxs : AllNumbers xs)
    (h : run.Pairwise fun a b => key b ≤ key a) :
    (insertAll less run xs).Pairwise fun a b => key b ≤ key a := by
  induction xs generalizing run with
  | nil => exact h
  | cons x xs ih =>
    have hx : isNaN x = false := hxs x List.mem_cons_self
    have hcons : AllNumbers (x :: run) := by
      intro y hy
      rcases List.mem_cons.mp hy with rfl | hy
      · exact hx
      · exact hrun y hy
    exact ih (hcons.perm (insertLast_perm less x run))
      (fun y hy => hxs y (List.mem_cons_of_mem x hy)) (pairwise_insertLast hx hrun h)

/-- Insertion from the left sorts a list of numbers. -/
theorem isSorted_extend {xs : List α} (h : AllNumbers xs) : IsSorted (extend less [] xs) := by
  have hnum : AllNumbers (extend less [] xs) := h.perm (extend_perm less [] xs)
  rw [isSorted_iff hnum, extend, List.pairwise_reverse]
  exact pairwise_insertAll allNumbers_nil h List.Pairwise.nil

end Sorting

namespace Slots

/-- Merging halves sorts a list of numbers. -/
lemma isSorted_mergeSort {xs : List α} (h : AllNumbers xs) :
    IsSorted (xs.mergeSort fun x y => !less y x) := by
  have heq : xs.mergeSort (fun x y => !less y x) = xs.mergeSort keyLe := by
    have := List.map_mergeSort (f := id) fun x (hx : x ∈ xs) y (hy : y ∈ xs) =>
      not_less_eq_keyLe (h x hx) (h y hy)
    simpa using this
  have hnum : AllNumbers (xs.mergeSort keyLe) := h.perm (List.mergeSort_perm xs keyLe)
  rw [heq, isSorted_iff_keyLe hnum]
  exact List.pairwise_mergeSort keyLe_trans keyLe_total xs

/-- A run of numbers is always sorted, and the sorted run has the same items. -/
theorem sorted_spec {xs : List α} (h : AllNumbers xs) :
    ∃ ys, sorted xs = .ok ys ∧ ys.Perm xs ∧ IsSorted ys := by
  unfold sorted
  split
  · exact ⟨_, rfl, Sorting.extend_perm _ _ _, Sorting.isSorted_extend h⟩
  · rw [if_neg (by simpa [AllNumbers] using h)]
    exact ⟨_, rfl, List.mergeSort_perm _ _, isSorted_mergeSort h⟩

/-- Merging sorted runs of numbers gives a sorted run. -/
theorem isSorted_mergedRun {xs ys : List α} (hxs : AllNumbers xs) (hys : AllNumbers ys)
    (hxs' : IsSorted xs) (hys' : IsSorted ys) : IsSorted (mergedRun xs ys) := by
  have heq : mergedRun xs ys = xs.merge ys keyLe := by
    have := List.map_merge (f := id) fun x (hx : x ∈ xs) y (hy : y ∈ ys) =>
      not_less_eq_keyLe (hxs x hx) (hys y hy)
    simpa [mergedRun] using this
  have hnum : AllNumbers (xs.merge ys keyLe) :=
    (allNumbers_append.mpr ⟨hxs, hys⟩).perm (List.merge_perm_append keyLe)
  rw [heq, isSorted_iff_keyLe hnum]
  exact List.pairwise_merge keyLe_trans keyLe_total xs ys
    ((isSorted_iff_keyLe hxs).mp hxs') ((isSorted_iff_keyLe hys).mp hys')

/-- The first item of a merge is the first one of either run. -/
lemma mem_head?_mergedRun {xs ys : List α} {z : α} (h : z ∈ (mergedRun xs ys).head?) :
    z ∈ xs.head? ∨ z ∈ ys.head? := by
  rcases xs with _ | ⟨x, xs⟩
  · rw [mergedRun, List.nil_merge] at h
    exact .inr h
  rcases ys with _ | ⟨y, ys⟩
  · rw [mergedRun_nil] at h
    exact .inl h
  rw [mergedRun_cons_cons] at h
  split at h
  · exact .inr h
  · exact .inl h

/-- Merging ascending runs of any items gives an ascending run. -/
theorem ascends_mergedRun {xs ys : List α} (hxs : Ascends xs) (hys : Ascends ys) :
    Ascends (mergedRun xs ys) := by
  induction xs generalizing ys with
  | nil =>
    rw [mergedRun, List.nil_merge]
    exact hys
  | cons x xs ihx =>
    induction ys with
    | nil =>
      rw [mergedRun_nil]
      exact hxs
    | cons y ys ihy =>
      obtain ⟨hx, hxs'⟩ := List.isChain_cons.mp hxs
      obtain ⟨hy, hys'⟩ := List.isChain_cons.mp hys
      rw [mergedRun_cons_cons]
      split
      · rename_i hless
        refine List.isChain_cons.mpr ⟨?_, ihy hys'⟩
        intro z hz
        rcases mem_head?_mergedRun hz with hz | hz
        · obtain rfl : x = z := Option.some.inj hz
          obtain ⟨hynum, hxnum⟩ := isNaN_eq_false_of_less hless
          exact less_asymm hynum hxnum hless
        · exact hy z hz
      · rename_i hless
        refine List.isChain_cons.mpr ⟨?_, ihx hxs' hys⟩
        intro z hz
        rcases mem_head?_mergedRun hz with hz | hz
        · exact hx z hz
        · obtain rfl : y = z := Option.some.inj hz
          exact Bool.eq_false_iff.mpr hless

/-- Merging is stable: if the first run is sorted, then of the items at any one place those of the
first run come first, and those of either run stay in their order. -/
theorem filter_mergedRun (place : ℤ) {xs : List α} (hxs : IsSorted xs) (ys : List α) :
    (mergedRun xs ys).filter (standsAt place) =
      xs.filter (standsAt place) ++ ys.filter (standsAt place) := by
  induction xs generalizing ys with
  | nil => rw [mergedRun, List.nil_merge, List.filter_nil, List.nil_append]
  | cons x xs ihx =>
    obtain ⟨hx, hxs'⟩ := List.pairwise_cons.mp hxs
    induction ys with
    | nil => rw [mergedRun_nil, List.filter_nil, List.append_nil]
    | cons y ys ihy =>
      rw [mergedRun_cons_cons]
      split
      · rename_i hless
        rw [List.filter_cons, ihy]
        by_cases hy : standsAt place y = true
        · -- the items of the first run all stand behind `y`
          have hnone : (x :: xs).filter (standsAt place) = [] := by
            rw [List.filter_eq_nil_iff]
            intro z hz
            have hxz : less z x = false := by
              rcases List.mem_cons.mp hz with rfl | hz
              · exact less_irrefl z
              · exact hx z hz
            rw [standsAt_eq_false hy hless hxz]
            exact Bool.false_ne_true
          rw [hnone, if_pos hy, List.nil_append, List.nil_append, List.filter_cons_of_pos hy]
        · rw [if_neg hy, List.filter_cons_of_neg hy]
      · by_cases hplace : standsAt place x = true
        · rw [List.filter_cons_of_pos hplace, List.filter_cons_of_pos hplace, ihx hxs',
            List.cons_append]
        · rw [List.filter_cons_of_neg hplace, List.filter_cons_of_neg hplace, ihx hxs']

end Slots

/-! ### Every second item of a sorted list -/

/-- If an item of a sorted list of numbers stands before `x` then all earlier ones do. -/
lemma pairwise_less_of_isSorted {xs : List α} (hnum : AllNumbers xs) (h : IsSorted xs) (x : α) :
    xs.Pairwise fun a b => less b x = true → less a x = true := by
  apply ((isSorted_iff hnum).mp h).imp_of_mem
  intro a b ha hb hab hbx
  have hx : isNaN x = false := (isNaN_eq_false_of_less hbx).2
  rw [less_iff_key_lt (hnum b hb) hx] at hbx
  exact (less_iff_key_lt (hnum a ha) hx).mpr (hab.trans_lt hbx)

/-- In a list of even length whose items with a property come first, twice the number of survivors
with it differs from the number of items with it by at most one. -/
lemma two_mul_countP_alternate_of_pairwise {β : Type} {p : β → Bool} (second : Bool) {xs : List β}
    (heven : xs.length % 2 = 0) (h : xs.Pairwise fun a b => p b = true → p a = true) :
    2 * (alternate second xs).countP p ≤ xs.countP p + 1 ∧
      xs.countP p ≤ 2 * (alternate second xs).countP p + 1 := by
  induction xs using List.twoStepInduction with
  | nil => simp [alternate]
  | singleton x => simp at heven
  | cons_cons x y xs ih _ =>
    obtain ⟨hx, hrest⟩ := List.pairwise_cons.mp h
    obtain ⟨hy, hrest⟩ := List.pairwise_cons.mp hrest
    have hxy : p y = true → p x = true := hx y List.mem_cons_self
    by_cases hpy : p y = true
    · have hkept : p (if second then y else x) = true := by
        cases second with
        | false => exact hxy hpy
        | true => exact hpy
      have hlen : xs.length % 2 = 0 := by
        rw [List.length_cons, List.length_cons] at heven
        omega
      have ih := ih hlen hrest
      rw [alternate, List.countP_cons_of_pos hkept, List.countP_cons_of_pos (hxy hpy),
        List.countP_cons_of_pos hpy]
      omega
    · -- behind an item without the property there is none with it
      have hnone (zs : List β) (hzs : zs.Sublist xs) : zs.countP p = 0 :=
        List.countP_eq_zero.mpr fun z hz hpz => hpy (hy z (hzs.mem hz) hpz)
      rw [alternate, List.countP_cons, hnone _ (alternate_sublist second xs), List.countP_cons,
        List.countP_cons_of_neg hpy, hnone xs (List.Sublist.refl xs)]
      cases second with
      | false =>
        rw [if_neg Bool.false_ne_true]
        split <;> omega
      | true =>
        rw [if_pos rfl, if_neg hpy]
        split <;> omega

/-- Of a sorted list of numbers of even length every second item is kept. Twice the number of those
that stand before `x` differs from the number of all items before `x` by at most one. -/
theorem two_mul_countP_alternate (second : Bool) {xs : List α} (heven : xs.length % 2 = 0)
    (hnum : AllNumbers xs) (h : IsSorted xs) (x : α) :
    2 * (alternate second xs).countP (less · x) ≤ xs.countP (less · x) + 1 ∧
      xs.countP (less · x) ≤ 2 * (alternate second xs).countP (less · x) + 1 :=
  two_mul_countP_alternate_of_pairwise second heven (pairwise_less_of_isSorted hnum h x)

/-- The survivors of a sorted list are sorted. -/
lemma isSorted_alternate (second : Bool) {xs : List α} (h : IsSorted xs) :
    IsSorted (alternate second xs) := h.sublist (alternate_sublist second xs)

end QuantileSketch
