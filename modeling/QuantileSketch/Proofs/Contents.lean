import QuantileSketch.Proofs.Boundaries
import QuantileSketch.Sketch.Basic

/-!
# What a sketch holds

A sketch is an array of slots and a list of boundaries. Here it is seen as the items in its free
slots, which mean nothing, and one list of items for each level. `Represents` relates the two views,
and every sketch whose boundaries fit its slots has the second one (`exists_represents`). The weight
of the items with some property is `weightOf`.
-/

namespace QuantileSketch

/-- The total weight as a sum over the levels. -/
lemma totalWeight_eq_sum (populations : List ℕ) :
    totalWeight populations =
      ∑ level ∈ Finset.range populations.length, 2 ^ level * populations.getD level 0 := by
  induction populations with
  | nil => rfl
  | cons items populations ih =>
    rw [totalWeight, ih, List.length_cons, Finset.sum_range_succ', Finset.mul_sum, Nat.add_comm]
    simp only [List.getD_cons_succ, List.getD_cons_zero, pow_succ, pow_zero, Nat.one_mul]
    congr 1
    apply Finset.sum_congr rfl
    intro level _
    ring

/-- A list can be cut into pieces of given lengths. -/
lemma exists_flatten_eq {β : Type} {l : List β} {lengths : List ℕ} (h : l.length = lengths.sum) :
    ∃ pieces : List (List β), pieces.flatten = l ∧ pieces.map List.length = lengths := by
  induction lengths generalizing l with
  | nil => exact ⟨[], by rw [List.length_eq_zero_iff.mp h, List.flatten_nil], rfl⟩
  | cons first lengths ih =>
    rw [List.sum_cons] at h
    have hdrop : (l.drop first).length = lengths.sum := by
      rw [List.length_drop]
      omega
    obtain ⟨pieces, hpieces, hlengths⟩ := ih hdrop
    refine ⟨l.take first :: pieces, ?_, ?_⟩
    · rw [List.flatten_cons, hpieces, List.take_append_drop]
    · rw [List.map_cons, hlengths, List.length_take, Nat.min_eq_left (by omega)]

namespace Sketch

variable {α : Type}

/-- The free slots of a sketch hold `slack`, and its levels hold `runs`, level 0 first. -/
structure Represents (s : Sketch α) (slack : List α) (runs : List (List α)) : Prop where
  items_eq : s.items = (slack ++ runs.flatten).toArray
  levels_eq : s.levels = boundaries slack.length (runs.map List.length)

/-- The weight of the items of a sketch that have a property, an item of level `i` weighing
`2 ^ i`. -/
def weightOf (p : α → Bool) (s : Sketch α) : ℕ :=
  ∑ level ∈ Finset.range s.numLevels, 2 ^ level * (s.levelItems level).toList.countP p

/-- A sketch whose boundaries do not decrease and end at the last slot holds some lists of items. -/
theorem exists_represents {s : Sketch α} {free : ℕ} {populations : List ℕ}
    (hlevels : s.levels = boundaries free populations)
    (hsize : s.items.size = free + populations.sum) :
    ∃ slack runs, s.Represents slack runs ∧ slack.length = free ∧
      runs.map List.length = populations := by
  have hlen : s.items.toList.length = free + populations.sum := by
    rw [Array.length_toList, hsize]
  have hdrop : (s.items.toList.drop free).length = populations.sum := by
    rw [List.length_drop]
    omega
  have htake : (s.items.toList.take free).length = free := by
    rw [List.length_take]
    omega
  obtain ⟨runs, hruns, hlengths⟩ := exists_flatten_eq hdrop
  refine ⟨s.items.toList.take free, runs, ⟨?_, ?_⟩, htake, hlengths⟩
  · rw [hruns, List.take_append_drop, Array.toArray_toList]
  · rw [htake, hlengths, hlevels]

namespace Represents

variable {s : Sketch α} {slack : List α} {runs : List (List α)}

/-- The view does not depend on the other fields of the sketch. -/
lemma congr {s' : Sketch α} (h : s.Represents slack runs) (hitems : s'.items = s.items)
    (hlevels : s'.levels = s.levels) : s'.Represents slack runs :=
  ⟨hitems.trans h.items_eq, hlevels.trans h.levels_eq⟩

/-- The number of free slots. -/
lemma free_eq (h : s.Represents slack runs) : s.free = slack.length := by
  rw [free, h.levels_eq, headD_boundaries]

/-- The number of levels. -/
lemma numLevels_eq (h : s.Represents slack runs) : s.numLevels = runs.length := by
  rw [numLevels, h.levels_eq, length_boundaries, List.length_map, Nat.add_sub_cancel]

/-- The number of slots. -/
lemma capacity_eq (h : s.Represents slack runs) :
    s.capacity = slack.length + runs.flatten.length := by
  rw [capacity, h.levels_eq, getLastD_boundaries, List.length_flatten]

/-- The items of one level. -/
theorem levelItems_eq (h : s.Represents slack runs) (level : ℕ) :
    s.levelItems level = (runs.getD level []).toArray := by
  rw [levelItems, h.levels_eq]
  rcases Nat.lt_or_ge level runs.length with hlevel | hlevel
  · -- cut the levels below and above it off
    obtain ⟨lower, upper, hruns, hlower⟩ :
        ∃ lower upper, runs = lower ++ runs[level] :: upper ∧ lower.length = level :=
      ⟨runs.take level, runs.drop (level + 1), by simp, by simp; omega⟩
    set here := runs[level]
    have hgetD : runs.getD level [] = here := by
      rw [List.getD_eq_getElem?_getD, List.getElem?_eq_getElem hlevel, Option.getD_some]
    obtain ⟨rest, hrest⟩ := boundaries_eq_cons
      (slack.length + (lower.map List.length).sum + here.length) (upper.map List.length)
    have hdrop : (boundaries slack.length (runs.map List.length)).drop level =
        (slack.length + (lower.map List.length).sum) ::
          (slack.length + (lower.map List.length).sum + here.length) :: rest := by
      rw [hruns, List.map_append, boundaries_append,
        List.drop_left' (by rw [length_lowerBoundaries, List.length_map, hlower]),
        List.map_cons, boundaries, hrest]
    have hitems : s.items = (slack ++ lower.flatten ++ here ++ upper.flatten).toArray := by
      rw [h.items_eq, hruns]
      simp
    rw [hdrop, hgetD]
    change s.items.extract _ _ = _
    rw [hitems]
    simp [List.extract_eq_take_drop, List.length_flatten]
  · have hlen : ((boundaries slack.length (runs.map List.length)).drop level).length ≤ 1 := by
      rw [List.length_drop, length_boundaries, List.length_map]
      omega
    rw [List.getD_eq_getElem?_getD, List.getElem?_eq_none hlevel, Option.getD_none]
    generalize (boundaries slack.length (runs.map List.length)).drop level = rest at hlen
    rcases rest with _ | ⟨start, _ | ⟨stop, rest⟩⟩
    · rfl
    · rfl
    · exact absurd hlen (by simp)

/-- The items of all levels. -/
theorem retained_eq (h : s.Represents slack runs) : s.retained = runs.flatten.toArray := by
  rw [retained, h.free_eq, h.capacity_eq, h.items_eq]
  simp [List.extract_eq_take_drop]

/-- The list of the items of all levels. -/
lemma toList_retained (h : s.Represents slack runs) : s.retained.toList = runs.flatten := by
  rw [h.retained_eq]

/-- The number of items of all levels. -/
lemma numRetained_eq (h : s.Represents slack runs) : s.numRetained = runs.flatten.length := by
  rw [numRetained, h.capacity_eq, h.free_eq, Nat.add_sub_cancel_left]

/-- The weight of the items with a property, from the numbers of them in the levels. -/
theorem weightOf_eq (h : s.Represents slack runs) (p : α → Bool) :
    s.weightOf p = totalWeight (runs.map (List.countP p)) := by
  rw [weightOf, totalWeight_eq_sum, h.numLevels_eq, List.length_map]
  apply Finset.sum_congr rfl
  intro level _
  rw [h.levelItems_eq, List.getD_eq_getElem?_getD, List.getD_eq_getElem?_getD, List.getElem?_map]
  cases runs[level]? <;> simp

end Represents

end Sketch

end QuantileSketch
