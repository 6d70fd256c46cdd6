import QuantileSketch.Levels
import QuantileSketch.Proofs.Capacity

/-!
# Boundaries and populations

The list of boundaries of a sketch is determined by the number of free slots and the populations of
its levels, and every non-decreasing list of boundaries comes from exactly such numbers
(`exists_boundaries`). What the library computes from boundaries is restated here on populations:
the weight of the sample is `totalWeight`, and looking for a level at its capacity finds the first
one, which exists as soon as all slots are taken (`exists_firstFullLevel`).
-/

namespace QuantileSketch

/-- The boundaries of levels of the given populations above `free` free slots. -/
def boundaries (free : ℕ) : List ℕ → List ℕ
  | [] => [free]
  | items :: populations => free :: boundaries (free + items) populations

/-- The lower boundaries of levels of the given populations above `free` free slots. -/
def lowerBoundaries (free : ℕ) : List ℕ → List ℕ
  | [] => []
  | items :: populations => free :: lowerBoundaries (free + items) populations

/-- The length of the stream that levels of the given populations stand for. -/
def totalWeight : List ℕ → ℕ
  | [] => 0
  | items :: populations => items + 2 * totalWeight populations

/-! ### The list of boundaries -/

/-- There is one more boundary than there are levels. -/
@[simp] theorem length_boundaries (free : ℕ) (populations : List ℕ) :
    (boundaries free populations).length = populations.length + 1 := by
  induction populations generalizing free with
  | nil => rfl
  | cons items populations ih => simp [boundaries, ih]

/-- There is one lower boundary for each level. -/
@[simp] theorem length_lowerBoundaries (free : ℕ) (populations : List ℕ) :
    (lowerBoundaries free populations).length = populations.length := by
  induction populations generalizing free with
  | nil => rfl
  | cons items populations ih => simp [lowerBoundaries, ih]

/-- The first boundary is the number of free slots. -/
@[simp] theorem headD_boundaries (free : ℕ) (populations : List ℕ) :
    (boundaries free populations).headD 0 = free := by
  cases populations <;> rfl

/-- The list of boundaries begins with the number of free slots. -/
lemma boundaries_eq_cons (free : ℕ) (populations : List ℕ) :
    ∃ rest, boundaries free populations = free :: rest := by
  cases populations with
  | nil => exact ⟨[], rfl⟩
  | cons items populations => exact ⟨_, rfl⟩

/-- The last boundary is the number of all slots. -/
@[simp] theorem getLastD_boundaries (free : ℕ) (populations : List ℕ) :
    (boundaries free populations).getLastD 0 = free + populations.sum := by
  induction populations generalizing free with
  | nil => rfl
  | cons items populations ih =>
    obtain ⟨rest, hrest⟩ := boundaries_eq_cons (free + items) populations
    have ih := ih (free + items)
    rw [hrest] at ih
    rw [boundaries, hrest, List.getLastD_cons, List.getLastD_cons]
    rw [List.getLastD_cons] at ih
    rw [ih, List.sum_cons]
    omega

/-- The last boundary, told by its position. -/
lemma getElem?_boundaries_length (free : ℕ) (populations : List ℕ) :
    (boundaries free populations)[populations.length]? = some (free + populations.sum) := by
  induction populations generalizing free with
  | nil => rfl
  | cons items populations ih =>
    rw [boundaries, List.length_cons, List.getElem?_cons_succ, ih, List.sum_cons, Nat.add_assoc]

/-- The boundaries of two groups of levels, one on top of the other. -/
lemma boundaries_append (free : ℕ) (lower upper : List ℕ) :
    boundaries free (lower ++ upper) =
      lowerBoundaries free lower ++ boundaries (free + lower.sum) upper := by
  induction lower generalizing free with
  | nil => simp [lowerBoundaries]
  | cons items lower ih => simp [boundaries, lowerBoundaries, ih, Nat.add_assoc]

/-- The boundaries move up with the free slots. -/
lemma map_add_boundaries (free distance : ℕ) (populations : List ℕ) :
    (boundaries free populations).map (· + distance) =
      boundaries (free + distance) populations := by
  induction populations generalizing free with
  | nil => rfl
  | cons items populations ih => simp [boundaries, ih, Nat.add_right_comm]

/-- The lower boundaries move up with the free slots. -/
lemma map_add_lowerBoundaries (free distance : ℕ) (populations : List ℕ) :
    (lowerBoundaries free populations).map (· + distance) =
      lowerBoundaries (free + distance) populations := by
  induction populations generalizing free with
  | nil => rfl
  | cons items populations ih => simp [lowerBoundaries, ih, Nat.add_right_comm]

/-- Adding the same number to each of some words succeeds if and only if all the sums are words. -/
lemma mapM_addWord_eq_ok_iff {width d : ℕ} {xs ys : List ℕ} :
    xs.mapM (addWord width · d) = .ok ys ↔
      (∀ x ∈ xs, x + d < wordBound width) ∧ xs.map (· + d) = ys := by
  induction xs generalizing ys with
  | nil => simp [pure_eq_ok_iff]
  | cons x xs ih =>
    rw [List.mapM_cons, bind_eq_ok_iff]
    constructor
    · rintro ⟨first, hfirst, h⟩
      obtain ⟨rest, hrest, h⟩ := bind_eq_ok_iff.mp h
      obtain ⟨hx, rfl⟩ := addWord_eq_ok_iff.mp hfirst
      obtain ⟨hxs, rfl⟩ := ih.mp hrest
      exact ⟨List.forall_mem_cons.mpr ⟨hx, hxs⟩, pure_eq_ok_iff.mp h⟩
    · rintro ⟨hbound, rfl⟩
      obtain ⟨hx, hxs⟩ := List.forall_mem_cons.mp hbound
      refine ⟨x + d, addWord_eq_ok_iff.mpr ⟨hx, rfl⟩, ?_⟩
      rw [ih.mpr ⟨hxs, rfl⟩]
      rfl

/-- An empty level on top adds a boundary at the end of the slots. -/
lemma boundaries_append_zero (free : ℕ) (populations : List ℕ) :
    boundaries free (populations ++ [0]) =
      boundaries free populations ++ [free + populations.sum] := by
  induction populations generalizing free with
  | nil => rfl
  | cons items populations ih => simp [boundaries, ih, Nat.add_assoc]

/-- The boundaries determine the free slots and the populations. -/
lemma boundaries_inj {free free' : ℕ} {populations populations' : List ℕ} :
    boundaries free populations = boundaries free' populations' ↔
      free = free' ∧ populations = populations' := by
  constructor
  · intro h
    induction populations generalizing free free' populations' with
    | nil =>
      rcases populations' with _ | ⟨items', populations'⟩
      · exact ⟨(List.cons.inj h).1, rfl⟩
      · obtain ⟨rest, hrest⟩ := boundaries_eq_cons (free' + items') populations'
        rw [boundaries, boundaries, hrest] at h
        cases (List.cons.inj h).2
    | cons items populations ih =>
      rcases populations' with _ | ⟨items', populations'⟩
      · obtain ⟨rest, hrest⟩ := boundaries_eq_cons (free + items) populations
        rw [boundaries, boundaries, hrest] at h
        cases (List.cons.inj h).2
      · obtain ⟨rfl, htail⟩ := List.cons.inj h
        obtain ⟨hitems, rfl⟩ := ih htail
        exact ⟨rfl, by rw [Nat.add_left_cancel hitems]⟩
  · rintro ⟨rfl, rfl⟩
    rfl

/-- No boundary lies below the free slots or above the last slot. -/
lemma mem_boundaries {free b : ℕ} {populations : List ℕ} (h : b ∈ boundaries free populations) :
    free ≤ b ∧ b ≤ free + populations.sum := by
  induction populations generalizing free with
  | nil => simp_all [boundaries]
  | cons items populations ih =>
    rw [List.sum_cons]
    rcases List.mem_cons.mp h with rfl | h
    · omega
    · have := ih h
      omega

/-- Boundaries do not decrease. -/
theorem pairwise_boundaries (free : ℕ) (populations : List ℕ) :
    (boundaries free populations).Pairwise (· ≤ ·) := by
  induction populations generalizing free with
  | nil => exact List.pairwise_singleton _ _
  | cons items populations ih =>
    refine List.pairwise_cons.mpr ⟨?_, ih _⟩
    intro b hb
    exact (Nat.le_add_right free items).trans (mem_boundaries hb).1

/-- Every non-decreasing list of boundaries is that of some free slots and populations. -/
theorem exists_boundaries {free : ℕ} {rest : List ℕ} (h : (free :: rest).Pairwise (· ≤ ·)) :
    ∃ populations, free :: rest = boundaries free populations := by
  induction rest generalizing free with
  | nil => exact ⟨[], rfl⟩
  | cons stop rest ih =>
    obtain ⟨hfree, hrest⟩ := List.pairwise_cons.mp h
    obtain ⟨populations, hpop⟩ := ih hrest
    have hle : free ≤ stop := hfree stop List.mem_cons_self
    exact ⟨(stop - free) :: populations, by rw [boundaries, Nat.add_sub_cancel' hle, ← hpop]⟩

/-! ### Weights -/

/-- The weight of two groups of levels, one on top of the other. -/
lemma totalWeight_append (lower upper : List ℕ) :
    totalWeight (lower ++ upper) = totalWeight lower + 2 ^ lower.length * totalWeight upper := by
  induction lower with
  | nil => simp [totalWeight]
  | cons items lower ih =>
    rw [List.cons_append, totalWeight, totalWeight, ih, List.length_cons, pow_succ]
    ring

/-- An empty level on top has no weight. -/
lemma totalWeight_append_zero (populations : List ℕ) :
    totalWeight (populations ++ [0]) = totalWeight populations := by
  simp [totalWeight_append, totalWeight]

/-- Every item weighs at least one. -/
lemma sum_le_totalWeight (populations : List ℕ) : populations.sum ≤ totalWeight populations := by
  induction populations with
  | nil => rfl
  | cons items populations ih =>
    rw [List.sum_cons, totalWeight]
    omega

/-- No items have no weight. -/
lemma totalWeight_eq_zero {populations : List ℕ} (h : populations.sum = 0) :
    totalWeight populations = 0 := by
  induction populations with
  | nil => rfl
  | cons items populations ih =>
    rw [List.sum_cons, Nat.add_eq_zero_iff] at h
    rw [totalWeight, ih h.2, h.1]

/-- A compaction keeps the weight: two items of a level become one of the level above. -/
theorem totalWeight_compacted (lower upper : List ℕ) (here above : ℕ) :
    totalWeight (lower ++ here % 2 :: (above + here / 2) :: upper) =
      totalWeight (lower ++ here :: above :: upper) := by
  simp only [totalWeight_append, totalWeight]
  congr 2
  have := Nat.div_add_mod here 2
  omega

/-- The exact weight of boundaries is that of the populations. -/
@[simp] theorem exactWeight_boundaries (free : ℕ) (populations : List ℕ) :
    exactWeight (boundaries free populations) = totalWeight populations := by
  induction populations generalizing free with
  | nil => rfl
  | cons items populations ih =>
    obtain ⟨rest, hrest⟩ := boundaries_eq_cons (free + items) populations
    rw [boundaries, hrest, exactWeight, ← hrest, ih, totalWeight, Nat.add_sub_cancel_left]

/-- A product is cut off in the same way if a factor has been cut off before. -/
lemma saturate_saturate_mul (a b : ℕ) : saturate (saturate a * b) = saturate (a * b) := by
  unfold saturate
  rcases Nat.le_total a maxWord64 with ha | ha
  · rw [Nat.min_eq_right ha]
  · rw [Nat.min_eq_left ha]
    rcases Nat.eq_zero_or_pos b with rfl | hb
    · rw [Nat.mul_zero, Nat.mul_zero]
    · have h₁ : maxWord64 ≤ maxWord64 * b := Nat.le_mul_of_pos_right _ hb
      have h₂ : maxWord64 * b ≤ a * b := Nat.mul_le_mul_right _ ha
      rw [Nat.min_eq_left h₁, Nat.min_eq_left (h₁.trans h₂)]

/-- A sum is cut off in the same way if its terms have been cut off before. -/
lemma saturate_saturate_add (a b : ℕ) : saturate (saturate a + saturate b) = saturate (a + b) := by
  unfold saturate
  omega

/-- Cutting off at every step of the sum gives the total weight cut off once. -/
theorem addWeights_boundaries (weight total free : ℕ) (populations : List ℕ) :
    addWeights populations.length (saturate weight) (saturate total) (boundaries free populations) =
      .ok (saturate (total + weight * totalWeight populations)) := by
  induction populations generalizing weight total free with
  | nil => simp [addWeights, totalWeight]
  | cons items populations ih =>
    obtain ⟨rest, hrest⟩ := boundaries_eq_cons (free + items) populations
    have hsub : subWord (free + items) free = .ok items :=
      subWord_eq_ok_iff.mpr ⟨Nat.le_add_right _ _, Nat.add_sub_cancel_left _ _⟩
    have hsum : saturate total + saturate (saturate weight * items) =
        saturate total + saturate (weight * items) := by rw [saturate_saturate_mul]
    rw [boundaries, hrest, List.length_cons, addWeights, hsub]
    change addWeights populations.length (saturate (saturate weight * 2))
      (saturate (saturate total + saturate (saturate weight * items))) ((free + items) :: rest) = _
    rw [saturate_saturate_mul, hsum, saturate_saturate_add, ← hrest, ih, totalWeight]
    congr 2
    ring

/-- The weight of the sample is the total weight of the populations, cut off at the largest word. -/
theorem sampleWeight_boundaries (free : ℕ) (populations : List ℕ) :
    sampleWeight populations.length (boundaries free populations) =
      .ok (saturate (totalWeight populations)) := by
  have h := addWeights_boundaries 1 0 free populations
  rw [Nat.one_mul, Nat.zero_add] at h
  exact h

/-! ### Full levels -/

/-- Looking for a full level among the upper levels of a sketch finds the first of them that is at
its capacity, and nothing if there is none. -/
theorem findFull_boundaries {k m numLevels level : ℕ} (hk : k < wordBound 16) (free : ℕ)
    {populations : List ℕ} (hlevels : numLevels ≤ maxLevels)
    (hcount : level + populations.length = numLevels) :
    (findFull k m numLevels populations.length level (boundaries free populations) = .ok none ∧
      ∀ i (h : i < populations.length),
        populations[i] < capacityAt k m (populations.length - i - 1)) ∨
    ∃ lower here upper, populations = lower ++ here :: upper ∧
      findFull k m numLevels populations.length level (boundaries free populations) =
        .ok (some (level + lower.length)) ∧
      capacityAt k m upper.length ≤ here ∧
      ∀ i (h : i < lower.length), lower[i] < capacityAt k m (populations.length - i - 1) := by
  induction populations generalizing level free with
  | nil => exact .inl ⟨rfl, fun i h => absurd h (Nat.not_lt_zero i)⟩
  | cons items populations ih =>
    obtain ⟨rest, hrest⟩ := boundaries_eq_cons (free + items) populations
    have hsub : subWord (free + items) free = .ok items :=
      subWord_eq_ok_iff.mpr ⟨Nat.le_add_right _ _, Nat.add_sub_cancel_left _ _⟩
    rw [List.length_cons] at hcount
    have hcap := levelCapacity_eq_ok_of_depth (m := m) hk hlevels hcount
    have hstep : findFull k m numLevels (items :: populations).length level
        (boundaries free (items :: populations)) =
          if capacityAt k m populations.length ≤ items then .ok (some level)
          else findFull k m numLevels populations.length (level + 1)
            (boundaries (free + items) populations) := by
      rw [boundaries, hrest, List.length_cons, findFull, hsub, hcap]
      rfl
    rw [hstep]
    by_cases hfull : capacityAt k m populations.length ≤ items
    · rw [if_pos hfull]
      exact .inr ⟨[], items, populations, rfl, rfl, hfull, fun i h => absurd h (Nat.not_lt_zero i)⟩
    · rw [if_neg hfull]
      have hcount' : level + 1 + populations.length = numLevels := by omega
      rcases ih (free + items) hcount' with
        ⟨hnone, hunder⟩ | ⟨lower, here, upper, hsplit, hsome, hhere, hunder⟩
      · refine .inl ⟨hnone, ?_⟩
        intro i h
        cases i with
        | zero => simpa using hfull
        | succ i => simpa [Nat.add_sub_add_right] using hunder i (by simpa using h)
      · refine .inr ⟨items :: lower, here, upper, by rw [hsplit, List.cons_append], ?_, hhere, ?_⟩
        · rw [hsome, List.length_cons]
          congr 2
          omega
        · intro i h
          cases i with
          | zero => simpa using hfull
          | succ i => simpa [Nat.add_sub_add_right] using hunder i (by simpa using h)

/-- Levels that are all below their capacity leave a slot free. -/
theorem sum_lt_totalCapacity {k m : ℕ} {populations : List ℕ} (hne : populations ≠ [])
    (hunder : ∀ i (h : i < populations.length),
      populations[i] < capacityAt k m (populations.length - i - 1)) :
    populations.sum < totalCapacity k m populations.length := by
  induction populations with
  | nil => exact absurd rfl hne
  | cons items populations ih =>
    have hitems : items < capacityAt k m populations.length := hunder 0 (Nat.succ_pos _)
    rw [List.sum_cons, List.length_cons, totalCapacity]
    rcases eq_or_ne populations [] with rfl | hne'
    · simpa [totalCapacity] using hitems
    · have := ih hne' fun i h => by
        have hsucc := hunder (i + 1) (Nat.succ_lt_succ h)
        rwa [List.length_cons, Nat.add_sub_add_right] at hsucc
      omega

/-- A sketch whose slots are all taken has a level at its capacity: were all of them below it, a
slot would be free. -/
theorem exists_firstFullLevel {k m : ℕ} {populations : List ℕ} (hk : k < wordBound 16)
    (hne : populations ≠ []) (hlevels : populations.length ≤ maxLevels)
    (hfull : populations.sum = totalCapacity k m populations.length) :
    ∃ lower here upper, populations = lower ++ here :: upper ∧
      firstFullLevel k m populations.length (boundaries 0 populations) = .ok (some lower.length) ∧
      capacityAt k m upper.length ≤ here ∧
      ∀ i (h : i < lower.length), lower[i] < capacityAt k m (populations.length - i - 1) := by
  rcases findFull_boundaries (m := m) hk 0 hlevels (Nat.zero_add _) with
    ⟨-, hunder⟩ | ⟨lower, here, upper, hsplit, hsome, hhere, hunder⟩
  · have := sum_lt_totalCapacity hne hunder
    omega
  · exact ⟨lower, here, upper, hsplit, by rw [firstFullLevel, hsome, Nat.zero_add], hhere, hunder⟩

end QuantileSketch
