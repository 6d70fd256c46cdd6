import QuantileSketch.Proofs.Contents
import QuantileSketch.Session.Growth
import QuantileSketch.Sketch.Compaction

/-!
# Insertions and growth

An insertion makes the highest free slot the first item of level 0, and growth puts an empty level
on top and opens free slots below all items. The sketches that result are `inserted` and `grown`, in
plain numbers. `insert_eq_ok_iff` and `withTopLevel_eq_ok_iff` say when the computations in words
succeed, and that they then give just these sketches.
-/

namespace QuantileSketch

namespace Sketch

variable {α : Type} [Item α]

/-! ### Insertions -/

/-- The sketch after an insertion. -/
def inserted (x : α) (s : Sketch α) : Sketch α :=
  { s with
    n := s.n + 1
    levels := (s.free - 1) :: s.levels.tail
    items := s.items.setIfInBounds (s.free - 1) x
    extremes := some (Extremes.insert x s.extremes)
    levelZeroSorted := false }

/-- An insertion succeeds if there is a free slot, the stream can become longer and the levels then
stand for a stream of its length. -/
theorem insert_eq_ok_iff {x : α} {s s' : Sketch α} :
    s.insert x = .ok s' ↔
      s.n + 1 < wordBound 64 ∧ 0 < s.free ∧ s.free ≤ s.items.size ∧
        sampleWeight s.numLevels ((s.free - 1) :: s.levels.tail) = .ok (s.n + 1) ∧
        s.inserted x = s' := by
  obtain ⟨k, m, minK, n, levels, items, extremes, sorted, readOnly, backing⟩ := s
  rw [insert, bind_eq_ok_iff]
  rcases levels with _ | ⟨free, levels⟩
  · simp [free]
  · have hset (hslot : free - 1 < items.size) :
        items.setIfInBounds (free - 1) x = items.set (free - 1) x hslot := dif_pos hslot
    constructor
    · rintro ⟨n', hsucc, h⟩
      obtain ⟨slot, hslot, h⟩ := bind_eq_ok_iff.mp h
      obtain ⟨hn, rfl⟩ := addWord_eq_ok_iff.mp hsucc
      obtain ⟨hfree, rfl⟩ := subWord_eq_ok_iff.mp hslot
      split at h
      · rename_i hsize
        obtain ⟨weight, hweight, h⟩ := bind_eq_ok_iff.mp h
        obtain ⟨_, hrequire, h⟩ := bind_eq_ok_iff.mp h
        rw [require_eq_ok_iff.mp hrequire] at hweight
        refine ⟨hn, hfree, Nat.le_of_pred_lt hsize, hweight, ?_⟩
        rw [← pure_eq_ok_iff.mp h, ← hset hsize]
        rfl
      · cases h
    · rintro ⟨hn, hfree, hsize, hweight, rfl⟩
      have hslot : free - 1 < items.size := Nat.lt_of_lt_of_le (Nat.sub_lt hfree Nat.one_pos) hsize
      refine ⟨n + 1, addWord_eq_ok_iff.mpr ⟨hn, rfl⟩, ?_⟩
      refine bind_eq_ok_iff.mpr ⟨free - 1, subWord_eq_ok_iff.mpr ⟨hfree, rfl⟩, ?_⟩
      rw [dif_pos hslot, ← hset hslot]
      exact bind_eq_ok_iff.mpr ⟨n + 1, hweight,
        bind_eq_ok_iff.mpr ⟨(), require_eq_ok_iff.mpr rfl, rfl⟩⟩

/-- The boundaries after an insertion. -/
lemma levels_inserted {x : α} {s : Sketch α} {free here : ℕ} {upper : List ℕ}
    (h : s.levels = boundaries (free + 1) (here :: upper)) :
    (s.inserted x).levels = boundaries free ((here + 1) :: upper) := by
  have hstop : free + 1 + here = free + (here + 1) := by omega
  have hfree : s.free = free + 1 := by rw [Sketch.free, h, headD_boundaries]
  rw [inserted, hfree, h, boundaries, boundaries, List.tail_cons, hstop, Nat.add_sub_cancel]

/-- An insertion puts the item in front of the others of level 0. -/
theorem inserted_represents (x : α) {s : Sketch α} {slack here : List α} {y : α}
    {upper : List (List α)} (h : s.Represents (slack ++ [y]) (here :: upper)) :
    (s.inserted x).Represents slack ((x :: here) :: upper) := by
  have hfree : s.free - 1 = slack.length := by
    rw [h.free_eq, List.length_append, List.length_singleton, Nat.add_sub_cancel]
  refine ⟨?_, ?_⟩
  · change s.items.setIfInBounds (s.free - 1) x = _
    rw [h.items_eq, hfree]
    simp
  · have hlevels := h.levels_eq
    rw [List.length_append, List.length_singleton] at hlevels
    exact levels_inserted hlevels

/-- The item that is inserted has weight one. -/
lemma weightOf_inserted (x : α) {s : Sketch α} {slack here : List α} {y : α}
    {upper : List (List α)} (h : s.Represents (slack ++ [y]) (here :: upper)) (p : α → Bool) :
    (s.inserted x).weightOf p = s.weightOf p + [x].countP p := by
  rw [(inserted_represents x h).weightOf_eq, h.weightOf_eq, List.map_cons, List.map_cons,
    totalWeight, totalWeight, List.countP_cons, List.countP_singleton]
  omega

/-! ### Growth -/

/-- The sketch with an empty level on top and `delta` more free slots. -/
def grown (delta : ℕ) (s : Sketch α) : Sketch α :=
  { s with
    levels := s.levels.map (· + delta) ++ [s.capacity + delta]
    items := Array.replicate delta Item.filler ++ s.items }

/-- Growth succeeds if all boundaries stay words. -/
theorem withTopLevel_eq_ok_iff {delta : ℕ} {s s' : Sketch α} :
    s.withTopLevel delta = .ok s' ↔
      s.capacity + delta < wordBound 32 ∧ (∀ b ∈ s.levels, b + delta < wordBound 32) ∧
        s.grown delta = s' := by
  rw [withTopLevel, bind_eq_ok_iff]
  constructor
  · rintro ⟨top, htop, h⟩
    obtain ⟨levels, hlevels, h⟩ := bind_eq_ok_iff.mp h
    obtain ⟨hcapacity, rfl⟩ := addWord_eq_ok_iff.mp htop
    obtain ⟨hbound, rfl⟩ := mapM_addWord_eq_ok_iff.mp hlevels
    exact ⟨hcapacity, hbound, pure_eq_ok_iff.mp h⟩
  · rintro ⟨hcapacity, hbound, rfl⟩
    exact ⟨_, addWord_eq_ok_iff.mpr ⟨hcapacity, rfl⟩,
      bind_eq_ok_iff.mpr ⟨_, mapM_addWord_eq_ok_iff.mpr ⟨hbound, rfl⟩, rfl⟩⟩

/-- Growth finds the capacity of the new level 0 and opens as many slots. -/
lemma enlarged_eq_ok_iff {delta : ℕ} {s s' : Sketch α} :
    s.enlarged = .ok (delta, s') ↔
      levelCapacity s.k (s.numLevels + 1) 0 s.m = .ok delta ∧ s.withTopLevel delta = .ok s' := by
  rw [enlarged, bind_eq_ok_iff]
  constructor
  · rintro ⟨_, hdelta, h⟩
    obtain ⟨_, hgrown, h⟩ := bind_eq_ok_iff.mp h
    obtain ⟨rfl, rfl⟩ := Prod.mk.inj (pure_eq_ok_iff.mp h)
    exact ⟨hdelta, hgrown⟩
  · rintro ⟨hdelta, hgrown⟩
    exact ⟨delta, hdelta, bind_eq_ok_iff.mpr ⟨s', hgrown, rfl⟩⟩

/-- The boundaries of a grown sketch. -/
lemma levels_grown {s : Sketch α} {free : ℕ} {populations : List ℕ} (delta : ℕ)
    (h : s.levels = boundaries free populations) :
    (s.grown delta).levels = boundaries (free + delta) (populations ++ [0]) := by
  have hcapacity : s.capacity = free + populations.sum := by
    rw [capacity, h, getLastD_boundaries]
  change s.levels.map (· + delta) ++ [s.capacity + delta] = _
  rw [hcapacity, h, map_add_boundaries, boundaries_append_zero, Nat.add_right_comm]

/-- Growth keeps the items of all levels and adds fillers to the free slots. -/
theorem grown_represents (delta : ℕ) {s : Sketch α} {slack : List α} {runs : List (List α)}
    (h : s.Represents slack runs) :
    (s.grown delta).Represents (List.replicate delta Item.filler ++ slack) (runs ++ [[]]) := by
  refine ⟨?_, ?_⟩
  · change Array.replicate delta Item.filler ++ s.items = _
    rw [h.items_eq]
    simp
  · rw [levels_grown delta h.levels_eq, List.length_append, List.length_replicate, List.map_append,
      Nat.add_comm]
    rfl

/-- Growth keeps the weight of all items. -/
lemma weightOf_grown (delta : ℕ) {s : Sketch α} {slack : List α} {runs : List (List α)}
    (h : s.Represents slack runs) (p : α → Bool) : (s.grown delta).weightOf p = s.weightOf p := by
  rw [(grown_represents delta h).weightOf_eq, h.weightOf_eq, List.map_append, List.map_singleton,
    List.countP_nil, totalWeight_append_zero]

end Sketch

end QuantileSketch
