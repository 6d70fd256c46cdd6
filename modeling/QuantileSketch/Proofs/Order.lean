import QuantileSketch.Proofs.Runs

/-!
# Sorted levels

New items come into level 0 in any order, and a compaction sorts it before its items move up. So all
levels above level 0 are sorted as long as everything in the sketch is a number (`OrderedRuns`,
`Sketch.Ordered`). Elementary changes keep it so (`Changes.ordered`).
-/

namespace QuantileSketch

open Item

variable {α : Type} [Item α]

/-- Lists of numbers all of which but the first are sorted. -/
structure OrderedRuns (runs : List (List α)) : Prop where
  allNumbers : ∀ run ∈ runs, AllNumbers run
  isSorted_tail : ∀ run ∈ runs.tail, IsSorted run

namespace OrderedRuns

/-- An empty list on top. -/
lemma append_nil {runs : List (List α)} (h : OrderedRuns runs) : OrderedRuns (runs ++ [[]]) := by
  refine ⟨?_, ?_⟩
  · intro run hrun
    rcases List.mem_append.mp hrun with hrun | hrun
    · exact h.allNumbers run hrun
    · rw [List.mem_singleton.mp hrun]
      exact allNumbers_nil
  · intro run hrun
    rcases runs with _ | ⟨first, runs⟩
    · exact absurd hrun List.not_mem_nil
    · rcases List.mem_append.mp hrun with hrun | hrun
      · exact h.isSorted_tail run hrun
      · rw [List.mem_singleton.mp hrun]
        exact List.Pairwise.nil

/-- A number more in the first list. -/
lemma cons {x : α} {here : List α} {upper : List (List α)} (hx : isNaN x = false)
    (h : OrderedRuns (here :: upper)) : OrderedRuns ((x :: here) :: upper) := by
  obtain ⟨hhere, hupper⟩ := List.forall_mem_cons.mp h.allNumbers
  exact ⟨List.forall_mem_cons.mpr ⟨List.forall_mem_cons.mpr ⟨hx, hhere⟩, hupper⟩, h.isSorted_tail⟩

/-- The lists after a compaction. -/
lemma compacted (bit : Bool) {lower upper : List (List α)} {here above pairs : List α} {n : ℕ}
    (h : OrderedRuns (lower ++ here :: above :: upper)) (hperm : pairs.Perm (here.drop n))
    (hsorted : IsSorted pairs) :
    OrderedRuns (lower ++ here.take n :: Sketch.promoted bit pairs above :: upper) := by
  have hhere : AllNumbers here := h.allNumbers here (by simp)
  have habove : AllNumbers above := h.allNumbers above (by simp)
  have hkept : AllNumbers (alternate (Sketch.keepsSecond bit above) pairs) :=
    ((hhere.sublist (List.drop_sublist n here)).perm hperm).sublist (alternate_sublist _ pairs)
  have hpromoted : AllNumbers (Sketch.promoted bit pairs above) :=
    (allNumbers_append.mpr ⟨hkept, habove⟩).perm (Slots.mergedRun_perm _ above)
  have habove' : IsSorted above := h.isSorted_tail above (by cases lower <;> simp)
  have hpromoted' : IsSorted (Sketch.promoted bit pairs above) :=
    Slots.isSorted_mergedRun hkept habove (isSorted_alternate _ hsorted) habove'
  refine ⟨?_, ?_⟩
  · intro run hrun
    rcases List.mem_append.mp hrun with hrun | hrun
    · exact h.allNumbers run (List.mem_append_left _ hrun)
    · rcases List.mem_cons.mp hrun with rfl | hrun
      · exact hhere.sublist (List.take_sublist n here)
      · rcases List.mem_cons.mp hrun with rfl | hrun
        · exact hpromoted
        · exact h.allNumbers run (by simp [hrun])
  · intro run hrun
    rcases lower with _ | ⟨first, lower⟩
    · rcases List.mem_cons.mp hrun with rfl | hrun
      · exact hpromoted'
      · exact h.isSorted_tail run (by simp [hrun])
    · rcases List.mem_append.mp hrun with hrun | hrun
      · exact h.isSorted_tail run (by simp [hrun])
      · rcases List.mem_cons.mp hrun with rfl | hrun
        · exact List.Pairwise.sublist (List.take_sublist n here) (h.isSorted_tail here (by simp))
        · rcases List.mem_cons.mp hrun with rfl | hrun
          · exact hpromoted'
          · exact h.isSorted_tail run (by simp [hrun])

end OrderedRuns

namespace Sketch

/-- A sketch of numbers whose levels above level 0 are sorted. -/
def Ordered (s : Sketch α) : Prop :=
  ∃ slack runs, s.Represents slack runs ∧ OrderedRuns runs

/-- The items before and after a compaction in a sketch with sorted levels. -/
theorem Ordered.exists_compacted {s s' : Sketch α} {free here above : ℕ} {lower upper : List ℕ}
    {bit : Bool} (h : s.Ordered) (hs : s.HasShape free (lower ++ here :: above :: upper))
    (hhere : 2 ≤ here) (hcompact : s.compact (spanAt free lower here above) bit = .ok s') :
    ∃ (slack slack' here' above' pairs : List α) (lower' upper' : List (List α)),
      lower'.length = lower.length ∧
      s.Represents slack (lower' ++ here' :: above' :: upper') ∧
      OrderedRuns (lower' ++ here' :: above' :: upper') ∧
      s'.Represents slack'
        (lower' ++ here'.take (here'.length % 2) :: promoted bit pairs above' :: upper') ∧
      orderedPairs lower'.length (here'.drop (here'.length % 2)) = .ok pairs ∧
      pairs.Perm (here'.drop (here'.length % 2)) ∧ IsSorted pairs := by
  obtain ⟨slack, runs, hrepresents, hordered⟩ := h
  obtain ⟨slack', here', above', pairs, lower', upper', rfl, hlower, -, hrepresents', hpairs,
    hperm⟩ := hs.exists_compacted hrepresents hhere hcompact
  have hnumbers : AllNumbers (here'.drop (here'.length % 2)) :=
    (hordered.allNumbers here' (by simp)).sublist (List.drop_sublist _ here')
  have hsorted (hlevel : 0 < lower'.length) : IsSorted (here'.drop (here'.length % 2)) := by
    obtain ⟨first, lower', rfl⟩ := List.exists_cons_of_length_pos hlevel
    exact (hordered.isSorted_tail here' (by simp)).sublist (List.drop_sublist _ here')
  exact ⟨slack, slack', here', above', pairs, lower', upper', hlower, hrepresents, hordered,
    hrepresents', hpairs, hperm, isSorted_orderedPairs hnumbers hsorted hpairs⟩

/-- The order does not depend on the region. -/
lemma Ordered.setBacking {s : Sketch α} (h : s.Ordered) (backing : Option Backing) :
    Ordered { s with backing } := by
  obtain ⟨slack, runs, hrepresents, hordered⟩ := h
  exact ⟨slack, runs, hrepresents.congr rfl rfl, hordered⟩

end Sketch

/-! ### Elementary changes -/

namespace Session.Changes

variable {γ : Type} [Coin γ] {r₀ r : Session γ α} {fed : List α}

/-- Elementary changes keep the levels above level 0 sorted. -/
theorem ordered (h : r₀.Changes fed r) (hwf : r₀.sketch.WellFormed) (h₀ : r₀.sketch.Ordered) :
    r.sketch.Ordered := by
  induction h with
  | start => exact h₀
  | moved _ backing hsketch _ _ ih =>
    rw [hsketch]
    exact ih.setBacking backing
  | grown _ _ _ hsketch _ _ ih =>
    obtain ⟨slack, runs, hrepresents, hordered⟩ := ih
    rw [hsketch]
    exact ⟨_, _, Sketch.grown_represents _ hrepresents, hordered.append_nil⟩
  | compacted _ hshape htwo hcompact _ _ ih =>
    obtain ⟨_, slack', _, _, _, _, _, -, -, hordered, hrepresents, -, hperm, hsorted⟩ :=
      ih.exists_compacted hshape htwo hcompact
    exact ⟨slack', _, hrepresents, hordered.compacted _ hperm hsorted⟩
  | inserted changes hnumber hinsert _ _ ih =>
    obtain ⟨slack, runs, hrepresents, hordered⟩ := ih
    obtain ⟨slack', _, here, upper, -, rfl, -, hrepresents'⟩ :=
      (changes.wellFormed hwf).exists_inserted hrepresents hinsert
    exact ⟨slack', _, hrepresents', hordered.cons hnumber⟩

end Session.Changes

end QuantileSketch
