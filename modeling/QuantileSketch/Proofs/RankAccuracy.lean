import QuantileSketch.Item.Integer
import QuantileSketch.Proofs.Constructed

/-!
# The accuracy of ranks

The weight of all items that stand before `x` is the estimate of the number of items of the stream
before `x`. An insertion moves both by the same amount, and growth moves neither. A compaction of
level `i` moves the weight by at most `2 ^ i`: the pairs are sorted, so that those items before `x`
come first, and taking every second one of them is wrong by at most one item
(`abs_weightOf_compacted_sub_le`). So the error of a whole run is at most the sum of these bounds
over its compactions, whatever the coin shows (`Run.rank_error_le`).
-/

namespace QuantileSketch

open Item

variable {γ α : Type} [Item α]

/-- A compaction of a level moves the weight before any item by at most one item of that level. -/
theorem Sketch.abs_weightOf_compacted_sub_le {s s' : Sketch α} {free here above : ℕ}
    {lower upper : List ℕ} {bit : Bool} (h : s.Ordered)
    (hs : s.HasShape free (lower ++ here :: above :: upper)) (hhere : 2 ≤ here)
    (hcompact : s.compact (spanAt free lower here above) bit = .ok s') (x : α) :
    |(s'.weightOf (less · x) : ℤ) - s.weightOf (less · x)| ≤ 2 ^ lower.length := by
  obtain ⟨slack, slack', here', above', pairs, lower', upper', hlower, hrepresents, hordered,
    hrepresents', -, hperm, hsorted⟩ := h.exists_compacted hs hhere hcompact
  have hnumbers : AllNumbers pairs :=
    ((hordered.allNumbers here' (by simp)).sublist (List.drop_sublist _ here')).perm hperm
  have heven : pairs.length % 2 = 0 := by
    rw [hperm.length_eq, List.length_drop]
    omega
  have hhalf := two_mul_countP_alternate (keepsSecond bit above') heven hnumbers hsorted x
  rw [weightOf_compacted hrepresents hrepresents' hperm, add_sub_cancel_left, hlower, abs_mul,
    abs_of_nonneg (by positivity)]
  refine mul_le_of_le_one_right (by positivity) (abs_le.mpr ⟨?_, ?_⟩) <;> omega

namespace Session

variable [Coin γ] {r₀ r : Session γ α}

/-- The sum of the weights of the levels that have been compacted. -/
def errorBound (r : Session γ α) : ℕ := (r.compactions.map (2 ^ ·)).sum

/-- Elementary changes move the estimate of a rank away from the rank by at most the error bound. -/
theorem Changes.abs_weightOf_sub_le {fed : List α} (h : r₀.Changes fed r)
    (hwf : r₀.sketch.WellFormed) (hordered : r₀.sketch.Ordered) (x : α)
    (hempty : r₀.sketch.weightOf (less · x) = 0) :
    |(r.sketch.weightOf (less · x) : ℤ) - fed.countP (less · x)| ≤ r.errorBound := by
  induction h with
  | start => simp [hempty]
  | moved _ backing hsketch _ hcompactions ih =>
    rw [hsketch, errorBound, hcompactions]
    exact ih
  | grown changes _ _ hsketch _ hcompactions ih =>
    obtain ⟨slack, runs, hrepresents, -⟩ := changes.ordered hwf hordered
    rw [hsketch, Sketch.weightOf_grown _ hrepresents, errorBound, hcompactions]
    exact ih
  | @compacted fed r r' free here above lower upper changes hshape htwo hcompact _ hcompactions
      ih =>
    have hstep := Sketch.abs_weightOf_compacted_sub_le (changes.ordered hwf hordered) hshape htwo
      hcompact x
    have hbound : (r'.errorBound : ℤ) = 2 ^ lower.length + r.errorBound := by
      simp [errorBound, hcompactions, add_comm]
    calc |(r'.sketch.weightOf (less · x) : ℤ) - fed.countP (less · x)|
        ≤ |(r'.sketch.weightOf (less · x) : ℤ) - r.sketch.weightOf (less · x)| +
            |(r.sketch.weightOf (less · x) : ℤ) - fed.countP (less · x)| := abs_sub_le _ _ _
      _ ≤ 2 ^ lower.length + r.errorBound := add_le_add hstep ih
      _ = r'.errorBound := hbound.symm
  | @inserted fed y r r' changes hnumber hinsert _ hcompactions ih =>
    obtain ⟨slack, runs, hrepresents, -⟩ := changes.ordered hwf hordered
    obtain ⟨slack', _, here, upper, rfl, rfl, hsketch, -⟩ :=
      (changes.wellFormed hwf).exists_inserted hrepresents hinsert
    rw [hsketch, Sketch.weightOf_inserted _ hrepresents, List.countP_append, errorBound,
      hcompactions, Nat.cast_add, Nat.cast_add, add_sub_add_right_eq_sub]
    exact ih

/-- The estimate of a rank is wrong by at most the sum of the weights of the levels that were
compacted in the run, for every item `x`, every run of a sketch that was constructed and every
coin. -/
theorem Run.rank_error_le {s : Sketch α} {coin : γ} {taken : List (Command α)}
    (hs : s.Constructed) (hrun : (begin s coin).Run taken r) (x : α) :
    |(r.sketch.weightOf (less · x) : ℤ) - (Command.accepted taken).countP (less · x)| ≤
      r.errorBound :=
  (hrun.changes hs.wellFormed).abs_weightOf_sub_le hs.wellFormed hs.ordered x
    (hs.weightOf_eq_zero _)

/-- Fourteen items in a sketch with four slots at first: after three compactions of level 0 the next
one is of level 1. -/
theorem rank_error_le_of_fourteen_items :
    ∃ (commands : List (Command Int32)) (r : Session Xorshift Int32),
      commands = [5, 7, 6, 8, 1, 2, 4, 3, 9, 10, 11, 12, 13, 14].map .update ∧
      (begin (Sketch.empty 4 2) (Xorshift.ofSeed 1)).Run commands r ∧
      r.compactions = [0, 0, 0, 1] ∧
      |(r.sketch.weightOf (less · 6) : ℤ) - (Command.accepted commands).countP (less · 6)| ≤
        r.errorBound := by
  have hcompactions : (performAll
      ([5, 7, 6, 8, 1, 2, 4, 3, 9, 10, 11, 12, 13, 14].map .update)
      (begin (Sketch.empty 4 2 : Sketch Int32) (Xorshift.ofSeed 1))).map compactions =
        some [0, 0, 0, 1] := by decide +kernel
  obtain ⟨r, hr, hcompactions⟩ := Option.map_eq_some_iff.mp hcompactions
  have hmade : Sketch.withM 4 2 = .ok (Sketch.empty 4 2 : Sketch Int32) :=
    Sketch.withM_eq_ok_iff.mpr ⟨by decide, rfl⟩
  have hrun := run_of_performAll hr
  exact ⟨_, r, rfl, hrun, hcompactions, Run.rank_error_le (.withM hmade) hrun 6⟩

end Session

end QuantileSketch
