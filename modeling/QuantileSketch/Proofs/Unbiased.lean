import QuantileSketch.Item.Integer
import QuantileSketch.Proofs.Constructed

/-!
# Compactions are unbiased

The bit of the coin chooses which item of each pair survives a compaction. With the opposite bit the
other items survive, whether the level above has items or not (`keepsSecond_not`). As many survive
either way, so that the two sketches that a compaction can lead to have the same boundaries, and
each item of the pairs counts twice in one of them and not at all in the other. On the average over
the two bits no weight moves, whatever items are counted (`HasShape.exists_compact_not`).

`Session.weightOf_add_weightOf_of_compress` says this of freeing slots. It needs neither sorted
levels nor numbers.
-/

namespace QuantileSketch

variable {γ α : Type}

/-! ### One compaction -/

namespace Sketch

/-- With the opposite bit the opposite items are kept. -/
lemma keepsSecond_not (bit : Bool) (above : List α) :
    keepsSecond (!bit) above = !keepsSecond bit above := by
  unfold keepsSecond
  split <;> rfl

variable [Item α]

/-- A compaction that succeeds does so with the opposite bit, too. The boundaries come out the same,
and the weights of the items with any property are those before the compaction on the average. -/
theorem HasShape.exists_compact_not {s s₀ : Sketch α} {free here above : ℕ} {lower upper : List ℕ}
    {bit : Bool} (hs : s.HasShape free (lower ++ here :: above :: upper)) (hhere : 2 ≤ here)
    (h : s.compact (spanAt free lower here above) bit = .ok s₀) :
    ∃ s₁, s.compact (spanAt free lower here above) (!bit) = .ok s₁ ∧ s₁.levels = s₀.levels ∧
      ∀ p, s₀.weightOf p + s₁.weightOf p = 2 * s.weightOf p := by
  obtain ⟨slack, runs, hrepresents, -, -⟩ := hs.exists_represents
  obtain ⟨lower', upper', here', above', pairs, rfl, rfl, rfl, rfl, rfl, hpairs, hperm⟩ :=
    hs.exists_orderedPairs hrepresents h
  obtain ⟨levels₀, items₀, slack₀, -, h₀, hrepresents₀⟩ :=
    compact_represents bit hrepresents hs.size_lt hhere hpairs hperm.length_eq
  obtain ⟨levels₁, items₁, slack₁, -, h₁, hrepresents₁⟩ :=
    compact_represents (!bit) hrepresents hs.size_lt hhere hpairs hperm.length_eq
  rw [h, Except.ok.injEq] at h₀
  rw [← h₀] at hrepresents₀
  refine ⟨_, h₁, (hs.compacted h₁).levels_eq.trans (hs.compacted h).levels_eq.symm, ?_⟩
  intro p
  have heven : pairs.length % 2 = 0 := by
    rw [hperm.length_eq, List.length_drop]
    omega
  have hboth := countP_alternate_add p (keepsSecond bit above') heven
  have hweight₀ := weightOf_compacted hrepresents hrepresents₀ hperm p
  have hweight₁ := weightOf_compacted hrepresents hrepresents₁ hperm p
  rw [keepsSecond_not] at hweight₁
  zify at hboth ⊢
  rw [hweight₀, hweight₁, ← hboth]
  ring

end Sketch

/-! ### The session -/

namespace Session

variable {r r' : Session γ α}

/-- A reservation does not look at the coin. -/
lemma reserve_setCoin {required : ℕ} (coin : γ) (h : r.reserve required = .done r') :
    reserve required { r with coin } = .done { r' with coin } := by
  unfold reserve at h ⊢
  dsimp only at h ⊢
  split
  · rename_i hb
    rw [hb] at h
    cases h
    rfl
  rename_i b hb
  rw [hb] at h
  dsimp only at h
  split
  · rename_i hroom
    rw [if_pos hroom] at h
    cases h
    rfl
  rename_i hshort
  rw [if_neg hshort] at h
  split
  · rename_i hrequest
    rw [hrequest] at h
    cases h
  · rename_i hrequest
    rw [hrequest] at h
    cases h
  · rename_i region hrequest
    rw [hrequest] at h
    obtain ⟨hinstall, -, hlog⟩ := change_eq_done_iff.mp h
    exact change_eq_done_iff.mpr ⟨hinstall, rfl, hlog⟩

variable [Item α]

/-- Growth moves no weight. -/
lemma weightOf_grow (hwf : r.sketch.WellFormed) (h : r.grow = .done r') (p : α → Bool) :
    r'.sketch.weightOf p = r.sketch.weightOf p := by
  obtain ⟨free, populations, hs⟩ := hwf
  obtain ⟨slack, runs, hrepresents, -, -⟩ := hs.exists_represents
  rw [grow_sketch_eq hs h]
  exact Sketch.weightOf_grown r.growth hrepresents p

/-- Growth does not look at the coin. -/
lemma grow_setCoin (coin : γ) (h : r.grow = .done r') :
    grow { r with coin } = .done { r' with coin } := by
  obtain ⟨hfree, hsize, hlevels, delta, grown, reserved, hgrown, hreserve, hsync, -, hlog⟩ :=
    grow_eq_done_iff.mp h
  exact grow_eq_done_iff.mpr ⟨hfree, hsize, hlevels, delta, grown, _, hgrown,
    reserve_setCoin coin hreserve, hsync, rfl, hlog⟩

variable [Coin γ]

/-- A compaction is done if that of the sketch succeeds. -/
lemma exists_compact_eq_done {level : ℕ} {span : Span} {s : Sketch α}
    (hspan : r.sketch.span level = .ok span)
    (h : r.sketch.compact span (Coin.toss r.coin).1 = .ok s) :
    ∃ r', r.compact level = .done r' ∧ r'.sketch = s := by
  unfold compact
  rw [hspan]
  exact ⟨⟨s, _, _⟩, change_eq_done_iff.mpr ⟨h, rfl, rfl⟩, rfl⟩

/-- If slots of a full sketch can be freed with one bit, they can with the opposite one. Both
sketches have the same levels, and the weights of the items that have any property, such as to stand
before some item, add up to twice the weight from before. -/
theorem weightOf_add_weightOf_of_compress (hwf : r.sketch.WellFormed) (hfull : r.sketch.free = 0)
    (h : r.compress = .done r') {coin : γ} (hbit : (Coin.toss coin).1 = !(Coin.toss r.coin).1) :
    ∃ q' : Session γ α, compress { r with coin } = .done q' ∧
      q'.sketch.levels = r'.sketch.levels ∧ q'.sketch.numLevels = r'.sketch.numLevels ∧
      ∀ p, r'.sketch.weightOf p + q'.sketch.weightOf p = 2 * r.sketch.weightOf p := by
  obtain ⟨free, populations, hs⟩ := hwf
  replace hs := hs.of_free_eq_zero hfull
  obtain ⟨between, free, lower, here, above, upper, hlevel, hbetween, hshape, htwo, hcompact⟩ :=
    exists_compacted_level hs h
  obtain ⟨hsketch, -, -⟩ := compact_shape hshape hcompact
  have hkept : between.coin = r.coin ∧
      ∀ p, between.sketch.weightOf p = r.sketch.weightOf p := by
    split at hbetween
    · obtain ⟨-, -, _, _, -, -, -, hcoin, -⟩ := grow_eq_done hbetween
      exact ⟨hcoin, weightOf_grow ⟨_, _, hs⟩ hbetween⟩
    · rw [hbetween]
      exact ⟨rfl, fun _ => rfl⟩
  have hbetween' : if lower.length + 1 = r.sketch.numLevels
      then grow { r with coin } = .done { between with coin }
      else ({ between with coin } : Session γ α) = { r with coin } := by
    split
    · rename_i htop
      rw [if_pos htop] at hbetween
      exact grow_setCoin coin hbetween
    · rename_i htop
      rw [if_neg htop] at hbetween
      rw [hbetween]
  obtain ⟨s₁, hsketch₁, hlevels, hweight⟩ := hshape.exists_compact_not htwo hsketch
  rw [hkept.1, ← hbit] at hsketch₁
  obtain ⟨q', hcompact', rfl⟩ := exists_compact_eq_done (r := { between with coin })
    (Sketch.span_eq_ok hshape.levels_eq) hsketch₁
  refine ⟨q', compress_eq_done_iff.mpr ⟨_, _, hlevel, hbetween', hcompact'⟩, hlevels, ?_, ?_⟩
  · rw [Sketch.numLevels, Sketch.numLevels, hlevels]
  · intro p
    rw [hweight, hkept.2]

/-- Three items in the three slots of level 0. The two coins keep different items of the pair. -/
theorem weightOf_add_weightOf_of_compress_three_items :
    ∃ r r' q' : Session Xorshift Int32, r.sketch.levelItems 0 = #[6, 5, 7] ∧
      r.compress = .done r' ∧ r'.sketch.levelItems 1 = #[5] ∧
      compress { r with coin := Xorshift.ofSeed 2 } = .done q' ∧ q'.sketch.levelItems 1 = #[7] ∧
      r'.sketch.weightOf (Item.less · 6) + q'.sketch.weightOf (Item.less · 6) =
        2 * r.sketch.weightOf (Item.less · 6) := by
  have hstate : ((performAll [.update 7, .update 5, .update 6]
      (begin (Sketch.empty 3 2 : Sketch Int32) (Xorshift.ofSeed 1))).bind fun r =>
        r.compress.done?.bind fun r' =>
          (compress { r with coin := Xorshift.ofSeed 2 }).done?.map fun q' =>
            (r.sketch.free, (Coin.toss r.coin).1, r.sketch.levelItems 0, r'.sketch.levelItems 1,
              q'.sketch.levelItems 1)) = some (0, true, #[6, 5, 7], #[5], #[7]) := by
    decide +kernel
  obtain ⟨r, hr, hstate⟩ := Option.bind_eq_some_iff.mp hstate
  obtain ⟨r', hr', hstate⟩ := Option.bind_eq_some_iff.mp hstate
  obtain ⟨q', hq', hstate⟩ := Option.map_eq_some_iff.mp hstate
  simp only [Prod.mk.injEq] at hstate
  obtain ⟨hfree, htoss, hitems, hkept, hkept'⟩ := hstate
  have hmade : Sketch.withM 3 2 = .ok (Sketch.empty 3 2 : Sketch Int32) :=
    Sketch.withM_eq_ok_iff.mpr ⟨by decide, rfl⟩
  have hwf : r.sketch.WellFormed :=
    (run_of_performAll hr).wellFormed (Sketch.Constructed.withM hmade).wellFormed
  have hcompress := Outcome.done?_eq_some_iff.mp hr'
  have hcompress' := Outcome.done?_eq_some_iff.mp hq'
  have hbit : (Coin.toss (Xorshift.ofSeed 2)).1 = !(Coin.toss r.coin).1 := by
    rw [htoss]
    decide
  obtain ⟨q, hq, -, -, hweight⟩ := weightOf_add_weightOf_of_compress hwf hfree hcompress hbit
  rw [hcompress', Outcome.done.injEq] at hq
  rw [← hq] at hweight
  exact ⟨r, r', q', hitems, hcompress, hkept, hcompress', hkept', hweight _⟩

end Session

end QuantileSketch
