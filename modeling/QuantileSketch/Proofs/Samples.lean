import QuantileSketch.Item.Float
import QuantileSketch.Proofs.Progress
import QuantileSketch.Proofs.Reachable

/-!
# Samples of a stream

What a sketch holds are items of the stream, none of them more often than it came
(`Changes.retained_subperm`). An insertion adds the item that has come, growth keeps all items, and
a compaction drops half of some pairs of items and keeps the others, in whatever slots they end up.
The extremes are found among the items that have come, too (`Changes.knowsExtremes`).

`Run.retained_subperm_accepted` says both of all runs of a constructed sketch. For the levels above
level 0 `Run.isSorted_levelItems` adds that they are sorted after every run that begins with a
constructed sketch or with an image whose levels are so.
-/

namespace QuantileSketch

open Item

variable {α : Type} [Item α]

/-! ### Extremes -/

namespace Extremes

/-- The extremes of some items: they are among them, and no other one lies outside. -/
structure Bounds (e : Extremes α) (xs : List α) : Prop where
  least_mem : e.least ∈ xs
  greatest_mem : e.greatest ∈ xs
  not_less_least : ∀ x ∈ xs, less x e.least = false
  not_greatest_less : ∀ x ∈ xs, less e.greatest x = false

/-- The first item is both extremes. -/
lemma bounds_insert_none (x : α) : (insert x none).Bounds [x] where
  least_mem := List.mem_singleton_self x
  greatest_mem := List.mem_singleton_self x
  not_less_least := List.forall_mem_singleton.mpr (less_irrefl x)
  not_greatest_less := List.forall_mem_singleton.mpr (less_irrefl x)

/-- Another number replaces an extreme if it lies outside. -/
lemma Bounds.insert {e : Extremes α} {xs : List α} {x : α} (h : e.Bounds xs)
    (hxs : AllNumbers xs) (hx : isNaN x = false) :
    (Extremes.insert x (some e)).Bounds (xs ++ [x]) := by
  have hleast : isNaN e.least = false := hxs _ h.least_mem
  have hgreatest : isNaN e.greatest = false := hxs _ h.greatest_mem
  constructor
  · change (if less x e.least then x else e.least) ∈ _
    split
    · exact List.mem_append_right xs (List.mem_singleton_self x)
    · exact List.mem_append_left [x] h.least_mem
  · change (if less e.greatest x then x else e.greatest) ∈ _
    split
    · exact List.mem_append_right xs (List.mem_singleton_self x)
    · exact List.mem_append_left [x] h.greatest_mem
  · change ∀ y ∈ _, less y (if less x e.least then x else e.least) = false
    rw [List.forall_mem_append, List.forall_mem_singleton]
    split
    · rename_i hless
      refine ⟨?_, less_irrefl x⟩
      intro y hy
      exact not_less_trans hx hleast (hxs y hy) (less_asymm hx hleast hless) (h.not_less_least y hy)
    · rename_i hless
      exact ⟨h.not_less_least, Bool.eq_false_iff.mpr hless⟩
  · change ∀ y ∈ _, less (if less e.greatest x then x else e.greatest) y = false
    rw [List.forall_mem_append, List.forall_mem_singleton]
    split
    · rename_i hless
      refine ⟨?_, less_irrefl x⟩
      intro y hy
      exact not_less_trans (hxs y hy) hgreatest hx (h.not_greatest_less y hy)
        (less_asymm hgreatest hx hless)
    · rename_i hless
      exact ⟨h.not_greatest_less, Bool.eq_false_iff.mpr hless⟩

end Extremes

namespace Sketch

/-- A sketch that knows the extremes of some items, or that there are none. -/
def KnowsExtremes (xs : List α) (s : Sketch α) : Prop :=
  match s.extremes with
  | none => xs = []
  | some e => e.Bounds xs

/-- After an insertion a sketch knows the extremes of one more item. -/
lemma KnowsExtremes.inserted {s : Sketch α} {xs : List α} {x : α} (h : s.KnowsExtremes xs)
    (hxs : AllNumbers xs) (hx : isNaN x = false) : (s.inserted x).KnowsExtremes (xs ++ [x]) := by
  unfold KnowsExtremes at h
  change (Extremes.insert x s.extremes).Bounds (xs ++ [x])
  split at h
  · rename_i hnone
    rw [hnone, h]
    exact Extremes.bounds_insert_none x
  · rename_i e hsome
    rw [hsome]
    exact h.insert hxs hx

/-! ### Items -/

/-- A compaction keeps only items that were there, none of them more often than it was there. -/
lemma flatten_compacted_subperm (bit : Bool) {lower upper : List (List α)}
    {here above pairs : List α} {odd : ℕ} (hperm : pairs.Perm (here.drop odd)) :
    (lower ++ here.take odd :: promoted bit pairs above :: upper).flatten.Subperm
      (lower ++ here :: above :: upper).flatten := by
  have hkept : (alternate (keepsSecond bit above) pairs).Subperm (here.drop odd) :=
    (alternate_sublist _ pairs).subperm.trans hperm.subperm
  have hpromoted : (promoted bit pairs above).Subperm (here.drop odd ++ above) :=
    (Slots.mergedRun_perm _ above).subperm.trans (hkept.append (List.Subperm.refl above))
  have hlevels : (here.take odd ++ promoted bit pairs above).Subperm (here ++ above) := by
    have hsplit : here ++ above = here.take odd ++ (here.drop odd ++ above) := by
      rw [← List.append_assoc, List.take_append_drop]
    rw [hsplit]
    exact (List.Subperm.refl _).append hpromoted
  simp only [List.flatten_append, List.flatten_cons]
  rw [← List.append_assoc (here.take odd), ← List.append_assoc here]
  exact (List.Subperm.refl _).append (hlevels.append (List.Subperm.refl _))

/-! ### Levels -/

/-- A sketch whose levels above level 0 are sorted. -/
def LevelsSorted (s : Sketch α) : Prop :=
  ∀ level, 1 ≤ level → level < s.numLevels → IsSorted (s.levelItems level).toList

/-- The levels of a sketch of numbers are sorted if the lists of their items are. -/
lemma Represents.orderedRuns_iff {s : Sketch α} {slack : List α} {runs : List (List α)}
    (h : s.Represents slack runs) : OrderedRuns runs ↔ s.HoldsNumbers ∧ s.LevelsSorted := by
  have hlevel (level : ℕ) (hlt : level < runs.length) :
      (s.levelItems level).toList = runs[level] := by
    rw [h.levelItems_eq, List.getD_eq_getElem?_getD, List.getElem?_eq_getElem hlt, Option.getD_some]
  rw [h.holdsNumbers_iff]
  constructor
  · rintro ⟨hnumbers, hsorted⟩
    refine ⟨hnumbers, ?_⟩
    intro level hpos hlt
    obtain ⟨level, rfl⟩ := Nat.exists_eq_add_one_of_ne_zero (Nat.one_le_iff_ne_zero.mp hpos)
    rw [h.numLevels_eq] at hlt
    have htail : level < runs.tail.length := by
      rw [List.length_tail]
      omega
    rw [hlevel _ hlt, ← List.getElem_tail htail]
    exact hsorted _ (List.getElem_mem htail)
  · rintro ⟨hnumbers, hsorted⟩
    refine ⟨hnumbers, ?_⟩
    intro run hrun
    obtain ⟨i, hi, rfl⟩ := List.mem_iff_getElem.mp hrun
    have hlt : i + 1 < runs.length := by
      rw [List.length_tail] at hi
      omega
    have hrun := hsorted (i + 1) (Nat.le_add_left 1 i) (h.numLevels_eq ▸ hlt)
    rw [hlevel _ hlt] at hrun
    rw [List.getElem_tail]
    exact hrun

/-- The levels of a well-formed sketch, in terms of what can be seen of it. -/
theorem WellFormed.ordered_iff {s : Sketch α} (h : s.WellFormed) :
    s.Ordered ↔ s.HoldsNumbers ∧ s.LevelsSorted := by
  obtain ⟨free, populations, hs⟩ := h
  obtain ⟨slack, runs, hrepresents, -, -⟩ := hs.exists_represents
  constructor
  · rintro ⟨slack', runs', hrepresents', hordered⟩
    exact hrepresents'.orderedRuns_iff.mp hordered
  · intro h
    exact ⟨slack, runs, hrepresents, hrepresents.orderedRuns_iff.mpr h⟩

end Sketch

namespace Session

variable {γ : Type} [Coin γ] {r₀ r : Session γ α} {fed seen : List α}

namespace Changes

/-- Only numbers are inserted. -/
lemma allNumbers (h : r₀.Changes fed r) : AllNumbers fed := by
  induction h with
  | start => exact allNumbers_nil
  | moved _ _ _ _ _ ih => exact ih
  | grown _ _ _ _ _ _ ih => exact ih
  | compacted _ _ _ _ _ _ ih => exact ih
  | inserted _ hnumber _ _ _ ih =>
    exact allNumbers_append.mpr ⟨ih, List.forall_mem_singleton.mpr hnumber⟩

/-- Elementary changes neither make up an item nor double one, whether or not the items are
numbers. -/
theorem retained_subperm (h : r₀.Changes fed r) (hwf : r₀.sketch.WellFormed) :
    r.sketch.retained.toList.Subperm (r₀.sketch.retained.toList ++ fed) := by
  induction h with
  | start =>
    rw [List.append_nil]
  | moved _ backing hsketch _ _ ih =>
    rw [hsketch]
    exact ih
  | grown changes _ _ hsketch _ _ ih =>
    rw [hsketch, (changes.wellFormed hwf).retained_grown]
    exact ih
  | compacted _ hshape htwo hcompact _ _ ih =>
    obtain ⟨slack, runs, hrepresents, -, -⟩ := hshape.exists_represents
    obtain ⟨_, _, _, _, _, _, rfl, -, -, hrepresents', -, hperm⟩ :=
      hshape.exists_compacted hrepresents htwo hcompact
    rw [hrepresents.toList_retained] at ih
    rw [hrepresents'.toList_retained]
    exact (Sketch.flatten_compacted_subperm _ hperm).trans ih
  | @inserted fed x r r' changes _ hinsert _ _ ih =>
    rw [(changes.wellFormed hwf).retained_insert hinsert, Array.toList_append, ← List.append_assoc]
    exact ((List.subperm_cons x).mpr ih).trans (List.perm_append_singleton x _).symm.subperm

/-- Elementary changes keep the extremes of all items that have come. -/
theorem knowsExtremes (h : r₀.Changes fed r) (hseen : AllNumbers seen)
    (h₀ : r₀.sketch.KnowsExtremes seen) : r.sketch.KnowsExtremes (seen ++ fed) := by
  induction h with
  | start =>
    rw [List.append_nil]
    exact h₀
  | moved _ backing hsketch _ _ ih =>
    rw [hsketch]
    exact ih
  | grown _ _ _ hsketch _ _ ih =>
    rw [hsketch]
    exact ih
  | compacted _ _ _ hcompact _ _ ih =>
    obtain ⟨levels, items, hsketch⟩ := Sketch.compact_eq hcompact
    rw [hsketch]
    exact ih
  | inserted changes hnumber hinsert _ _ ih =>
    obtain ⟨-, -, -, -, hsketch⟩ := Sketch.insert_eq_ok_iff.mp hinsert
    rw [← hsketch, ← List.append_assoc]
    exact ih.inserted (allNumbers_append.mpr ⟨hseen, changes.allNumbers⟩) hnumber

end Changes

/-! ### Runs -/

variable {s : Sketch α} {coin : γ} {taken : List (Command α)}

/-- After every run of a constructed sketch, whatever the coin shows, the items in the sketch are
items that were accepted, none of them more often than it was, the length of the stream is the
number of accepted items, and unless there are none the least and the greatest item are accepted
items that no accepted item stands before or behind. -/
theorem Run.retained_subperm_accepted (hs : s.Constructed)
    (hrun : (begin s coin).Run taken r) :
    r.sketch.retained.toList.Subperm (Command.accepted taken) ∧
      r.sketch.n = (Command.accepted taken).length ∧
      (0 < r.sketch.n → ∃ least greatest, r.sketch.least? = some least ∧
        r.sketch.greatest? = some greatest ∧ least ∈ Command.accepted taken ∧
        greatest ∈ Command.accepted taken ∧
        ∀ x ∈ Command.accepted taken, less x least = false ∧ less greatest x = false) := by
  have hchanges := hrun.changes hs.wellFormed
  obtain ⟨k, m, backing, -, heq⟩ := hs.exists_eq
  have hempty : s.retained.toList = [] := by
    rw [heq]
    exact ((Sketch.empty_represents k m).congr rfl rfl).toList_retained
  have hnone : s.KnowsExtremes [] := by
    rw [heq]
    rfl
  have hretained := hchanges.retained_subperm hs.wellFormed
  have hextremes := hchanges.knowsExtremes allNumbers_nil hnone
  rw [begin, hempty, List.nil_append] at hretained
  rw [List.nil_append, Sketch.KnowsExtremes] at hextremes
  refine ⟨hretained, hrun.n_eq hs, ?_⟩
  intro hpos
  split at hextremes
  · rw [hrun.n_eq hs, hextremes] at hpos
    exact absurd hpos (Nat.lt_irrefl 0)
  · rename_i e hsome
    refine ⟨e.least, e.greatest, ?_, ?_, hextremes.least_mem, hextremes.greatest_mem, ?_⟩
    · rw [Sketch.least?, hsome, Option.map_some]
    · rw [Sketch.greatest?, hsome, Option.map_some]
    · intro x hx
      exact ⟨hextremes.not_less_least x hx, hextremes.not_greatest_less x hx⟩

/-- Three numbers and one that is none in two slots. The third number needs a compaction of level 0,
which drops one of the first two. -/
theorem retained_subperm_of_three_numbers :
    ∃ r : Session Xorshift Binary64,
      (begin (Sketch.empty 2 2) (Xorshift.ofSeed 1)).Run [.update (.ofInt 5), .update Item.filler,
        .update (.ofInt 7), .update (.ofInt 6)] r ∧
      r.sketch.n = 3 ∧ r.sketch.numRetained = 2 ∧
      r.sketch.retained.toList.Subperm [.ofInt 5, .ofInt 7, .ofInt 6] ∧
      ∃ least ∈ [Binary64.ofInt 5, .ofInt 7, .ofInt 6], r.sketch.least? = some least := by
  let commands : List (Command Binary64) := [.update (.ofInt 5), .update Item.filler,
    .update (.ofInt 7), .update (.ofInt 6)]
  have hstate : (performAll commands
      (begin (Sketch.empty 2 2 : Sketch Binary64) (Xorshift.ofSeed 1))).map
        (fun r => (r.sketch.n, r.sketch.numRetained)) = some (3, 2) := by decide +kernel
  obtain ⟨r, hr, hstate⟩ := Option.map_eq_some_iff.mp hstate
  obtain ⟨hn, hretained⟩ := Prod.mk.inj hstate
  have hmade : Sketch.withM 2 2 = .ok (Sketch.empty 2 2 : Sketch Binary64) :=
    Sketch.withM_eq_ok_iff.mpr ⟨by decide, rfl⟩
  have hrun := run_of_performAll hr
  have haccepted : Command.accepted commands = [.ofInt 5, .ofInt 7, .ofInt 6] := by decide +kernel
  obtain ⟨hsubperm, -, hextremes⟩ := Run.retained_subperm_accepted (.withM hmade) hrun
  obtain ⟨least, -, hleast, -, hmem, -, -⟩ := hextremes (hn ▸ Nat.succ_pos 2)
  rw [haccepted] at hsubperm hmem
  exact ⟨r, hrun, hn, hretained, hsubperm, least, hmem, hleast⟩

/-- After every run of a sketch that was constructed, or opened from an image of numbers whose
levels above level 0 are sorted, the levels above level 0 are sorted, whatever the coin shows. -/
theorem Run.isSorted_levelItems
    (hs : s.Constructed ∨ s.Opened ∧ s.HoldsNumbers ∧ s.LevelsSorted)
    (hrun : (begin s coin).Run taken r) {level : ℕ} (hpos : 1 ≤ level)
    (hlevel : level < r.sketch.numLevels) : IsSorted (r.sketch.levelItems level).toList := by
  have hstart : s.WellFormed ∧ s.Ordered := by
    rcases hs with hs | ⟨hs, hsorted⟩
    · exact ⟨hs.wellFormed, hs.ordered⟩
    · exact ⟨hs.wellFormed, hs.wellFormed.ordered_iff.mpr hsorted⟩
  obtain ⟨hwf, hordered⟩ := hstart
  have hchanges := hrun.changes hwf
  obtain ⟨-, hsorted⟩ := (hchanges.wellFormed hwf).ordered_iff.mp (hchanges.ordered hwf hordered)
  exact hsorted level hpos hlevel

/-- An image with two items in each of two full levels, level 0 out of order. Another item needs a
compaction, after which level 1 has three items. -/
theorem isSorted_levelItems_of_full_image :
    ∃ (s : Sketch Int32) (r : Session Xorshift Int32),
      s.Opened ∧ s.levelItems 0 = #[7, 5] ∧ s.levelItems 1 = #[6, 9] ∧
        (begin s (Xorshift.ofSeed 1)).Run [.update 8] r ∧ (r.sketch.levelItems 1).size = 3 ∧
        IsSorted (r.sketch.levelItems 1).toList := by
  have hstate : ((Sketch.read #[5, 3, 15, 0, 2, 0, 2, 0, 6, 0, 0, 0, 0, 0, 0, 0, 2, 0, 2, 0,
      0, 0, 0, 0, 2, 0, 0, 0, 4, 0, 0, 0, 5, 0, 0, 0, 9, 0, 0, 0, 7, 0, 0, 0, 5, 0, 0, 0,
      6, 0, 0, 0, 9, 0, 0, 0]).toOption.bind fun s : Sketch Int32 =>
        (performAll [.update 8] (begin s (Xorshift.ofSeed 1))).map fun r => (s, r)).map
          (fun (s, r) => (s.retained.toList.any isNaN, s.numLevels, s.levelItems 0, s.levelItems 1,
            r.sketch.numLevels, (r.sketch.levelItems 1).size)) =
              some (false, 2, #[7, 5], #[6, 9], 2, 3) := by decide +kernel
  obtain ⟨⟨s, r⟩, hpair, hstate⟩ := Option.map_eq_some_iff.mp hstate
  obtain ⟨s', hs, hpair⟩ := Option.bind_eq_some_iff.mp hpair
  obtain ⟨r', hr, hpair⟩ := Option.map_eq_some_iff.mp hpair
  obtain ⟨rfl, rfl⟩ := Prod.mk.inj hpair
  simp only [Prod.mk.injEq] at hstate
  obtain ⟨hnan, hlevels, hzero, hone, hlevels', hsize⟩ := hstate
  have hopened : s'.Opened := .read (toOption_eq_some_iff.mp hs)
  have hnumbers : s'.HoldsNumbers := fun x hx => by simpa using List.any_eq_false.mp hnan x hx
  have hsorted : s'.LevelsSorted := by
    intro level hpos hlt
    obtain rfl : level = 1 := by omega
    rw [hone, IsSorted]
    decide
  have hrun := run_of_performAll hr
  have hlevel := hrun.isSorted_levelItems (.inr ⟨hopened, hnumbers, hsorted⟩) (Nat.le_refl 1)
    (hlevels' ▸ Nat.lt_succ_self 1)
  exact ⟨s', r', hopened, hzero, hone, hrun, hsize, hlevel⟩

end Session

end QuantileSketch
