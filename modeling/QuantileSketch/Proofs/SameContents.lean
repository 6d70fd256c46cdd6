import QuantileSketch.Proofs.Progress
import QuantileSketch.Proofs.SameShape

/-!
# Sketches with the same contents

Two sketches have the same contents if they are the same but for what is in their free slots. No
change ever looks into a free slot: an insertion writes to one, growth puts others below them, and a
compaction moves the items of the levels only. So insertions, growth and compactions with the same
bit keep the contents the same (`SameContents.insert`, `SameContents.grown`,
`SameContents.compact`), and the compact images are the same (`SameContents.compactImage_eq`).
-/

namespace QuantileSketch

/-- Extremes that may be absent are the same if both items are. -/
lemma Extremes.option_ext {α : Type} {e e' : Option (Extremes α)}
    (hleast : e.map (·.least) = e'.map (·.least))
    (hgreatest : e.map (·.greatest) = e'.map (·.greatest)) : e = e' := by
  rcases e with _ | ⟨least, greatest⟩ <;> rcases e' with _ | ⟨least', greatest'⟩ <;> simp_all

namespace Sketch

variable {α : Type}

/-- Two sketches of which everything is the same but for what is in their free slots, whether they
may change, and their regions. The boundaries tell the number of levels. -/
structure SameContents (s t : Sketch α) : Prop where
  k_eq : s.k = t.k
  m_eq : s.m = t.m
  minK_eq : s.minK = t.minK
  n_eq : s.n = t.n
  numLevels_eq : s.numLevels = t.numLevels
  levels_eq : s.levels = t.levels
  retained_eq : s.retained = t.retained
  least?_eq : s.least? = t.least?
  greatest?_eq : s.greatest? = t.greatest?
  levelZeroSorted_eq : s.levelZeroSorted = t.levelZeroSorted

/-- Sketches of the same shape in which the other fields are the same. -/
lemma SameShape.sameContents {s t : Sketch α} (h : s.SameShape t) (hminK : s.minK = t.minK)
    (hretained : s.retained = t.retained) (hextremes : s.extremes = t.extremes)
    (hsorted : s.levelZeroSorted = t.levelZeroSorted) : s.SameContents t :=
  ⟨h.k_eq, h.m_eq, hminK, h.n_eq, h.numLevels_eq, h.levels_eq, hretained,
    congrArg (Option.map _) hextremes, congrArg (Option.map _) hextremes, hsorted⟩

namespace SameContents

variable {s s' t t' : Sketch α}

/-- Sketches with the same contents have the same shape. -/
lemma sameShape (h : s.SameContents t) : s.SameShape t := ⟨h.k_eq, h.m_eq, h.n_eq, h.levels_eq⟩

/-- The extremes are the same. -/
lemma extremes_eq (h : s.SameContents t) : s.extremes = t.extremes :=
  Extremes.option_ext h.least?_eq h.greatest?_eq

/-- The contents do not depend on the regions. -/
lemma setBacking (h : s.SameContents t) (backing backing' : Option Backing) :
    SameContents { s with backing } { t with backing := backing' } :=
  ⟨h.k_eq, h.m_eq, h.minK_eq, h.n_eq, h.numLevels_eq, h.levels_eq, h.retained_eq, h.least?_eq,
    h.greatest?_eq, h.levelZeroSorted_eq⟩

/-- The items of the levels are the same. -/
lemma exists_represents {slack : List α} {runs : List (List α)} (h : s.SameContents t)
    (hs : s.WellFormed) (ht : t.Represents slack runs) :
    ∃ slack', slack'.length = slack.length ∧ s.Represents slack' runs := by
  obtain ⟨free, populations, hs⟩ := hs
  obtain ⟨slack', runs', hs, -, -⟩ := hs.exists_represents
  obtain ⟨hfree, hlengths⟩ :=
    boundaries_inj.mp (hs.levels_eq.symm.trans (h.levels_eq.trans ht.levels_eq))
  have hitems : runs'.flatten = runs.flatten := by
    rw [← hs.toList_retained, ← ht.toList_retained, h.retained_eq]
  obtain rfl : runs' = runs := List.eq_iff_flatten_eq.mpr ⟨hitems, hlengths⟩
  exact ⟨slack', hfree, hs⟩

/-- The headers are the same. -/
lemma header_eq (h : s.SameContents t) (words version : ℕ) :
    s.header words version = t.header words version := by
  rw [header, header, flags, flags, isEmpty, isEmpty, h.n_eq, h.levelZeroSorted_eq, h.k_eq, h.m_eq]

variable [Item α]

/-- If one of the sketches has sorted levels so has the other one. -/
lemma ordered (h : s.SameContents t) (hs : s.WellFormed) (ht : t.Ordered) : s.Ordered := by
  obtain ⟨slack, runs, hrepresents, hordered⟩ := ht
  obtain ⟨slack', -, hrepresents'⟩ := h.exists_represents hs hrepresents
  exact ⟨slack', runs, hrepresents', hordered⟩

end SameContents

/-! ### Changes -/

variable {s s' t t' : Sketch α} [Item α]

namespace SameContents

/-- Insertions of an item keep the contents the same. -/
theorem insert {x : α} (h : s.SameContents t) (hs : s.WellFormed) (ht : t.WellFormed)
    (hs' : s.insert x = .ok s') (ht' : t.insert x = .ok t') : s'.SameContents t' := by
  have hretained : s'.retained = t'.retained := by
    rw [hs.retained_insert hs', ht.retained_insert ht', h.retained_eq]
  obtain ⟨-, -, -, -, rfl⟩ := insert_eq_ok_iff.mp hs'
  obtain ⟨-, -, -, -, rfl⟩ := insert_eq_ok_iff.mp ht'
  have hextremes : (s.inserted x).extremes = (t.inserted x).extremes := by
    rw [inserted, inserted, h.extremes_eq]
  exact (h.sameShape.inserted x x).sameContents h.minK_eq hretained hextremes rfl

/-- Growth by as many slots keeps the contents the same. -/
theorem grown (delta : ℕ) (h : s.SameContents t) (hs : s.WellFormed) (ht : t.WellFormed) :
    (s.grown delta).SameContents (t.grown delta) := by
  have hretained : (s.grown delta).retained = (t.grown delta).retained := by
    rw [hs.retained_grown, ht.retained_grown, h.retained_eq]
  exact (h.sameShape.grown delta).sameContents h.minK_eq hretained h.extremes_eq
    h.levelZeroSorted_eq

/-- Compactions of a level with the same bit keep the contents the same. -/
theorem compact {free here above : ℕ} {lower upper : List ℕ} {bit : Bool} (h : s.SameContents t)
    (hs : s.HasShape free (lower ++ here :: above :: upper))
    (ht : t.HasShape free (lower ++ here :: above :: upper)) (hhere : 2 ≤ here)
    (hnumbers : t.HoldsNumbers) (hs' : s.compact (spanAt free lower here above) bit = .ok s')
    (ht' : t.compact (spanAt free lower here above) bit = .ok t') : s'.SameContents t' := by
  obtain ⟨slack, runs, hrepresents, -, -⟩ := ht.exists_represents
  obtain ⟨slack', hfree, hrepresents'⟩ := h.exists_represents ⟨_, _, hs⟩ hrepresents
  obtain ⟨lower', upper', here', above', rfl, rfl, rfl, rfl, rfl⟩ := ht.exists_runs hrepresents
  -- the pairs do not depend on the free slots
  have hpairs : Item.AllNumbers (here'.drop (here'.length % 2)) :=
    (hrepresents.holdsNumbers_iff.mp hnumbers here' (by simp)).sublist (List.drop_sublist _ _)
  obtain ⟨pairs, hordered, hperm⟩ := exists_orderedPairs lower'.length hpairs
  obtain ⟨_, _, _, -, hcompact, hafter⟩ :=
    compact_represents bit hrepresents' hs.size_lt hhere hordered hperm.length_eq
  obtain ⟨_, _, _, -, hcompact', hafter'⟩ :=
    compact_represents bit hrepresents ht.size_lt hhere hordered hperm.length_eq
  rw [hfree, hs', Except.ok.injEq] at hcompact
  rw [ht', Except.ok.injEq] at hcompact'
  have hretained : s'.retained = t'.retained := by
    rw [hcompact, hcompact', hafter.retained_eq, hafter'.retained_eq]
  have hshape := h.sameShape.compact hs' ht'
  obtain ⟨levels, items, rfl⟩ := compact_eq hs'
  obtain ⟨levels', items', rfl⟩ := compact_eq ht'
  exact hshape.sameContents h.minK_eq hretained h.extremes_eq h.levelZeroSorted_eq

/-! ### Compact images -/

/-- The compact images are the same. -/
theorem compactImage_eq (h : s.SameContents t) (hs : s.WellFormed) (ht : t.WellFormed) :
    s.compactImage = t.compactImage := by
  have hbody : s.body s.levels.dropLast s.retained = t.body t.levels.dropLast t.retained := by
    rw [body, body, h.n_eq, h.minK_eq, h.numLevels_eq, h.levels_eq, h.extremes_eq, h.retained_eq]
  rw [compactImage, compactImage, compactBytes, compactBytes, isEmpty, isEmpty, isSingle, isSingle,
    h.header_eq, h.header_eq, h.header_eq, hbody, h.n_eq]
  by_cases hn : t.n = 1
  · -- the item in the image is the first one that is retained
    obtain ⟨_, _, hs⟩ := hs
    obtain ⟨_, _, ht⟩ := ht
    obtain ⟨x, rest, hretained, hitem⟩ := hs.exists_first (h.n_eq.trans hn)
    obtain ⟨y, rest', hretained', hitem'⟩ := ht.exists_first hn
    rw [h.retained_eq, hretained', List.cons.injEq] at hretained
    rw [hitem, hitem', hretained.1]
  · have hsingle : ¬(t.n == 1) = true := by simpa using hn
    rw [if_neg hsingle, if_neg hsingle]

end SameContents

end Sketch

end QuantileSketch
