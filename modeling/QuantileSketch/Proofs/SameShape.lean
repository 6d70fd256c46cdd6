import QuantileSketch.Proofs.Shape
import QuantileSketch.Proofs.Steps

/-!
# Sketches of the same shape

Two sketches have the same shape if they have the same parameters, the same length of the stream and
the same boundaries. What they hold may differ, and need not even be of one type. All positions are
computed from the boundaries, so that insertions, growth and compactions of the same level leave two
sketches in the same shape.

Where two sessions are compared, in whatever relation, they take the same steps as long as their
sketches have the same shape. `Session.rel_of_compress` says this of freeing slots, which compacts
the same level in both. `Session.update_eq_done_of_number` takes a feeding apart into the freeing of
slots and the insertion.
-/

namespace QuantileSketch

/-! ### Two sketches -/

namespace Sketch

variable {α β : Type}

/-- Sketches of any items that differ only in what they hold. -/
structure SameShape (s : Sketch α) (t : Sketch β) : Prop where
  k_eq : s.k = t.k
  m_eq : s.m = t.m
  n_eq : s.n = t.n
  levels_eq : s.levels = t.levels

namespace SameShape

variable {s s' : Sketch α} {t t' : Sketch β}

/-- The numbers of levels are the same. -/
lemma numLevels_eq (h : s.SameShape t) : s.numLevels = t.numLevels := by
  rw [numLevels, numLevels, h.levels_eq]

/-- The numbers of free slots are the same. -/
lemma free_eq (h : s.SameShape t) : s.free = t.free := by
  rw [free, free, h.levels_eq]

/-- The numbers of slots are the same. -/
lemma capacity_eq (h : s.SameShape t) : s.capacity = t.capacity := by
  rw [capacity, capacity, h.levels_eq]

/-- The numbers of items are the same. -/
lemma numRetained_eq (h : s.SameShape t) : s.numRetained = t.numRetained := by
  rw [numRetained, numRetained, h.capacity_eq, h.free_eq]

/-- The order of the sketches does not matter. -/
lemma symm (h : s.SameShape t) : t.SameShape s :=
  ⟨h.k_eq.symm, h.m_eq.symm, h.n_eq.symm, h.levels_eq.symm⟩

/-- The numbers of items in the levels are the same. -/
lemma hasShape {free : ℕ} {populations : List ℕ} (h : s.SameShape t)
    (hs : s.HasShape free populations) (ht : t.WellFormed) : t.HasShape free populations := by
  obtain ⟨free', populations', ht⟩ := ht
  obtain ⟨rfl, rfl⟩ :=
    boundaries_inj.mp (hs.levels_eq.symm.trans (h.levels_eq.trans ht.levels_eq))
  exact ht

/-- The shape does not depend on the regions. -/
lemma setBacking (h : s.SameShape t) (backing backing' : Option Backing) :
    SameShape { s with backing } { t with backing := backing' } :=
  ⟨h.k_eq, h.m_eq, h.n_eq, h.levels_eq⟩

/-- Either both sketches have to grow before they take another item, or neither does. -/
lemma mustGrow_iff (h : s.SameShape t) : s.MustGrow ↔ t.MustGrow := by
  rw [MustGrow, MustGrow, h.free_eq, h.k_eq, h.m_eq, h.numLevels_eq, h.levels_eq]

/-- Compactions of spans at the same place keep the shape the same, whatever the two bits are. -/
lemma compact [Item α] [Item β] {span : Span} {bit bit' : Bool} (h : s.SameShape t)
    (hs : s.compact span bit = .ok s') (ht : t.compact span bit' = .ok t') : s'.SameShape t' := by
  obtain ⟨levels, hlevels, hs⟩ := bind_eq_ok_iff.mp hs
  obtain ⟨levels', hlevels', ht⟩ := bind_eq_ok_iff.mp ht
  obtain ⟨items, -, hs⟩ := bind_eq_ok_iff.mp hs
  obtain ⟨items', -, ht⟩ := bind_eq_ok_iff.mp ht
  rw [h.levels_eq, hlevels', Except.ok.injEq] at hlevels
  rw [← pure_eq_ok_iff.mp hs, ← pure_eq_ok_iff.mp ht]
  exact ⟨h.k_eq, h.m_eq, h.n_eq, hlevels.symm⟩

variable [Item α] [Item β]

/-- Insertions keep the shape the same. -/
lemma inserted (h : s.SameShape t) (x : α) (y : β) : (s.inserted x).SameShape (t.inserted y) := by
  refine ⟨h.k_eq, h.m_eq, congrArg (· + 1) h.n_eq, ?_⟩
  change (s.free - 1) :: s.levels.tail = (t.free - 1) :: t.levels.tail
  rw [h.free_eq, h.levels_eq]

/-- Growth by as many slots keeps the shape the same. -/
lemma grown (h : s.SameShape t) (delta : ℕ) : (s.grown delta).SameShape (t.grown delta) := by
  refine ⟨h.k_eq, h.m_eq, h.n_eq, ?_⟩
  change s.levels.map (· + delta) ++ [s.capacity + delta] =
    t.levels.map (· + delta) ++ [t.capacity + delta]
  rw [h.capacity_eq, h.levels_eq]

/-- The images have the same sizes if the items have. -/
lemma imageSize_eq (h : s.SameShape t) (hwidth : Item.width α = Item.width β) (updatable : Bool) :
    s.imageSize updatable = t.imageSize updatable := by
  rw [imageSize, imageSize, h.n_eq, h.numLevels_eq, h.capacity_eq, h.numRetained_eq, hwidth]

end SameShape

end Sketch

/-! ### Two sessions -/

namespace Session

variable {γ δ α β : Type} [Item α] [Item β]

/-- Growth of sketches of the same shape opens the same number of slots, and only the regions may
change in other ways. -/
lemma exists_grown_of_sameShape {r r' : Session γ α} {q q' : Session δ β}
    (hshape : r.sketch.SameShape q.sketch) (hr : r.grow = .done r') (hq : q.grow = .done q') :
    ∃ delta, r'.sketch = { r.sketch.grown delta with backing := r'.sketch.backing } ∧
      q'.sketch = { q.sketch.grown delta with backing := q'.sketch.backing } := by
  obtain ⟨-, -, delta, _, hdelta, -, hsync, -, -⟩ := grow_eq_done hr
  obtain ⟨-, -, delta', _, hdelta', -, hsync', -, -⟩ := grow_eq_done hq
  rw [hshape.k_eq, hshape.m_eq, hshape.numLevels_eq] at hdelta
  obtain rfl : delta = delta' := Except.ok.inj (hdelta.symm.trans hdelta')
  have hsketch := Sketch.sync_eq hsync
  have hsketch' := Sketch.sync_eq hsync'
  exact ⟨delta, hsketch, hsketch'⟩

variable [Coin γ] [Coin δ]

/-- Freeing slots keeps sessions related whose sketches have the same shape, if growth and
compactions of the same level do. -/
lemma rel_of_compress {R : Session γ α → Session δ β → Prop} {r r' : Session γ α}
    {q q' : Session δ β} (hshape : r.sketch.SameShape q.sketch) (h : R r q)
    (hgrow : ∀ {between between'}, r.grow = .done between → q.grow = .done between' →
      R between between')
    (hcompact : ∀ {level between between'}, R between between' →
      between.compact level = .done r' → between'.compact level = .done q' → R r' q')
    (hr : r.compress = .done r') (hq : q.compress = .done q') : R r' q' := by
  obtain ⟨level, between, hlevel, hbetween, hcompacted⟩ := compress_eq_done_iff.mp hr
  obtain ⟨level', between', hlevel', hbetween', hcompacted'⟩ := compress_eq_done_iff.mp hq
  have hsame : level = level' := by
    rw [hshape.k_eq, hshape.m_eq, hshape.numLevels_eq, hshape.levels_eq, hlevel',
      Except.ok.injEq, Option.some.injEq] at hlevel
    exact hlevel.symm
  subst hsame
  rw [hshape.numLevels_eq] at hbetween
  have hrel : R between between' := Outcome.rel_of_step_if h hbetween hbetween' fun _ => hgrow
  exact hcompact hrel hcompacted hcompacted'

/-- Feeding a number inserts it, after freeing slots if there is none, and may change the region. -/
lemma update_eq_done_of_number {x : α} {r r' : Session γ α} (hx : Item.isNaN x = false)
    (h : r.update x = .done r') :
    ∃ between : Session γ α,
      (if r.sketch.free = 0 then r.compress = .done between else between = r) ∧
        r'.sketch = { between.sketch.inserted x with backing := r'.sketch.backing } ∧
        r'.coin = between.coin ∧ r'.compactions = between.compactions := by
  rcases (update_eq_done h).2 with
    ⟨hnan, -⟩ | ⟨-, between, s, hbetween, hinsert, hwrite, hcoin, hcompactions⟩
  · rw [hx] at hnan
    cases hnan
  · obtain ⟨-, -, -, -, rfl⟩ := Sketch.insert_eq_ok_iff.mp hinsert
    exact ⟨between, hbetween, Sketch.write_eq hwrite, hcoin, hcompactions⟩

end Session

end QuantileSketch
