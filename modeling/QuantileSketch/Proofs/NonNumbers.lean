import QuantileSketch.Proofs.Samples

/-!
# Values that are no numbers

A value without a place on the line can be compared with nothing, so that sorting, merging and the
search for the extremes make sense only where there are none. Feeding drops such a value, and no
other step makes one up. But an image is opened without a look at its items: a sketch that was
opened may hold values that are no numbers (`exists_opened_not_number`).

`Run.isNaN_live` says that this is the only way in. Those in the levels can only become fewer. One
that is an extreme stays the extreme for good, since no comparison with it succeeds, and no other
value that is no number takes its place. A sketch that was constructed, or opened from an image of
numbers, holds only numbers after every run, and comparing them is comparing their places.
-/

namespace QuantileSketch

open Item

variable {α : Type} [Item α]

/-- A number is not a value that is no number. -/
lemma ne_of_isNaN {x y : α} (hx : isNaN x = false) (hy : isNaN y = true) : x ≠ y := by
  rintro rfl
  rw [hx] at hy
  cases hy

namespace Extremes

variable {e : Extremes α} {x y z : α}

/-- A number that replaces numbers only neither brings in nor removes a value that is none. -/
lemma replace_eq_iff {outside : Bool} (hx : isNaN x = false)
    (hz : outside = true → isNaN z = false) (hy : isNaN y = true) :
    (if outside then x else z) = y ↔ z = y := by
  split
  · rename_i houtside
    exact iff_of_false (ne_of_isNaN hx hy) (ne_of_isNaN (hz houtside) hy)
  · exact Iff.rfl

/-- An insertion changes nothing about which value that is no number is the least item. -/
lemma least_insert_eq_iff (hx : isNaN x = false) (hy : isNaN y = true) :
    (insert x (some e)).least = y ↔ e.least = y :=
  replace_eq_iff hx (fun h => (isNaN_eq_false_of_less h).2) hy

/-- An insertion changes nothing about which value that is no number is the greatest item. -/
lemma greatest_insert_eq_iff (hx : isNaN x = false) (hy : isNaN y = true) :
    (insert x (some e)).greatest = y ↔ e.greatest = y :=
  replace_eq_iff hx (fun h => (isNaN_eq_false_of_less h).1) hy

end Extremes

namespace Sketch

/-- The items that comparisons are made with: those in the levels and the extremes. -/
def live (s : Sketch α) : List α :=
  s.retained.toList ++ (s.least?.toList ++ s.greatest?.toList)

/-- A sketch of numbers holds only numbers, and its extremes are numbers. -/
lemma allNumbers_live_iff {s : Sketch α} :
    AllNumbers s.live ↔ s.HoldsNumbers ∧
      (∀ x, s.least? = some x → isNaN x = false) ∧
      ∀ x, s.greatest? = some x → isNaN x = false := by
  rw [live, allNumbers_append, allNumbers_append, HoldsNumbers]
  simp only [AllNumbers, Option.mem_toList]

/-- A sketch that was constructed holds nothing that could be no number. -/
lemma Constructed.live_eq_nil {s : Sketch α} (h : s.Constructed) : s.live = [] := by
  obtain ⟨k, m, backing, -, rfl⟩ := h.exists_eq
  have hrepresents : Represents { (empty k m : Sketch α) with backing } _ [[]] :=
    (empty_represents k m).congr rfl rfl
  rw [live, hrepresents.toList_retained]
  rfl

/-- An insertion changes nothing about which values that are no numbers are extremes. -/
lemma extremes_inserted_eq_iff {s : Sketch α} {x y : α} (hx : isNaN x = false)
    (hy : isNaN y = true) :
    ((s.inserted x).least? = some y ↔ s.least? = some y) ∧
      ((s.inserted x).greatest? = some y ↔ s.greatest? = some y) := by
  have hleast : (s.inserted x).least? = some (Extremes.insert x s.extremes).least := rfl
  have hgreatest : (s.inserted x).greatest? = some (Extremes.insert x s.extremes).greatest := rfl
  rw [hleast, hgreatest, least?, greatest?, Option.some.injEq, Option.some.injEq]
  cases s.extremes with
  | none =>
    have hne : x ≠ y := ne_of_isNaN hx hy
    exact ⟨iff_of_false hne (by simp), iff_of_false hne (by simp)⟩
  | some e =>
    rw [Option.map_some, Option.map_some, Option.some.injEq, Option.some.injEq]
    exact ⟨Extremes.least_insert_eq_iff hx hy, Extremes.greatest_insert_eq_iff hx hy⟩

end Sketch

namespace Session

variable {γ : Type} [Coin γ] {r₀ r : Session γ α} {fed : List α}

/-- Elementary changes bring no value into the levels that is no number. -/
lemma Changes.filter_isNaN_subperm (h : r₀.Changes fed r) (hwf : r₀.sketch.WellFormed) :
    (r.sketch.retained.toList.filter isNaN).Subperm
      (r₀.sketch.retained.toList.filter isNaN) := by
  have hfed : fed.filter isNaN = [] :=
    List.filter_eq_nil_iff.mpr fun x hx => by simp [h.allNumbers x hx]
  have hsubperm := (h.retained_subperm hwf).filter isNaN
  rwa [List.filter_append, hfed, List.append_nil] at hsubperm

/-- Elementary changes keep the extremes that are no numbers, and bring in no others. -/
lemma Changes.extremes_eq_iff (h : r₀.Changes fed r) {y : α} (hy : isNaN y = true) :
    (r.sketch.least? = some y ↔ r₀.sketch.least? = some y) ∧
      (r.sketch.greatest? = some y ↔ r₀.sketch.greatest? = some y) := by
  induction h with
  | start => exact ⟨Iff.rfl, Iff.rfl⟩
  | moved _ backing hsketch _ _ ih =>
    rw [hsketch]
    exact ih
  | grown _ _ _ hsketch _ _ ih =>
    rw [hsketch]
    exact ih
  | compacted _ _ _ hcompact _ _ ih =>
    obtain ⟨levels, items, hsketch⟩ := Sketch.compact_eq hcompact
    rw [hsketch]
    exact ih
  | inserted _ hnumber hinsert _ _ ih =>
    obtain ⟨-, -, -, -, hsketch⟩ := Sketch.insert_eq_ok_iff.mp hinsert
    obtain ⟨hleast, hgreatest⟩ := Sketch.extremes_inserted_eq_iff hnumber hy
    rw [← hsketch]
    exact ⟨hleast.trans ih.1, hgreatest.trans ih.2⟩

/-- Elementary changes of a sketch of numbers lead to sketches of numbers. -/
lemma Changes.allNumbers_live (h : r₀.Changes fed r) (hwf : r₀.sketch.WellFormed)
    (h₀ : AllNumbers r₀.sketch.live) : AllNumbers r.sketch.live := by
  obtain ⟨hretained, hleast, hgreatest⟩ := Sketch.allNumbers_live_iff.mp h₀
  refine Sketch.allNumbers_live_iff.mpr ⟨?_, ?_, ?_⟩
  · intro x hx
    refine Bool.eq_false_iff.mpr fun hnan => ?_
    have hmem := (h.filter_isNaN_subperm hwf).subset (List.mem_filter.mpr ⟨hx, hnan⟩)
    have hnumber := hretained x (List.mem_of_mem_filter hmem)
    exact Bool.false_ne_true (hnumber.symm.trans hnan)
  · intro x hx
    refine Bool.eq_false_iff.mpr fun hnan => ?_
    have hnumber := hleast x ((h.extremes_eq_iff hnan).1.mp hx)
    exact Bool.false_ne_true (hnumber.symm.trans hnan)
  · intro x hx
    refine Bool.eq_false_iff.mpr fun hnan => ?_
    have hnumber := hgreatest x ((h.extremes_eq_iff hnan).2.mp hx)
    exact Bool.false_ne_true (hnumber.symm.trans hnan)

variable {s : Sketch α} {coin : γ} {taken : List (Command α)}

/-- After every run of a sketch that was constructed or opened, the values in its levels that are
no numbers are among those that were there when it was opened, and a value that is no number is the
least or the greatest item just if it was so then. If there was no such value, as in every sketch
that was constructed, there is none after the run, and the items that comparisons are made with are
ordered by their places. -/
theorem Run.isNaN_live (hs : s.Opened) (hrun : (begin s coin).Run taken r) :
    (r.sketch.retained.toList.filter isNaN).Subperm (s.retained.toList.filter isNaN) ∧
      (∀ y, isNaN y = true → (r.sketch.least? = some y ↔ s.least? = some y) ∧
        (r.sketch.greatest? = some y ↔ s.greatest? = some y)) ∧
      (s.Constructed ∨ AllNumbers s.live → AllNumbers r.sketch.live ∧
        ∀ x ∈ r.sketch.live, ∀ y ∈ r.sketch.live, less x y = true ↔ key x < key y) := by
  have hchanges := hrun.changes hs.wellFormed
  refine ⟨hchanges.filter_isNaN_subperm hs.wellFormed, fun y hy => hchanges.extremes_eq_iff hy, ?_⟩
  intro hstart
  have hnumbers : AllNumbers s.live := by
    rcases hstart with hconstructed | hnumbers
    · rw [hconstructed.live_eq_nil]
      exact allNumbers_nil
    · exact hnumbers
  have hlive := hchanges.allNumbers_live hs.wellFormed hnumbers
  exact ⟨hlive, fun x hx y hy => less_iff_key_lt (hlive x hx) (hlive y hy)⟩

/-- A single item image of a number. A value that is no number and another number are fed to the
sketch in it, which then holds two numbers. -/
theorem isNaN_live_of_single_number :
    ∃ (s : Sketch Binary64) (r : Session Xorshift Binary64),
      Sketch.read #[2, 2, 15, 0, 8, 0, 8, 0, 0, 0, 0, 0, 0, 0, 240, 63] = .ok s ∧
        (begin s (Xorshift.ofSeed 1)).Run [.update Item.filler, .update (.ofInt 2)] r ∧
        r.sketch.n = 2 ∧ AllNumbers r.sketch.live := by
  have hstate : ((Sketch.read #[2, 2, 15, 0, 8, 0, 8, 0, 0, 0, 0, 0, 0, 0, 240, 63]).toOption.bind
      fun s : Sketch Binary64 => (performAll [.update Item.filler, .update (.ofInt 2)]
        (begin s (Xorshift.ofSeed 1))).map fun r => (s.live.any isNaN, r.sketch.n)) =
          some (false, 2) := by decide +kernel
  obtain ⟨s, r, hread, hrun, hstate⟩ := exists_run_of_read hstate
  obtain ⟨hnan, hn⟩ := Prod.mk.inj hstate
  have hnumbers : AllNumbers s.live := fun x hx => by simpa using List.any_eq_false.mp hnan x hx
  exact ⟨s, r, hread, hrun, hn, ((hrun.isNaN_live (.read hread)).2.2 (.inr hnumbers)).1⟩

/-- A single item image of a value that is no number. It is valid, and the value is both extremes of
the sketch in it and still is when a number has been fed. -/
theorem exists_opened_not_number :
    ∃ (s : Sketch Binary64) (r : Session Xorshift Binary64),
      Sketch.read #[2, 2, 15, 0, 8, 0, 8, 0, 0, 0, 0, 0, 0, 0, 248, 127] = .ok s ∧
        (begin s (Xorshift.ofSeed 1)).Run [.update (.ofInt 1)] r ∧
        ∃ x, isNaN x = true ∧ s.retained = #[x] ∧ r.sketch.retained = #[.ofInt 1, x] ∧
          r.sketch.least? = some x ∧ r.sketch.greatest? = some x := by
  let nan : Binary64 := Item.filler
  have hstate : ((Sketch.read #[2, 2, 15, 0, 8, 0, 8, 0, 0, 0, 0, 0, 0, 0, 248, 127]).toOption.bind
      fun s : Sketch Binary64 => (performAll [.update (.ofInt 1)]
        (begin s (Xorshift.ofSeed 1))).map fun r =>
          (s.retained, r.sketch.retained, r.sketch.least?, r.sketch.greatest?)) =
            some (#[nan], #[.ofInt 1, nan], some nan, some nan) := by decide +kernel
  obtain ⟨s, r, hread, hrun, hstate⟩ := exists_run_of_read hstate
  simp only [Prod.mk.injEq] at hstate
  exact ⟨s, r, hread, hrun, nan, by decide, hstate⟩

end Session

end QuantileSketch
