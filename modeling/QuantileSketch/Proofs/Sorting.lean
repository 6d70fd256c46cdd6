import Mathlib.Tactic
import QuantileSketch.Slots.Sort

/-!
# Sorting only rearranges

Sorting a run neither loses nor doubles items, whatever their order is like (`Slots.sorted_perm`).
On numbers this goes with being sorted. Where some items have no place on the line nothing can be
said about the order of the answer, but it still consists of the same items.

The method for such runs cuts its input into runs, merges them in the order of a tree and sorts
what is left by partition. Each stage rearranges the items that it is given. Two places need more
than that: a merge from both ends has to take every item from one end only, which the method checks,
and the runs that are left waiting at the end wait at boundaries that are low enough in the tree for
all of them to be merged (`boundaryHeight_le`).
-/

namespace QuantileSketch

open scoped List

namespace Sorting

variable {α : Type} {less : α → α → Bool}

/-! ### Short lists -/

/-- A merge from the front takes its items from the fronts of the two lists. -/
lemma mergeFront_perm (second : α → α → Bool) {count : ℕ} {xs ys : List α}
    (hxs : count ≤ xs.length) (hys : count ≤ ys.length) :
    (mergeFront second count xs ys).2 ≤ count ∧
      (mergeFront second count xs ys).1 ~
        xs.take (mergeFront second count xs ys).2 ++
          ys.take (count - (mergeFront second count xs ys).2) := by
  induction count generalizing xs ys with
  | zero => simp [mergeFront]
  | succ count ih =>
    obtain ⟨x, xs, rfl⟩ := List.exists_cons_of_length_pos (Nat.zero_lt_of_lt hxs)
    obtain ⟨y, ys, rfl⟩ := List.exists_cons_of_length_pos (Nat.zero_lt_of_lt hys)
    rw [List.length_cons, Nat.add_le_add_iff_right] at hxs hys
    rw [mergeFront]
    by_cases hsecond : second x y = true
    · have hxs' : count ≤ (x :: xs).length := Nat.le_succ_of_le hxs
      obtain ⟨hle, hperm⟩ := ih hxs' hys
      rw [if_pos hsecond]
      refine ⟨Nat.le_succ_of_le hle, ?_⟩
      rw [Nat.succ_sub hle, List.take_succ_cons]
      exact (hperm.cons y).trans List.perm_middle.symm
    · have hys' : count ≤ (y :: ys).length := Nat.le_succ_of_le hys
      obtain ⟨hle, hperm⟩ := ih hxs hys'
      rw [if_neg hsecond]
      refine ⟨Nat.succ_le_succ hle, ?_⟩
      rw [Nat.succ_sub_succ, List.take_succ_cons]
      exact hperm.cons x

/-- A list is put together again from its front, its end and what lies between. -/
lemma take_append_middle_append_drop {l : List α} {front back : ℕ}
    (h : front + back ≤ l.length) :
    l.take front ++ ((l.drop front).take (l.length - front - back) ++
      l.drop (l.length - back)) = l := by
  have hback : l.drop (l.length - back) = (l.drop front).drop (l.length - front - back) := by
    rw [List.drop_drop]
    congr 1
    omega
  rw [hback, List.take_append_drop, List.take_append_drop]

/-- A merge from both ends only rearranges. -/
lemma mergeEnds_perm {xs ys zs : List α} (hlen : xs.length ≤ ys.length)
    (h : mergeEnds less xs ys = .ok zs) : zs ~ xs ++ ys := by
  unfold mergeEnds at h
  dsimp only at h
  obtain ⟨_, hapart, h⟩ := bind_eq_ok_iff.mp h
  obtain ⟨hlow, hlowPerm⟩ :=
    mergeFront_perm (fun x y => less y x) (Nat.le_refl xs.length) hlen
  have hys : xs.length ≤ ys.reverse.length := by rwa [List.length_reverse]
  have hxs : xs.length ≤ xs.reverse.length := by rw [List.length_reverse]
  obtain ⟨hhigh, hhighPerm⟩ := mergeFront_perm less hys hxs
  generalize mergeFront (fun x y => less y x) xs.length xs ys = low at *
  generalize mergeFront less xs.length ys.reverse xs.reverse = high at *
  obtain ⟨hfirst, hsecond⟩ := require_eq_ok_iff.mp hapart
  have hfirst := take_append_middle_append_drop hfirst
  have hsecond := take_append_middle_append_drop hsecond
  rw [List.take_reverse, List.take_reverse] at hhighPerm
  have hhighPerm' : high.1.reverse ~
      ys.drop (ys.length - high.2) ++ xs.drop (xs.length - (xs.length - high.2)) :=
    (List.reverse_perm _).trans
      (hhighPerm.trans ((List.reverse_perm _).append (List.reverse_perm _)))
  rw [← pure_eq_ok_iff.mp h]
  calc low.1 ++ _ ++ high.1.reverse ~ _ :=
        (hlowPerm.append_right _).append hhighPerm'
    _ ~ (xs.take low.2 ++ ((xs.drop low.2).take (xs.length - low.2 - (xs.length - high.2)) ++
          xs.drop (xs.length - (xs.length - high.2)))) ++
        (ys.take (xs.length - low.2) ++
          ((ys.drop (xs.length - low.2)).take (ys.length - (xs.length - low.2) - high.2) ++
            ys.drop (ys.length - high.2))) := by
      rw [← Multiset.coe_eq_coe]
      simp only [← Multiset.coe_add]
      abel
    _ = xs ++ ys := by rw [hfirst, hsecond]

/-- Two items put in order are the same two items. -/
lemma inOrder_perm (less : α → α → Bool) (x y : α) :
    [(inOrder less x y).1, (inOrder less x y).2] ~ [x, y] := by
  unfold inOrder
  split
  · exact .swap x y []
  · exact .refl _

/-- Four items put in order are the same four items. -/
lemma sortFour_perm (less : α → α → Bool) (w x y z : α) :
    sortFour less w x y z ~ [w, x, y, z] := by
  unfold sortFour
  dsimp only
  have hpairs := (inOrder_perm less w x).append (inOrder_perm less y z)
  generalize inOrder less w x = front at *
  generalize inOrder less y z = back at *
  have hmiddle (first left right last : α) :
      [first, (inOrder less left right).1, (inOrder less left right).2, last] ~
        [first, left, right, last] :=
    ((inOrder_perm less left right).append_right [last]).cons first
  have hlast : [back.1, back.2, front.2] ~ [front.2, back.1, back.2] :=
    List.perm_append_singleton front.2 [back.1, back.2]
  have hfirst : [back.1, front.1, front.2] ~ [front.1, front.2, back.1] :=
    (List.perm_append_singleton back.1 [front.1, front.2]).symm
  refine List.Perm.trans ?_ hpairs
  split
  · exact hmiddle _ _ _ _
  · exact (hmiddle _ _ _ _).trans (hlast.cons front.1)
  · exact (hmiddle _ _ _ _).trans (hfirst.append_right [back.2])
  · exact (hmiddle _ _ _ _).trans ((List.Perm.swap _ _ _).trans (hlast.cons front.1))

/-- The items that a half begins with stay the same items. -/
lemma sortSeed_perm {xs ys : List α} (h : sortSeed less xs = .ok ys) : ys ~ xs := by
  unfold sortSeed at h
  split at h
  · rw [← Except.ok.inj h]
    exact sortFour_perm less _ _ _ _
  · rename_i a b c d e f g i
    have hfront := sortFour_perm less a b c d
    have hback := sortFour_perm less e f g i
    have hlen : (sortFour less a b c d).length ≤ (sortFour less e f g i).length := by
      rw [hfront.length_eq, hback.length_eq]
      rfl
    exact (mergeEnds_perm hlen h).trans (hfront.append hback)
  · rw [← Except.ok.inj h]

/-- Sorting a half of a short list only rearranges. -/
lemma sortHalf_perm {seed : ℕ} {xs ys : List α} (h : sortHalf less seed xs = .ok ys) :
    ys ~ xs := by
  obtain ⟨front, hfront, h⟩ := bind_eq_ok_iff.mp h
  rw [← pure_eq_ok_iff.mp h]
  calc extend less front (xs.drop seed) ~ front ++ xs.drop seed := extend_perm _ _ _
    _ ~ xs.take seed ++ xs.drop seed := (sortSeed_perm hfront).append_right _
    _ = xs := List.take_append_drop seed xs

/-- Sorting a short list only rearranges. -/
lemma sortShort_perm {xs ys : List α} (h : sortShort less xs = .ok ys) : ys ~ xs := by
  obtain ⟨lower, hlower, h⟩ := bind_eq_ok_iff.mp h
  obtain ⟨upper, hupper, h⟩ := bind_eq_ok_iff.mp h
  have hlower := sortHalf_perm hlower
  have hupper := sortHalf_perm hupper
  have hlen : lower.length ≤ upper.length := by
    rw [hlower.length_eq, hupper.length_eq, List.length_take, List.length_drop]
    omega
  calc ys ~ lower ++ upper := mergeEnds_perm hlen h
    _ ~ xs.take (xs.length / 2) ++ xs.drop (xs.length / 2) := hlower.append hupper
    _ = xs := List.take_append_drop _ xs

/-! ### Runs -/

/-- The items of some runs, from the first run to the last. -/
def Run.all (runs : List (Run α)) : List α := runs.flatMap Run.items

/-- The items of the first run stand before the others. -/
@[simp] lemma Run.all_cons (run : Run α) (runs : List (Run α)) :
    Run.all (run :: runs) = run.items ++ Run.all runs := List.flatMap_cons

/-- Cutting a list into runs only rearranges if the making of runs does. -/
lemma cut_perm {good size : ℕ} {make : List α → Except Abort (Run α)}
    (hmake : ∀ xs run, make xs = .ok run → run.items ~ xs) {xs : List α} {runs : List (Run α)}
    (h : cut less good size make xs = .ok runs) : Run.all runs ~ xs := by
  induction xs using cut.induct less good size generalizing runs with
  | case1 =>
    rw [cut] at h
    rw [← Except.ok.inj h]
    exact .refl _
  | case2 x xs more hgood =>
    rename_i ih
    rw [cut, if_pos hgood] at h
    obtain ⟨rest, hrest, h⟩ := bind_eq_ok_iff.mp h
    set front := x :: xs.take more with hfront
    have hitems : (if falls less x xs then front.reverse else front) ~ front := by
      split
      · exact List.reverse_perm _
      · exact .refl _
    rw [← pure_eq_ok_iff.mp h, Run.all_cons]
    calc _ ~ front ++ xs.drop more := hitems.append (ih hrest)
      _ = x :: xs := by rw [hfront, List.cons_append, List.take_append_drop]
  | case3 x xs more hgood =>
    rename_i ih
    rw [cut, if_neg hgood] at h
    obtain ⟨run, hrun, h⟩ := bind_eq_ok_iff.mp h
    obtain ⟨rest, hrest, h⟩ := bind_eq_ok_iff.mp h
    rw [← pure_eq_ok_iff.mp h, Run.all_cons]
    calc run.items ++ Run.all rest ~ x :: xs.take (size - 1) ++ xs.drop (size - 1) :=
          (hmake _ _ hrun).append (ih hrest)
      _ = x :: xs := by rw [List.cons_append, List.take_append_drop]

/-- The greatest length of a list all of whose runs are sure to be merged in the end. -/
def mergeLimit : ℕ := 2 ^ 62

/-- A method that only rearranges lists up to this length, where it succeeds. -/
def Rearranges (sort : List α → Except Abort (List α)) : Prop :=
  ∀ ⦃xs ys⦄, xs.length ≤ mergeLimit → sort xs = .ok ys → ys ~ xs

/-- A merge of two sorted lists has the items of both. -/
lemma mergeSorted_perm (xs ys : List α) : mergeSorted less xs ys ~ xs ++ ys := by
  unfold mergeSorted
  split
  · exact List.merge_perm_append _
  · calc _ ~ ys.reverse.merge xs.reverse _ := List.reverse_perm _
      _ ~ ys.reverse ++ xs.reverse := List.merge_perm_append _
      _ = (xs ++ ys).reverse := List.reverse_append.symm
      _ ~ xs ++ ys := List.reverse_perm _

section Merging

variable {sort : List α → Except Abort (List α)}

/-- Settling a run only rearranges it. -/
lemma settle_perm (hsort : Rearranges sort) {run : Run α} {xs : List α}
    (hlen : run.items.length ≤ mergeLimit) (h : run.settle sort = .ok xs) : xs ~ run.items := by
  unfold Run.settle at h
  split at h
  · rw [← Except.ok.inj h]
  · exact hsort hlen h

/-- Two runs put together have the items of both. -/
lemma join_perm (hsort : Rearranges sort) {a b run : Run α}
    (hlen : (a.items ++ b.items).length ≤ mergeLimit) (h : join less sort a b = .ok run) :
    run.items ~ a.items ++ b.items := by
  rw [List.length_append] at hlen
  unfold join at h
  split at h
  · obtain ⟨xs, hxs, h⟩ := bind_eq_ok_iff.mp h
    obtain ⟨ys, hys, h⟩ := bind_eq_ok_iff.mp h
    have hxs := settle_perm hsort (by omega) hxs
    have hys := settle_perm hsort (by omega) hys
    rw [← pure_eq_ok_iff.mp h]
    exact (mergeSorted_perm xs ys).trans (hxs.append hys)
  · rw [← Except.ok.inj h]

/-- The items of the runs that wait at some boundaries. -/
def Run.allWaiting (waiting : List (ℕ × Run α)) : List α := Run.all (waiting.map Prod.snd)

/-- The items of the first run that waits stand before the others. -/
@[simp] lemma Run.allWaiting_cons (height : ℕ) (run : Run α) (waiting : List (ℕ × Run α)) :
    Run.allWaiting ((height, run) :: waiting) = run.items ++ Run.allWaiting waiting :=
  List.flatMap_cons

/-- Joining a run with those that wait up to a height leaves others waiting, which wait at a higher
boundary if there are any. -/
lemma joinWaiting_perm (hsort : Rearranges sort) {height : ℕ} {waiting rest : List (ℕ × Run α)}
    {run run' : Run α} (hlen : (Run.allWaiting waiting ++ run.items).length ≤ mergeLimit)
    (h : joinWaiting less sort height waiting run = .ok (rest, run')) :
    rest <:+ waiting ∧ (∀ w ∈ rest.head?, height < w.1) ∧
      Run.allWaiting rest ++ run'.items ~ Run.allWaiting waiting ++ run.items := by
  induction waiting generalizing run with
  | nil =>
    obtain ⟨rfl, rfl⟩ := Prod.mk.inj (Except.ok.inj h)
    exact ⟨List.suffix_refl _, by simp, .refl _⟩
  | cons first waiting ih =>
    obtain ⟨height', left⟩ := first
    rw [Run.allWaiting_cons, List.length_append, List.length_append] at hlen
    rw [joinWaiting] at h
    split at h
    · obtain ⟨joined, hjoined, h⟩ := bind_eq_ok_iff.mp h
      have hjoined := join_perm hsort (by rw [List.length_append]; omega) hjoined
      have hlen' : (Run.allWaiting waiting ++ joined.items).length ≤ mergeLimit := by
        rw [List.length_append, hjoined.length_eq, List.length_append]
        omega
      obtain ⟨hsuffix, hhead, hperm⟩ := ih hlen' h
      refine ⟨hsuffix.trans (List.suffix_cons _ _), hhead, ?_⟩
      calc _ ~ Run.allWaiting waiting ++ joined.items := hperm
        _ ~ Run.allWaiting waiting ++ (left.items ++ run.items) := hjoined.append_left _
        _ = Run.allWaiting waiting ++ left.items ++ run.items := (List.append_assoc _ _ _).symm
        _ ~ left.items ++ Run.allWaiting waiting ++ run.items :=
          List.perm_append_comm.append_right _
    · rename_i hheight
      obtain ⟨rfl, rfl⟩ := Prod.mk.inj (Except.ok.inj h)
      exact ⟨List.suffix_refl _, by simpa using hheight, .refl _⟩

/-- No boundary in a list up to this length is higher than the places of the fractions. -/
lemma boundaryHeight_le {total start mid stop : ℕ} (htotal : total ≤ mergeLimit)
    (hmid : start ≤ mid) (hstop : mid ≤ stop) (hle : stop ≤ total) :
    boundaryHeight total start mid stop ≤ 64 := by
  unfold boundaryHeight
  dsimp only
  set scale := ((1 <<< 62) + total - 1) / total with hscale
  have hroom : scale * total < 2 ^ 63 := by
    have := Nat.div_mul_le_self ((1 <<< 62) + total - 1) total
    rw [← hscale] at this
    have hone : (1 <<< 62 : ℕ) = mergeLimit := rfl
    have hlimit : mergeLimit = 2 ^ 62 := rfl
    omega
  have hbound (a b : ℕ) (ha : a ≤ total) (hb : b ≤ total) : scale * (a + b) < 2 ^ 64 := by
    have := Nat.mul_le_mul_left scale (Nat.add_le_add ha hb)
    rw [Nat.mul_add scale total] at this
    omega
  have hxor := Nat.xor_lt_two_pow (hbound start mid (by omega) (by omega))
    (hbound mid stop (by omega) hle)
  rcases Nat.eq_zero_or_pos ((scale * (start + mid)) ^^^ (scale * (mid + stop))) with hzero | hpos
  · rw [hzero]
    decide
  · exact ((Nat.log2_lt hpos.ne').mpr hxor).le

/-- Joining a run with all runs that wait to its left and all that follow it only rearranges. -/
lemma joinAll_perm (hsort : Rearranges sort) {total start : ℕ} {waiting : List (ℕ × Run α)}
    {run run' : Run α} {runs : List (Run α)} (htotal : total ≤ mergeLimit)
    (hwaiting : ∀ w ∈ waiting, w.1 ≤ 64) (hstart : (Run.allWaiting waiting).length = start)
    (hrest : start + run.items.length + (Run.all runs).length ≤ total)
    (h : joinAll less sort total start waiting run runs = .ok run') :
    run'.items ~ Run.allWaiting waiting ++ run.items ++ Run.all runs := by
  have hlen : (Run.allWaiting waiting ++ run.items).length ≤ mergeLimit := by
    rw [List.length_append]
    omega
  induction runs generalizing start waiting run with
  | nil =>
    obtain ⟨⟨rest, last⟩, hjoin, h⟩ := bind_eq_ok_iff.mp h
    obtain ⟨hsuffix, hhead, hperm⟩ := joinWaiting_perm hsort hlen hjoin
    -- every boundary is low enough, so that no run is left waiting
    have hnone : rest = [] := by
      rcases rest with _ | ⟨w, rest⟩
      · rfl
      · have habove := hhead w rfl
        have hbelow := hwaiting w (hsuffix.mem List.mem_cons_self)
        omega
    have hnil : Run.all ([] : List (Run α)) = [] := rfl
    rw [hnone] at hperm
    rw [← pure_eq_ok_iff.mp h, hnil, List.append_nil]
    exact hperm
  | cons next runs ih =>
    rw [Run.all_cons, List.length_append] at hrest
    obtain ⟨⟨rest, joined⟩, hjoin, h⟩ := bind_eq_ok_iff.mp h
    obtain ⟨hsuffix, -, hperm⟩ := joinWaiting_perm hsort hlen hjoin
    set mid := start + run.items.length with hmid
    set height := boundaryHeight total start mid (mid + next.items.length) with hheight
    have hlow : height ≤ 64 := boundaryHeight_le htotal (by omega) (by omega) (by omega)
    have hwaiting' : ∀ w ∈ (height, joined) :: rest, w.1 ≤ 64 :=
      List.forall_mem_cons.mpr ⟨hlow, fun w hw => hwaiting w (hsuffix.mem hw)⟩
    have hmoved : Run.allWaiting ((height, joined) :: rest) ~
        Run.allWaiting waiting ++ run.items := by
      rw [Run.allWaiting_cons]
      exact List.perm_append_comm.trans hperm
    have hmid' : (Run.allWaiting ((height, joined) :: rest)).length = mid := by
      rw [hmoved.length_eq, List.length_append, hstart]
    calc run'.items
        ~ Run.allWaiting ((height, joined) :: rest) ++ next.items ++ Run.all runs :=
          ih hwaiting' hmid' (by omega) h (by rw [List.length_append]; omega)
      _ ~ Run.allWaiting waiting ++ run.items ++ next.items ++ Run.all runs :=
        (hmoved.append_right _).append_right _
      _ = Run.allWaiting waiting ++ run.items ++ Run.all (next :: runs) := by
        rw [Run.all_cons, ← List.append_assoc]

/-- Merging runs only rearranges their items. -/
lemma mergeRuns_perm (hsort : Rearranges sort) {total : ℕ} {runs : List (Run α)} {xs : List α}
    (htotal : total ≤ mergeLimit) (hlen : (Run.all runs).length ≤ total)
    (h : mergeRuns less sort total runs = .ok xs) : xs ~ Run.all runs := by
  rcases runs with _ | ⟨run, runs⟩
  · rw [← Except.ok.inj h]
    exact .refl _
  · obtain ⟨merged, hmerged, h⟩ := bind_eq_ok_iff.mp h
    rw [Run.all_cons, List.length_append] at hlen
    have hnone : ∀ w ∈ ([] : List (ℕ × Run α)), w.1 ≤ 64 := fun _ hw => absurd hw List.not_mem_nil
    have hlen' : 0 + run.items.length + (Run.all runs).length ≤ total := by rwa [Nat.zero_add]
    have hmerged : merged.items ~ Run.all (run :: runs) :=
      joinAll_perm hsort htotal hnone rfl hlen' hmerged
    refine (settle_perm hsort ?_ h).trans hmerged
    rw [hmerged.length_eq, Run.all_cons, List.length_append]
    omega

end Merging

/-! ### Partition -/

/-- Sorting by runs that are sorted as soon as they are found only rearranges. -/
lemma sortByShortRuns_perm {xs ys : List α} (hlen : xs.length ≤ mergeLimit)
    (h : sortByShortRuns less xs = .ok ys) : ys ~ xs := by
  obtain ⟨runs, hruns, h⟩ := bind_eq_ok_iff.mp h
  have hcut : Run.all runs ~ xs := by
    refine cut_perm ?_ hruns
    intro piece run hrun
    obtain ⟨items, hitems, hrun⟩ := bind_eq_ok_iff.mp hrun
    rw [← pure_eq_ok_iff.mp hrun]
    exact sortShort_perm hitems
  have hsort : Rearranges (Except.ok : List α → Except Abort (List α)) := by
    intro xs ys _ h
    rw [Except.ok.inj h]
  exact (mergeRuns_perm hsort hlen hcut.length_eq.le h).trans hcut

/-- Sorting by splits only rearranges: what stands before the pivot and what does not make up the
list, and so do what stands behind it and what does not. -/
lemma sortBySplits_perm {limit : ℕ} {floor : Option α} {xs ys : List α}
    (hlen : xs.length ≤ mergeLimit) (h : sortBySplits less limit floor xs = .ok ys) : ys ~ xs := by
  induction limit generalizing floor xs ys with
  | zero =>
    rcases xs with _ | ⟨x, xs⟩
    · rw [sortBySplits] at h
      rw [← Except.ok.inj h]
    · rw [sortBySplits] at h
      split at h
      · exact sortShort_perm h
      · exact sortByShortRuns_perm hlen h
  | succ limit ih =>
    rcases xs with _ | ⟨x, xs⟩
    · rw [sortBySplits] at h
      rw [← Except.ok.inj h]
    · rw [sortBySplits] at h
      split at h
      · exact sortShort_perm h
      have hfilter (p : α → Bool) : ((x :: xs).filter p).length ≤ mergeLimit :=
        (List.length_filter_le p _).trans hlen
      dsimp only at h
      split at h
      · obtain ⟨upper, hupper, h⟩ := bind_eq_ok_iff.mp h
        rw [← pure_eq_ok_iff.mp h]
        exact ((ih (hfilter _) hupper).append_left _).trans
          (List.perm_append_comm.trans (List.filter_append_perm _ _))
      · obtain ⟨upper, hupper, h⟩ := bind_eq_ok_iff.mp h
        obtain ⟨lower, hlower, h⟩ := bind_eq_ok_iff.mp h
        rw [← pure_eq_ok_iff.mp h]
        exact ((ih (hfilter _) hlower).append (ih (hfilter _) hupper)).trans
          (List.filter_append_perm _ _)

/-- The adaptive method only rearranges. -/
theorem sortAdaptively_perm {xs ys : List α} (hlen : xs.length ≤ mergeLimit)
    (h : sortAdaptively less xs = .ok ys) : ys ~ xs := by
  unfold sortAdaptively at h
  split at h
  · exact sortByShortRuns_perm hlen h
  · obtain ⟨runs, hruns, h⟩ := bind_eq_ok_iff.mp h
    have hcut : Run.all runs ~ xs := by
      refine cut_perm ?_ hruns
      intro piece run hrun
      rw [← Except.ok.inj hrun]
    have hsort : Rearranges (sortByPartition less) := fun xs ys => sortBySplits_perm
    exact (mergeRuns_perm hsort hlen hcut.length_eq.le h).trans hcut

end Sorting

namespace Slots

variable {α : Type} [Item α]

/-- Sorting a run only rearranges its items, whether or not they are numbers. -/
theorem sorted_perm {xs ys : List α} (hlen : xs.length ≤ Sorting.mergeLimit)
    (h : sorted xs = .ok ys) : ys ~ xs := by
  unfold sorted at h
  split at h
  · rw [← Except.ok.inj h]
    exact Sorting.extend_perm _ _ _
  split at h
  · exact Sorting.sortAdaptively_perm hlen h
  · rw [← Except.ok.inj h]
    exact List.mergeSort_perm _ _

end Slots

end QuantileSketch
