import QuantileSketch.Item.Float
import QuantileSketch.Proofs.SameShape
import QuantileSketch.Proofs.Transparency

/-!
# The shape does not depend on the data

Two sessions have the same shape if their sketches have and the same levels have been compacted.
Feeding one number to each of two such sessions ends in the same way and leaves them in the same
shape, whatever the numbers are and whatever the coins show (`Session.SameShape.update`). Each
compaction tosses the coin once (`Run.coin_eq`).

So the shape of a sketch, the levels that were compacted and the number of bits that were drawn are
determined by the number of the items that were fed (`shape_independent_of_items`).
-/

namespace QuantileSketch

/-- A coin after some tosses. -/
def Coin.after {γ : Type} [Coin γ] (tosses : ℕ) (coin : γ) : γ :=
  (fun c => (Coin.toss c).2)^[tosses] coin

namespace Session

variable {γ δ α β : Type}

/-- Sessions with sketches of the same shape in which the same levels have been compacted. -/
structure SameShape (r : Session γ α) (q : Session δ β) : Prop where
  sketch : r.sketch.SameShape q.sketch
  compactions_eq : r.compactions = q.compactions

variable [Item α] [Item β] {r r' : Session γ α} {q q' : Session δ β}

namespace SameShape

/-- Growth in both sessions keeps the shape the same. -/
lemma grow (h : r.SameShape q) (hr : r.grow = .done r') (hq : q.grow = .done q') :
    r'.SameShape q' := by
  obtain ⟨-, -, _, _, -, -, -, -, hcompactions⟩ := grow_eq_done hr
  obtain ⟨-, -, _, _, -, -, -, -, hcompactions'⟩ := grow_eq_done hq
  obtain ⟨delta, hgrown, hgrown'⟩ := exists_grown_of_sameShape h.sketch hr hq
  refine ⟨?_, ?_⟩
  · rw [hgrown, hgrown']
    exact (h.sketch.grown _).setBacking _ _
  · rw [hcompactions, hcompactions', h.compactions_eq]

variable [Coin γ] [Coin δ]

/-- The compaction of the same level in both sessions keeps the shape the same. -/
lemma compact {level : ℕ} (h : r.SameShape q) (hr : r.compact level = .done r')
    (hq : q.compact level = .done q') : r'.SameShape q' := by
  obtain ⟨span, hspan, hcompact, -, hcompactions⟩ := compact_eq_done hr
  obtain ⟨span', hspan', hcompact', -, hcompactions'⟩ := compact_eq_done hq
  have hsame : span = span' := by
    rw [Sketch.span, h.sketch.levels_eq] at hspan
    exact Except.ok.inj (hspan.symm.trans hspan')
  subst hsame
  refine ⟨h.sketch.compact hcompact hcompact', ?_⟩
  rw [hcompactions, hcompactions', h.compactions_eq]

/-- Freeing slots in both sessions keeps the shape the same. -/
lemma compress (h : r.SameShape q) (hr : r.compress = .done r') (hq : q.compress = .done q') :
    r'.SameShape q' :=
  rel_of_compress h.sketch h h.grow compact hr hq

/-- Feeding a number to both sessions keeps the shape the same. -/
theorem update {x : α} {y : β} (h : r.SameShape q) (hx : Item.isNaN x = false)
    (hy : Item.isNaN y = false) (hr : r.update x = .done r') (hq : q.update y = .done q') :
    r'.SameShape q' := by
  obtain ⟨between, hbetween, hsketch, -, hcompactions⟩ := update_eq_done_of_number hx hr
  obtain ⟨between', hbetween', hsketch', -, hcompactions'⟩ := update_eq_done_of_number hy hq
  rw [h.sketch.free_eq] at hbetween
  have hshape : between.SameShape between' :=
    Outcome.rel_of_step_if h hbetween hbetween' fun _ => h.compress
  refine ⟨?_, ?_⟩
  · rw [hsketch, hsketch']
    exact (hshape.sketch.inserted x y).setBacking _ _
  · rw [hcompactions, hcompactions', hshape.compactions_eq]

end SameShape

/-! ### Sketches that own their slots -/

/-- A session with a sketch of numbers that may change and has no region. -/
structure Standalone (r : Session γ α) : Prop where
  wellFormed : r.sketch.WellFormed
  ordered : r.sketch.Ordered
  backing_eq : r.sketch.backing = none
  readOnly_eq : r.sketch.readOnly = false

/-- A session begins so if its sketch is made without a region. -/
lemma standalone_of_withM {k m : ℕ} {s : Sketch α} (coin : γ) (hs : Sketch.withM k m = .ok s) :
    (begin s coin).Standalone := by
  have hconstructed : s.Constructed := .withM hs
  obtain ⟨-, rfl⟩ := Sketch.withM_eq_ok_iff.mp hs
  exact ⟨hconstructed.wellFormed, hconstructed.ordered, rfl, rfl⟩

variable [Coin γ] [Coin δ]

namespace Standalone

/-- A run keeps such a session as it is. -/
lemma run {taken : List (Command α)} (h : r.Standalone) (hrun : r.Run taken r') :
    r'.Standalone := by
  have hchanges := hrun.changes h.wellFormed
  obtain ⟨-, -, hreadOnly, -⟩ := hchanges.parameters_eq
  have hserver := hrun.server_eq h.wellFormed
  rw [h.backing_eq, Option.map_none, Option.map_eq_none_iff] at hserver
  exact ⟨hchanges.wellFormed h.wellFormed, hchanges.ordered h.wellFormed h.ordered, hserver,
    hreadOnly.trans h.readOnly_eq⟩

/-- A number is refused if the sketch must grow and there are no more levels. -/
lemma update_eq_refused_iff {x : α} (h : r.Standalone) (hx : Item.isNaN x = false) :
    (∃ error r', r.update x = .refused error r') ↔
      r.sketch.MustGrow ∧ r.sketch.numLevels = maxLevels := by
  obtain ⟨free, populations, hs⟩ := h.wellFormed
  have hrequest := Sketch.not_requestFails_of_backing_eq_none h.backing_eq
  rw [Session.update_eq_refused_iff x hs]
  simp [hrequest, h.readOnly_eq, hx]

/-- A number is taken or refused as long as the stream can become longer. -/
lemma update_completes (x : α) (h : r.Standalone) (hn : r.sketch.n < maxWord64) :
    (r.update x).Completes := by
  obtain ⟨free, populations, hs⟩ := h.wellFormed
  exact Session.update_completes x hs (Sketch.fits_of_backing_eq_none h.backing_eq) (fun _ => hn)
    h.ordered.holdsNumbers fun _ => Sketch.canReserve_of_backing_eq_none h.backing_eq

/-- What is no number changes nothing. -/
lemma update_of_isNaN {x : α} (h : r.Standalone) (hx : Item.isNaN x = true) :
    r.update x = .done r := by
  have hwritable : ¬r.sketch.readOnly = true := by simp [h.readOnly_eq]
  rw [update, if_neg hwritable, if_pos hx]

end Standalone

namespace SameShape

variable {x : α} {y : β}

/-- A number that is refused in one session is refused in another one of the same shape. -/
lemma exists_update_eq_refused {error : Error} (h : r.SameShape q) (hr : r.Standalone)
    (hq : q.Standalone) (hx : Item.isNaN x = false) (hy : Item.isNaN y = false)
    (hrefused : r.update x = .refused error r') :
    ∃ error' q', q.update y = .refused error' q' ∧ r'.SameShape q' := by
  obtain ⟨hmust, htop⟩ := (hr.update_eq_refused_iff hx).mp ⟨error, r', hrefused⟩
  rw [h.sketch.mustGrow_iff] at hmust
  rw [h.sketch.numLevels_eq] at htop
  obtain ⟨error', q', hrefused'⟩ := (hq.update_eq_refused_iff hy).mpr ⟨hmust, htop⟩
  have hunchanged := Session.update_eq_refused hrefused
  have hunchanged' := Session.update_eq_refused hrefused'
  refine ⟨error', q', hrefused', ?_, ?_⟩
  · rw [hunchanged.same.1, hunchanged'.same.1]
    exact h.sketch.setBacking _ _
  · rw [hunchanged.compactions_eq, hunchanged'.compactions_eq, h.compactions_eq]

/-- A number that is taken in one session is taken in another one of the same shape. -/
lemma exists_update_eq_done (h : r.SameShape q) (hr : r.Standalone) (hq : q.Standalone)
    (hx : Item.isNaN x = false) (hy : Item.isNaN y = false) (hdone : r.update x = .done r') :
    ∃ q', q.update y = .done q' ∧ r'.SameShape q' := by
  have hn : q.sketch.n < maxWord64 := by
    rw [← h.sketch.n_eq]
    exact (update_n hr.wellFormed hx hdone).2
  rcases hq.update_completes y hn with ⟨q', hdone'⟩ | hrefused
  · exact ⟨q', hdone', h.update hx hy hdone hdone'⟩
  · -- a refusal would show in the first session, too
    rw [hq.update_eq_refused_iff hy, ← h.sketch.mustGrow_iff, ← h.sketch.numLevels_eq,
      ← hr.update_eq_refused_iff hx] at hrefused
    obtain ⟨error, r'', hrefused⟩ := hrefused
    rw [hdone] at hrefused
    cases hrefused

end SameShape

/-! ### Feeding items one after the other -/

/-- Feeds items one after the other, also after some of them are refused. There is no result if this
aborts. -/
def feedEach (items : List α) (r : Session γ α) : Option (Session γ α) :=
  (performEach (items.map .update) r).map Prod.snd

/-- Feeding the first item and then the others. -/
lemma feedEach_cons (x : α) (items : List α) (r : Session γ α) :
    feedEach (x :: items) r =
      match r.update x with
      | .done r' => feedEach items r'
      | .refused _ r' => feedEach items r'
      | .aborted _ _ => none := by
  rw [feedEach, List.map_cons, performEach, perform]
  cases r.update x with
  | done r' =>
    dsimp only
    rw [Option.map_map]
    rfl
  | refused error r' => rfl
  | aborted abort log => rfl

/-- Feeding items makes a run. -/
lemma exists_run_of_feedEach {items : List α} (h : feedEach items r = some r') :
    ∃ taken, r.Run taken r' := by
  obtain ⟨⟨taken, last⟩, hperformed, rfl⟩ := Option.map_eq_some_iff.mp h
  exact ⟨taken, run_of_performEach hperformed⟩

/-- Feeding only those items that are numbers gives the same result. -/
lemma feedEach_filter (items : List α) (h : r.Standalone) :
    feedEach (items.filter fun x => !Item.isNaN x) r = feedEach items r := by
  induction items generalizing r with
  | nil => rfl
  | cons x items ih =>
    by_cases hx : Item.isNaN x = true
    · rw [List.filter_cons_of_neg (by simp [hx]), ih h, feedEach_cons, h.update_of_isNaN hx]
    · rw [List.filter_cons_of_pos (by simp [hx]), feedEach_cons, feedEach_cons]
      split
      · rename_i r' hdone
        exact ih (h.run (Run.start.done (c := .update x) hdone))
      · rename_i error r' hrefused
        exact ih (h.run (Run.start.refused (c := .update x) hrefused))
      · rfl

/-- Feeding as many numbers to two sessions of the same shape ends in the same way and keeps the
shape the same. -/
theorem SameShape.exists_feedEach {xs : List α} {ys : List β} (h : r.SameShape q)
    (hr : r.Standalone) (hq : q.Standalone) (hlength : xs.length = ys.length)
    (hxs : Item.AllNumbers xs) (hys : Item.AllNumbers ys) (hfed : feedEach xs r = some r') :
    ∃ q', feedEach ys q = some q' ∧ r'.SameShape q' := by
  induction xs generalizing ys r q with
  | nil =>
    rw [List.length_nil, eq_comm, List.length_eq_zero_iff] at hlength
    rw [hlength]
    obtain rfl : r = r' := Option.some.inj hfed
    exact ⟨q, rfl, h⟩
  | cons x xs ih =>
    obtain ⟨y, ys, rfl⟩ := List.exists_cons_of_length_eq_add_one hlength.symm
    rw [List.length_cons, List.length_cons, Nat.add_right_cancel_iff] at hlength
    obtain ⟨hx, hxs⟩ := List.forall_mem_cons.mp hxs
    obtain ⟨hy, hys⟩ := List.forall_mem_cons.mp hys
    rw [feedEach_cons] at hfed
    split at hfed
    · rename_i between hdone
      obtain ⟨between', hdone', hbetween⟩ := h.exists_update_eq_done hr hq hx hy hdone
      rw [feedEach_cons, hdone']
      exact ih hbetween (hr.run (Run.start.done (c := .update x) hdone))
        (hq.run (Run.start.done (c := .update y) hdone')) hlength hxs hys hfed
    · rename_i error between hrefused
      obtain ⟨error', between', hrefused', hbetween⟩ :=
        h.exists_update_eq_refused hr hq hx hy hrefused
      rw [feedEach_cons, hrefused']
      exact ih hbetween (hr.run (Run.start.refused (c := .update x) hrefused))
        (hq.run (Run.start.refused (c := .update y) hrefused')) hlength hxs hys hfed
    · cases hfed

/-! ### Tosses -/

/-- Elementary changes toss the coin once for each level that they compact. -/
lemma Changes.exists_coin_eq {r₀ : Session γ α} {fed : List α} (h : r₀.Changes fed r) :
    ∃ levels, r.compactions = r₀.compactions ++ levels ∧
      r.coin = Coin.after levels.length r₀.coin := by
  induction h with
  | start => exact ⟨[], (List.append_nil _).symm, rfl⟩
  | moved _ _ _ hcoin hcompactions ih =>
    rw [hcoin, hcompactions]
    exact ih
  | grown _ _ _ _ hcoin hcompactions ih =>
    rw [hcoin, hcompactions]
    exact ih
  | @compacted _ _ _ _ _ _ lower _ _ _ _ _ hcoin hcompactions ih =>
    obtain ⟨levels, hlevels, htosses⟩ := ih
    refine ⟨levels ++ [lower.length], ?_, ?_⟩
    · rw [hcompactions, hlevels, List.append_assoc]
    · rw [hcoin, htosses, List.length_append, List.length_singleton, Coin.after, Coin.after,
        Function.iterate_succ_apply']
  | inserted _ _ _ hcoin hcompactions ih =>
    rw [hcoin, hcompactions]
    exact ih

/-- A run tosses the coin once for each level that it compacts. -/
theorem Run.coin_eq {s : Sketch α} {coin : γ} {taken : List (Command α)} (hwf : s.WellFormed)
    (hrun : (begin s coin).Run taken r) : r.coin = Coin.after r.compactions.length coin := by
  obtain ⟨levels, hlevels, hcoin⟩ := (hrun.changes hwf).exists_coin_eq
  rw [hcoin, hlevels]
  rfl

/-! ### Constructed sketches -/

/-- Two sketches with the same parameters, of any items, are fed two streams with the same number of
numbers, each with its own coin. If one of them comes to an end so does the other, and then they
have the same boundaries and lengths of the stream, the same levels have been compacted, and both
coins have been tossed once for each of them. If the items are of one width so are the images of one
size. Streams with fewer numbers than there are words always come to an end. -/
theorem shape_independent_of_items {k m : ℕ} {s : Sketch α} {t : Sketch β} (coin : γ) (coin' : δ)
    {xs : List α} {ys : List β} (hs : Sketch.withM k m = .ok s) (ht : Sketch.withM k m = .ok t)
    (hcount : xs.countP (fun x => !Item.isNaN x) = ys.countP fun y => !Item.isNaN y) :
    (∀ r, feedEach xs (begin s coin) = some r →
      ∃ q, feedEach ys (begin t coin') = some q ∧
        r.sketch.numLevels = q.sketch.numLevels ∧ r.sketch.levels = q.sketch.levels ∧
        r.sketch.n = q.sketch.n ∧ r.sketch.numRetained = q.sketch.numRetained ∧
        r.compactions = q.compactions ∧
        r.coin = Coin.after r.compactions.length coin ∧
        q.coin = Coin.after r.compactions.length coin' ∧
        (Item.width α = Item.width β →
          ∀ updatable, r.sketch.imageSize updatable = q.sketch.imageSize updatable)) ∧
      (xs.countP (fun x => !Item.isNaN x) < wordBound 64 →
        ∃ r, feedEach xs (begin s coin) = some r) := by
  have hr := standalone_of_withM coin hs
  have hq := standalone_of_withM coin' ht
  have hsame : (begin s coin).SameShape (begin t coin') := by
    obtain ⟨-, rfl⟩ := Sketch.withM_eq_ok_iff.mp hs
    obtain ⟨-, rfl⟩ := Sketch.withM_eq_ok_iff.mp ht
    exact ⟨⟨rfl, rfl, rfl, rfl⟩, rfl⟩
  have hnumbers {κ : Type} [Item κ] (items : List κ) :
      Item.AllNumbers (items.filter fun x => !Item.isNaN x) := by
    intro x hx
    simpa using (List.mem_filter.mp hx).2
  refine ⟨?_, ?_⟩
  · intro r hfed
    rw [← feedEach_filter xs hr] at hfed
    rw [List.countP_eq_length_filter, List.countP_eq_length_filter] at hcount
    obtain ⟨q, hfed', hshape⟩ :=
      hsame.exists_feedEach hr hq hcount (hnumbers xs) (hnumbers ys) hfed
    obtain ⟨_, hrun⟩ := exists_run_of_feedEach hfed
    obtain ⟨_, hrun'⟩ := exists_run_of_feedEach hfed'
    rw [feedEach_filter ys hq] at hfed'
    have hcoin' := hrun'.coin_eq hq.wellFormed
    rw [← hshape.compactions_eq] at hcoin'
    exact ⟨q, hfed', hshape.sketch.numLevels_eq, hshape.sketch.levels_eq, hshape.sketch.n_eq,
      hshape.sketch.numRetained_eq, hshape.compactions_eq, hrun.coin_eq hr.wellFormed, hcoin',
      hshape.sketch.imageSize_eq⟩
  · intro hfewer
    have hserver : ∀ b, s.backing = some b → b.server.Answers := by
      intro b hb
      rw [show s.backing = none from hr.backing_eq] at hb
      cases hb
    have hlength : ([] : List (Command α)).length +
        ((xs.filter fun x => !Item.isNaN x).map Command.update).length < wordBound 64 := by
      rw [List.length_nil, Nat.zero_add, List.length_map, ← List.countP_eq_length_filter]
      exact hfewer
    have hempty : (begin s coin).Run [] (begin s coin) := .start
    obtain ⟨taken, r, hperformed⟩ := hempty.exists_performEach (.withM hs) hserver hlength
    refine ⟨r, ?_⟩
    rw [← feedEach_filter xs hr, feedEach, hperformed]
    rfl

/-- Integers, and floating-point numbers with two that are none among them, with different coins.
Both streams have fourteen numbers, the second one with ties, and need compactions of two levels. -/
theorem shape_independent_of_fourteen_numbers :
    ∃ (r : Session Xorshift Int32) (q : Session Xorshift Binary32),
      feedEach [5, 7, 6, 1, 9, 2, 8, 3, 10, 11, 4, 12, 13, 14]
          (begin (Sketch.empty 4 2) (Xorshift.ofSeed 1)) = some r ∧
        feedEach [.ofInt 3, Item.filler, .ofInt 3, .ofInt 3, .ofInt (-2), Item.filler, .ofInt 8,
          .ofInt 1, .ofInt 1, .ofInt 4, .ofInt 0, .ofInt 7, .ofInt 7, .ofInt (-5), .ofInt 2,
          .ofInt 6] (begin (Sketch.empty 4 2) (Xorshift.ofSeed 2)) = some q ∧
        r.compactions = [0, 0, 0, 1] ∧ r.compactions = q.compactions ∧
        r.sketch.levels = q.sketch.levels ∧
        r.sketch.imageSize false = q.sketch.imageSize false := by
  let items : List Int32 := [5, 7, 6, 1, 9, 2, 8, 3, 10, 11, 4, 12, 13, 14]
  let items' : List Binary32 := [.ofInt 3, Item.filler, .ofInt 3, .ofInt 3, .ofInt (-2),
    Item.filler, .ofInt 8, .ofInt 1, .ofInt 1, .ofInt 4, .ofInt 0, .ofInt 7, .ofInt 7, .ofInt (-5),
    .ofInt 2, .ofInt 6]
  have hvalid : ParametersValid 4 2 := by decide
  have hs : Sketch.withM 4 2 = .ok (Sketch.empty 4 2 : Sketch Int32) :=
    Sketch.withM_eq_ok_iff.mpr ⟨hvalid, rfl⟩
  have ht : Sketch.withM 4 2 = .ok (Sketch.empty 4 2 : Sketch Binary32) :=
    Sketch.withM_eq_ok_iff.mpr ⟨hvalid, rfl⟩
  have hcount : items.countP (fun x => !Item.isNaN x) = items'.countP fun y => !Item.isNaN y := by
    decide +kernel
  have hcompactions : (feedEach items
      (begin (Sketch.empty 4 2) (Xorshift.ofSeed 1))).map compactions = some [0, 0, 0, 1] := by
    decide +kernel
  obtain ⟨r, hr, hcompactions⟩ := Option.map_eq_some_iff.mp hcompactions
  obtain ⟨q, hq, -, hlevels, -, -, hsame, -, -, hsize⟩ :=
    (shape_independent_of_items (Xorshift.ofSeed 1) (Xorshift.ofSeed 2) hs ht hcount).1 r hr
  exact ⟨r, q, hr, hq, hcompactions, hsame, hlevels, hsize rfl false⟩

end Session

end QuantileSketch
