import QuantileSketch.Proofs.SameOutcome

/-!
# Regions and refusals do not show

Two sessions agree if they have the same coin and the same sketch up to its region
(`Session.Agrees`). A command that is done in both leaves them in agreement, because what it does to
the sketch and to the coin does not depend on the region (`Agrees.perform`), and a command that is
refused leaves the session in agreement with itself. A session without a region never has to ask for
room, so that whatever is done in the other session is done in it as well (`Agrees.exists_done`).

So a sketch in a region comes to the same state as one without a region that is given only those
commands that were done, whatever the server answers and however often it refuses
(`region_transparent`).
-/

namespace QuantileSketch

/-! ### Sketches up to their regions -/

namespace Sketch

variable {α : Type} [Item α] {s s' : Sketch α}

/-- A compaction does not depend on the region. -/
lemma compact_setBacking {span : Span} {bit : Bool} (backing : Option Backing)
    (h : s.compact span bit = .ok s') :
    compact { s with backing } span bit = .ok { s' with backing } := by
  obtain ⟨levels, hlevels, h⟩ := bind_eq_ok_iff.mp h
  obtain ⟨items, hitems, h⟩ := bind_eq_ok_iff.mp h
  rw [← pure_eq_ok_iff.mp h]
  exact bind_eq_ok_iff.mpr ⟨levels, hlevels, bind_eq_ok_iff.mpr ⟨items, hitems, rfl⟩⟩

end Sketch

namespace Session

variable {γ α : Type}

/-- The session `h` agrees with `r` if it has the same coin and the same sketch up to the region. -/
structure Agrees (h r : Session γ α) : Prop where
  coin_eq : h.coin = r.coin
  sketch_eq : h.sketch = { r.sketch with backing := h.sketch.backing }

namespace Agrees

variable {h h' r r' : Session γ α} {free : ℕ} {populations : List ℕ}

/-- Sketches that agree have the same shape. -/
lemma shape (hagree : h.Agrees r) (hs : r.sketch.HasShape free populations) :
    h.sketch.HasShape free populations := by
  rw [hagree.sketch_eq]
  exact hs.setBacking _

/-- Sketches that agree have the same parameters and boundaries. -/
lemma sameShape (hagree : h.Agrees r) : h.sketch.SameShape r.sketch := by
  rw [hagree.sketch_eq]
  exact ⟨rfl, rfl, rfl, rfl⟩

/-- A refused command keeps the agreement. -/
lemma unchanged (hagree : h.Agrees r) (hr : r.Unchanged r') : h.Agrees r' := by
  obtain ⟨hsketch, -, hcoin⟩ := hr.same
  refine ⟨hagree.coin_eq.trans hcoin.symm, ?_⟩
  rw [hsketch]
  exact hagree.sketch_eq

variable [Item α]

/-- Growth in both sessions keeps the agreement. -/
lemma grow (hagree : h.Agrees r) (hh : h.grow = .done h') (hr : r.grow = .done r') :
    h'.Agrees r' := by
  obtain ⟨-, -, _, _, -, -, -, hcoin, -⟩ := grow_eq_done hh
  obtain ⟨-, -, _, _, -, -, -, hcoin', -⟩ := grow_eq_done hr
  obtain ⟨delta, hgrown, hgrown'⟩ := exists_grown_of_sameShape hagree.sameShape hh hr
  rw [hagree.sketch_eq] at hgrown
  refine ⟨hcoin.trans (hagree.coin_eq.trans hcoin'.symm), hgrown.trans ?_⟩
  rw [hgrown']
  rfl

variable [Coin γ]

/-- The compaction of the same level in both sessions keeps the agreement. -/
lemma compact {level : ℕ} (hagree : h.Agrees r) (hh : h.compact level = .done h')
    (hr : r.compact level = .done r') : h'.Agrees r' := by
  obtain ⟨span, hspan, hcompact, hcoin, -⟩ := compact_eq_done hh
  obtain ⟨span', hspan', hcompact', hcoin', -⟩ := compact_eq_done hr
  have hsame : h.sketch.span level = r.sketch.span level := by
    rw [hagree.sketch_eq]
    rfl
  rw [hsame, hspan', Except.ok.injEq] at hspan
  have hsketch := Sketch.compact_setBacking h.sketch.backing hcompact'
  rw [← hagree.sketch_eq, hspan, ← hagree.coin_eq, hcompact, Except.ok.injEq] at hsketch
  refine ⟨?_, ?_⟩
  · rw [hcoin, hcoin', hagree.coin_eq]
  · rw [hsketch]

/-- Freeing slots in both sessions keeps the agreement. -/
lemma compress (hagree : h.Agrees r) (hh : h.compress = .done h') (hr : r.compress = .done r') :
    h'.Agrees r' :=
  rel_of_compress hagree.sameShape hagree hagree.grow compact hh hr

/-- Feeding an item in both sessions keeps the agreement. -/
lemma update {x : α} (hagree : h.Agrees r) (hh : h.update x = .done h')
    (hr : r.update x = .done r') : h'.Agrees r' := by
  rcases (update_eq_done hh).2 with ⟨hnan, rfl⟩ | ⟨hnumber, -⟩
  · rcases (update_eq_done hr).2 with ⟨-, rfl⟩ | ⟨hnumber, -⟩
    · exact hagree
    · rw [hnan] at hnumber
      cases hnumber
  obtain ⟨between, hbetween, hsketch, hcoin, -⟩ := update_eq_done_of_number hnumber hh
  obtain ⟨between', hbetween', hsketch', hcoin', -⟩ := update_eq_done_of_number hnumber hr
  rw [hagree.sameShape.free_eq] at hbetween
  have hagree' : between.Agrees between' :=
    Outcome.rel_of_step_if hagree hbetween hbetween' fun _ => hagree.compress
  rw [hagree'.sketch_eq] at hsketch
  refine ⟨hcoin.trans (hagree'.coin_eq.trans hcoin'.symm), hsketch.trans ?_⟩
  rw [hsketch']
  rfl

/-- A command that is done in both sessions keeps the agreement. -/
theorem perform {c : Command α} (hagree : h.Agrees r) (hh : h.perform c = .done h')
    (hr : r.perform c = .done r') : h'.Agrees r' := by
  cases c with
  | update x => exact hagree.update hh hr
  | addEmptyTopLevel =>
    exact hagree.grow (addEmptyTopLevel_eq_done_iff.mp hh).2 (addEmptyTopLevel_eq_done_iff.mp hr).2

/-- What is done with a region is done without it. -/
theorem exists_done {c : Command α} (hagree : h.Agrees r) (hnone : h.sketch.backing = none)
    (hs : r.sketch.HasShape free populations) (hnumbers : r.sketch.HoldsNumbers)
    (hr : r.perform c = .done r') : ∃ h', h.perform c = .done h' := by
  have hreadOnly : h.sketch.readOnly = r.sketch.readOnly := by rw [hagree.sketch_eq]
  have hnumbers' : h.sketch.HoldsNumbers := by
    rw [hagree.sketch_eq]
    exact hnumbers
  have hrequest := Sketch.not_requestFails_of_backing_eq_none hnone
  exact exists_done_of_sameShape hagree.sameShape hreadOnly (fun hfails => absurd hfails hrequest)
    (hagree.shape hs) hs (Sketch.fits_of_backing_eq_none hnone)
    (Sketch.canReserve_of_backing_eq_none hnone) hnumbers' hr

end Agrees

variable [Coin γ] [Item α] {r₀ r r' r'' : Session γ α} {taken commands : List (Command α)}

/-! ### Runs -/

/-- One more command at the end of those that are all done. -/
lemma performAll_append_singleton {c : Command α} (h : performAll commands r = some r')
    (hc : r'.perform c = .done r'') : performAll (commands ++ [c]) r = some r'' := by
  induction commands generalizing r with
  | nil =>
    rw [performAll, Option.some.injEq] at h
    rw [List.nil_append, performAll, h, hc]
    rfl
  | cons first commands ih =>
    rw [performAll] at h
    split at h
    · rename_i between hfirst
      rw [List.cons_append, performAll, hfirst]
      exact ih h
    · cases h

/-- The commands that were done in a run are all done without a region, and the sessions agree in
the end. -/
theorem Run.exists_agreeing {h₀ : Session γ α} (hrun : r₀.Run taken r)
    (hwf : r₀.sketch.WellFormed) (hordered : r₀.sketch.Ordered) (hagree : h₀.Agrees r₀)
    (hnone : h₀.sketch.backing = none) :
    ∃ h, performAll taken h₀ = some h ∧ h.sketch.backing = none ∧ h.Agrees r := by
  induction hrun with
  | start => exact ⟨h₀, rfl, hnone, hagree⟩
  | done run step ih =>
    obtain ⟨h, hperformed, hnone, hagree⟩ := ih
    obtain ⟨free, populations, hs⟩ := run.wellFormed hwf
    obtain ⟨h', hdone⟩ := hagree.exists_done hnone hs (run.holdsNumbers hwf hordered) step
    have hbacking := perform_server (hagree.shape hs) hdone
    rw [hnone, Option.map_none, Option.map_eq_none_iff] at hbacking
    exact ⟨h', performAll_append_singleton hperformed hdone, hbacking, hagree.perform hdone step⟩
  | refused run step ih =>
    obtain ⟨h, hperformed, hnone, hagree⟩ := ih
    exact ⟨h, hperformed, hnone, hagree.unchanged (perform_eq_refused step)⟩

/-- Performs commands one after the other, also after some of them are refused, and tells which of
them were done. There is no result if a command aborts. -/
def performEach : List (Command α) → Session γ α → Option (List (Command α) × Session γ α)
  | [], r => some ([], r)
  | c :: commands, r =>
    match r.perform c with
    | .done r => (performEach commands r).map fun (taken, r) => (c :: taken, r)
    | .refused _ r => performEach commands r
    | .aborted _ _ => none

/-- The first of some commands is done or refused, and then the others are performed. -/
lemma performEach_cons_eq_some_iff {c : Command α} :
    performEach (c :: commands) r = some (taken, r'') ↔
      (∃ between rest, r.perform c = .done between ∧
        performEach commands between = some (rest, r'') ∧ taken = c :: rest) ∨
      ∃ error between, r.perform c = .refused error between ∧
        performEach commands between = some (taken, r'') := by
  rw [performEach]
  cases r.perform c with
  | done between =>
    simp only [Option.map_eq_some_iff, Prod.exists, Prod.mk.injEq, Outcome.done.injEq,
      reduceCtorEq, false_and, exists_false, or_false]
    constructor
    · rintro ⟨rest, last, hrest, rfl, rfl⟩
      exact ⟨between, rest, rfl, hrest, rfl⟩
    · rintro ⟨_, rest, rfl, hrest, rfl⟩
      exact ⟨rest, r'', hrest, rfl, rfl⟩
  | refused error between => simp
  | aborted abort log => simp

/-- Performing commands makes a run. -/
lemma Run.append_performEach {taken' : List (Command α)} (h : r₀.Run taken r)
    (h' : performEach commands r = some (taken', r')) : r₀.Run (taken ++ taken') r' := by
  induction commands generalizing taken taken' r with
  | nil =>
    rw [performEach, Option.some.injEq, Prod.mk.injEq] at h'
    obtain ⟨rfl, rfl⟩ := h'
    rw [List.append_nil]
    exact h
  | cons c commands ih =>
    rcases performEach_cons_eq_some_iff.mp h' with
      ⟨between, rest, hstep, hrest, rfl⟩ | ⟨error, between, hstep, hrest⟩
    · rw [List.append_cons]
      exact ih (h.done hstep) hrest
    · exact ih (h.refused hstep) hrest

/-- Performing commands makes a run from where they begin. -/
lemma run_of_performEach (h : performEach commands r = some (taken, r')) : r.Run taken r' :=
  Run.start.append_performEach h

/-- Commands are performed one part after the other. -/
lemma exists_performEach_of_append {first second : List (Command α)}
    (h : performEach (first ++ second) r = some (taken, r'')) :
    ∃ between taken₁ taken₂, performEach first r = some (taken₁, between) ∧
      performEach second between = some (taken₂, r'') ∧ taken = taken₁ ++ taken₂ := by
  induction first generalizing taken r with
  | nil => exact ⟨r, [], taken, rfl, h, rfl⟩
  | cons c first ih =>
    rcases performEach_cons_eq_some_iff.mp h with
      ⟨next, rest, hstep, hrest, rfl⟩ | ⟨error, next, hstep, hrest⟩
    · obtain ⟨between, taken₁, taken₂, hfirst, hsecond, rfl⟩ := ih hrest
      exact ⟨between, c :: taken₁, taken₂,
        performEach_cons_eq_some_iff.mpr (.inl ⟨next, taken₁, hstep, hfirst, rfl⟩), hsecond, rfl⟩
    · obtain ⟨between, taken₁, taken₂, hfirst, hsecond, htaken⟩ := ih hrest
      exact ⟨between, taken₁, taken₂,
        performEach_cons_eq_some_iff.mpr (.inr ⟨error, next, hstep, hfirst⟩), hsecond, htaken⟩

/-- Commands that are fewer than there are words never abort if the server answers. -/
theorem Run.exists_performEach {s : Sketch α} {coin : γ} (hs : s.Constructed)
    (hserver : ∀ b, s.backing = some b → b.server.Answers) (hrun : (begin s coin).Run taken r)
    (hlength : taken.length + commands.length < wordBound 64) :
    ∃ taken' r', performEach commands r = some (taken', r') := by
  induction commands generalizing taken r with
  | nil => exact ⟨[], r, rfl⟩
  | cons c commands ih =>
    rw [List.length_cons] at hlength
    have hwf := hs.wellFormed
    obtain ⟨free, populations, hshape⟩ := hrun.wellFormed hwf
    have hfits := hrun.fits hwf (Sketch.Opened.constructed hs).fits
    have hnumbers := hrun.holdsNumbers hwf hs.ordered
    have hn : r.sketch.n < maxWord64 := by
      have haccepted : (Command.accepted taken).length ≤ taken.length :=
        List.length_filterMap_le _ _
      rw [hrun.n_eq hs, maxWord64]
      omega
    have hserver' := hrun.forall_server hwf hserver
    rcases perform_completes c hshape hfits hn hnumbers hserver' with
      ⟨r', hdone⟩ | ⟨error, r', hrefused⟩
    · have hlength' : (taken ++ [c]).length + commands.length < wordBound 64 := by
        rw [List.length_append, List.length_singleton]
        omega
      obtain ⟨taken', last, h⟩ := ih (hrun.done hdone) hlength'
      exact ⟨c :: taken', last, performEach_cons_eq_some_iff.mpr (.inl ⟨r', taken', hdone, h, rfl⟩)⟩
    · obtain ⟨taken', last, h⟩ := ih (hrun.refused hrefused) (by omega)
      exact ⟨taken', last, performEach_cons_eq_some_iff.mpr (.inr ⟨error, r', hrefused, h⟩)⟩

/-- A sketch in a region comes to the same state as one without a region. Whatever the server
answers, and whatever is refused on the way, fewer commands than there are words all come to an end.
If just those that were done are given to a sketch without a region, with the same coin at the
beginning, all of them are done there too, and in the end the coins and the sketches are the same
up to the region. -/
theorem region_transparent {k m : ℕ} {region : Bytes} {server : RegionServer} (coin : γ)
    (hvalid : ParametersValid k m) (hroom : updatableSize 1 k (Item.width α) ≤ region.size)
    (hserver : server.Answers) (hlength : commands.length < wordBound 64) :
    ∃ (s s₀ : Sketch α) (taken : List (Command α)) (r h : Session γ α),
      Sketch.newInRegion k m region server = .ok s ∧ Sketch.withM k m = .ok s₀ ∧
        performEach commands (begin s coin) = some (taken, r) ∧
        performAll taken (begin s₀ coin) = some h ∧
        h.coin = r.coin ∧ h.sketch = { r.sketch with backing := none } := by
  obtain ⟨s, hs⟩ := Sketch.exists_newInRegion_eq_ok (α := α) server hvalid hroom
  have hconstructed : s.Constructed := .newInRegion hs
  obtain ⟨region', hstart⟩ := Sketch.newInRegion_eq hs
  have hserver' : ∀ b, s.backing = some b → b.server.Answers := by
    intro b hb
    rw [hstart, Option.some.injEq] at hb
    rw [← hb]
    exact hserver
  have hempty : (begin s coin).Run [] (begin s coin) := .start
  have hlength' : ([] : List (Command α)).length + commands.length < wordBound 64 := by
    rwa [List.length_nil, Nat.zero_add]
  obtain ⟨taken, r, hr⟩ := hempty.exists_performEach hconstructed hserver' hlength'
  have hrun := hempty.append_performEach hr
  have hagree : (begin (Sketch.empty k m) coin).Agrees (begin s coin) := by
    refine ⟨rfl, ?_⟩
    rw [begin, begin, hstart]
  obtain ⟨h, hperformed, hnone, hagree'⟩ :=
    hrun.exists_agreeing hconstructed.wellFormed hconstructed.ordered hagree rfl
  refine ⟨s, Sketch.empty k m, taken, r, h, hs, Sketch.withM_eq_ok_iff.mpr ⟨hvalid, rfl⟩, hr,
    hperformed, hagree'.coin_eq, ?_⟩
  rw [← hnone]
  exact hagree'.sketch_eq

/-- A server that first refuses, then hands out a region that is too short, and then a good one. Of
nine commands two are refused, and the sketch without a region is given the other seven. -/
theorem region_transparent_of_changing_server :
    ∃ (server : RegionServer) (s s₀ : Sketch Int32) (taken : List (Command Int32))
      (r h : Session Xorshift Int32),
      Sketch.newInRegion 4 2 (Array.replicate 52 9) server = .ok s ∧ Sketch.withM 4 2 = .ok s₀ ∧
        performEach [.update 5, .update 7, .update 6, .update 8, .update 1, .addEmptyTopLevel,
          .update 1, .update 2, .update 4] (begin s (Xorshift.ofSeed 1)) = some (taken, r) ∧
        taken.length = 7 ∧
        performAll taken (begin s₀ (Xorshift.ofSeed 1)) = some h ∧
        h.coin = r.coin ∧ h.sketch = { r.sketch with backing := none } := by
  let server : RegionServer := fun i _ required =>
    if i = 0 then .error (.refused (.ofMessage .reallocationFailed "no larger region"))
    else if i = 1 then .ok #[] else .ok (Array.replicate required 0)
  let commands : List (Command Int32) :=
    [.update 5, .update 7, .update 6, .update 8, .update 1, .addEmptyTopLevel, .update 1, .update 2,
      .update 4]
  have hserver : server.Answers := by
    intro i region required abort _
    simp only [server]
    split
    · simp
    · split <;> simp
  have hvalid : ParametersValid 4 2 := by decide
  have hroom : updatableSize 1 4 (Item.width Int32) ≤ (Array.replicate 52 9 : Bytes).size := by
    decide
  have hlength : commands.length < wordBound 64 := by decide
  obtain ⟨s, s₀, taken, r, h, hs, hs₀, hr, hperformed, hsame⟩ :=
    region_transparent (Xorshift.ofSeed 1) hvalid hroom hserver hlength
  have htaken : ((Sketch.newInRegion 4 2 (Array.replicate 52 9) server).toOption.bind
      fun s : Sketch Int32 => performEach commands (begin s (Xorshift.ofSeed 1))).map
        (fun result => result.1.length) = some 7 := by
    decide +kernel
  rw [toOption_eq_some_iff.mpr hs, Option.bind_some, hr] at htaken
  exact ⟨server, s, s₀, taken, r, h, hs, hs₀, hr, Option.some.inj htaken, hperformed, hsame⟩

end Session

end QuantileSketch
