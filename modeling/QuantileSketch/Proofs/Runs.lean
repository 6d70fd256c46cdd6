import QuantileSketch.Proofs.Shape
import QuantileSketch.Proofs.Steps
import QuantileSketch.Sketch.Open

/-!
# Runs of a session

A run performs any commands, one after the other. A command that is done takes part in what the
sketch stands for, and one that is refused does not. A run ends with the session that is there after
the last command; no run goes on after an abort.

Seen from the contents of the sketch a run consists of elementary changes: the region changes, a
level is added, a level is compacted, an item is inserted (`Changes`). `Run.changes` says that every
run of a well-formed sketch is made of such changes, so that whatever they all preserve holds after
every run.
-/

namespace QuantileSketch

/-- The commands that change a sketch. -/
inductive Command (α : Type) where
  /-- Feed an item. -/
  | update (x : α)
  /-- Add an empty level on top. -/
  | addEmptyTopLevel

namespace Command

variable {α : Type} [Item α]

/-- The item that a command adds to the stream, unless it is no number. -/
def item? : Command α → Option α
  | update x => if Item.isNaN x then none else some x
  | addEmptyTopLevel => none

/-- The items that some commands add to the stream. -/
def accepted (commands : List (Command α)) : List α := commands.filterMap item?

/-- The first item, if there is one, and those of the other commands. -/
lemma accepted_cons (c : Command α) (commands : List (Command α)) :
    accepted (c :: commands) = c.item?.toList ++ accepted commands := by
  cases h : c.item? <;> simp [accepted, h]

/-- The items of commands that are performed one after the other. -/
lemma accepted_append (commands : List (Command α)) (c : Command α) :
    accepted (commands ++ [c]) = accepted commands ++ c.item?.toList := by
  rw [accepted, List.filterMap_append]
  cases h : c.item? <;> simp [accepted, h]

end Command

namespace Session

variable {γ α : Type} [Coin γ] [Item α]

/-- Performs a command. -/
def perform : Command α → Session γ α → Outcome (Session γ α)
  | .update x, r => r.update x
  | .addEmptyTopLevel, r => r.addEmptyTopLevel

/-- A command that is refused leaves everything as it was. -/
theorem perform_eq_refused {c : Command α} {r r' : Session γ α} {error : Error}
    (h : r.perform c = .refused error r') : r.Unchanged r' := by
  cases c with
  | update x => exact update_eq_refused h
  | addEmptyTopLevel => exact addEmptyTopLevel_eq_refused h

/-- A run from the session `r₀`. The commands `taken` were done, others were refused in between. -/
inductive Run (r₀ : Session γ α) : List (Command α) → Session γ α → Prop where
  | start : Run r₀ [] r₀
  | done {taken : List (Command α)} {c : Command α} {r r' : Session γ α} (run : Run r₀ taken r)
      (step : r.perform c = .done r') : Run r₀ (taken ++ [c]) r'
  | refused {taken : List (Command α)} {c : Command α} {error : Error} {r r' : Session γ α}
      (run : Run r₀ taken r) (step : r.perform c = .refused error r') : Run r₀ taken r'

/-- Performs commands one after the other, as long as all of them are done. -/
def performAll : List (Command α) → Session γ α → Option (Session γ α)
  | [], r => some r
  | c :: commands, r =>
    match r.perform c with
    | .done r => performAll commands r
    | _ => none

/-- Commands that are all done make a run. -/
lemma Run.append_performAll {taken commands : List (Command α)} {r₀ r r' : Session γ α}
    (h : r₀.Run taken r) (h' : performAll commands r = some r') :
    r₀.Run (taken ++ commands) r' := by
  induction commands generalizing taken r with
  | nil =>
    rw [performAll, Option.some.injEq] at h'
    rw [List.append_nil, ← h']
    exact h
  | cons c commands ih =>
    rw [performAll] at h'
    split at h'
    · rename_i hstep
      rw [List.append_cons]
      exact ih (h.done hstep) h'
    · cases h'

/-- Commands that are all done make a run from where they begin. -/
lemma run_of_performAll {commands : List (Command α)} {r r' : Session γ α}
    (h : performAll commands r = some r') : r.Run commands r' :=
  Run.start.append_performAll h

end Session

namespace Sketch

variable {α : Type} [Item α]

/-- A sketch of an empty stream, made by one of the constructors. -/
inductive Constructed : Sketch α → Prop where
  | new {k : ℕ} {s : Sketch α} (h : Sketch.new k = .ok s) : Constructed s
  | withM {k m : ℕ} {s : Sketch α} (h : Sketch.withM k m = .ok s) : Constructed s
  | newInRegion {k m : ℕ} {region : Bytes} {server : RegionServer} {s : Sketch α}
      (h : Sketch.newInRegion k m region server = .ok s) : Constructed s

/-- A sketch as it first comes to hand, constructed or opened from some bytes. -/
inductive Opened : Sketch α → Prop where
  | constructed {s : Sketch α} (h : Constructed s) : Opened s
  | read {bytes : Bytes} {s : Sketch α} (h : Sketch.read bytes = .ok s) : Opened s
  | wrap {bytes : Bytes} {s : Sketch α} (h : Sketch.wrap bytes = .ok s) : Opened s
  | wrapInRegion {region : Bytes} {server : RegionServer} {s : Sketch α}
      (h : Sketch.wrapInRegion region server = .ok s) : Opened s

end Sketch

namespace Session

variable {γ α : Type}

/-- The session with a sketch and a coin in which nothing has happened yet. -/
def begin (s : Sketch α) (coin : γ) : Session γ α := { sketch := s, coin }

/-- A session that some run comes to from a sketch that was constructed or opened. -/
def Reachable [Coin γ] [Item α] (r : Session γ α) : Prop :=
  ∃ (s : Sketch α) (coin : γ) (taken : List (Command α)), s.Opened ∧ (begin s coin).Run taken r

/-- Commands that are all done on the sketch in an image make a run from it. What is computed from
the sketch and from the end of the run is given as one equation. -/
lemma exists_run_of_read [Coin γ] [Item α] {β : Type} {bytes : Bytes} {coin : γ}
    {commands : List (Command α)} {f : Sketch α → Session γ α → β} {b : β}
    (h : ((Sketch.read bytes).toOption.bind fun s =>
      (performAll commands (begin s coin)).map (f s)) = some b) :
    ∃ s r, Sketch.read bytes = .ok s ∧ (begin s coin).Run commands r ∧ f s r = b := by
  obtain ⟨s, hs, h⟩ := Option.bind_eq_some_iff.mp h
  obtain ⟨r, hr, h⟩ := Option.map_eq_some_iff.mp h
  exact ⟨s, r, toOption_eq_some_iff.mp hs, run_of_performAll hr, h⟩

/-! ### Steps and shapes -/

section Shapes

variable [Item α] {r r' : Session γ α} {free : ℕ} {populations : List ℕ}

omit [Item α] in
/-- The new level 0 of a well-formed sketch has a capacity. -/
lemma growth_eq_ok (hs : r.sketch.HasShape free populations) (h : r.sketch.numLevels < maxLevels) :
    levelCapacity r.sketch.k (r.sketch.numLevels + 1) 0 r.sketch.m = .ok r.growth := by
  rw [hs.numLevels_eq] at h
  rw [hs.levelCapacity_eq_ok h, growth, hs.numLevels_eq]

/-- What growth of a well-formed sketch does, with the number of slots that open known. -/
theorem grow_eq_done_growth (hs : r.sketch.HasShape free populations) (h : r.grow = .done r') :
    ∃ backing,
      Reserved (updatableSize (r.sketch.grown r.growth).numLevels
        (r.sketch.grown r.growth).capacity (Item.width α)) r.sketch.backing backing ∧
      Sketch.sync { r.sketch.grown r.growth with backing } = .ok r'.sketch := by
  obtain ⟨-, hbelow, delta, backing, hdelta, hreserved, hsync, -, -⟩ := grow_eq_done h
  obtain rfl : r.growth = delta := Except.ok.inj ((growth_eq_ok hs hbelow).symm.trans hdelta)
  exact ⟨backing, hreserved, hsync⟩

/-- A well-formed sketch grows by the slots of a level at the new depth of level 0, and nothing else
of it changes but the region it is kept in. -/
theorem grow_sketch_eq (hs : r.sketch.HasShape free populations) (h : r.grow = .done r') :
    r'.sketch = { r.sketch.grown r.growth with backing := r'.sketch.backing } := by
  obtain ⟨backing, -, hsync⟩ := grow_eq_done_growth hs h
  have hsketch := Sketch.sync_eq hsync
  exact hsketch

/-- Growth adds an empty level, and as many slots open as the new level 0 has room for. -/
theorem grow_shape (hs : r.sketch.HasShape free populations) (h : r.grow = .done r') :
    populations.length < maxLevels ∧ r'.sketch.HasShape r.growth (populations ++ [0]) := by
  obtain ⟨hfull, hbelow, -⟩ := grow_eq_done h
  rw [hs.free_eq] at hfull
  rw [hs.numLevels_eq] at hbelow
  have hgrowth : r.growth = capacityAt r.sketch.k r.sketch.m populations.length := by
    rw [growth, hs.numLevels_eq]
  have hshape := hs.grown hbelow
  rw [hfull, Nat.zero_add, ← hgrowth] at hshape
  refine ⟨hbelow, ?_⟩
  rw [grow_sketch_eq hs h]
  exact hshape.setBacking r'.sketch.backing

variable [Coin γ]

/-- To free slots the lowest level at its capacity is compacted, after growth if this is the top
level. So there is another level above it, and it holds at least two items. -/
theorem exists_compacted_level (hs : r.sketch.HasShape 0 populations) (h : r.compress = .done r') :
    ∃ between free lower here above upper,
      firstFullLevel r.sketch.k r.sketch.m r.sketch.numLevels r.sketch.levels =
        .ok (some lower.length) ∧
      (if lower.length + 1 = r.sketch.numLevels then r.grow = .done between else between = r) ∧
      between.sketch.HasShape free (lower ++ here :: above :: upper) ∧ 2 ≤ here ∧
      between.compact lower.length = .done r' := by
  obtain ⟨level, between, hlevel, hbetween, hcompact⟩ := compress_eq_done_iff.mp h
  obtain ⟨lower, here, upper, rfl, hfull, htwo, -, -⟩ := hs.exists_full
  rw [hlevel, Except.ok.injEq, Option.some.injEq] at hfull
  rw [hfull] at hlevel hbetween hcompact
  rw [hs.numLevels_eq] at hbetween ⊢
  rcases upper with _ | ⟨above, upper⟩
  · -- the top level is full, and the new one takes its items
    have htop : lower.length + 1 = (lower ++ [here]).length := by simp
    have hgrow := hbetween
    rw [if_pos htop] at hgrow
    have hshape := (grow_shape hs hgrow).2
    rw [List.append_assoc] at hshape
    rw [hs.numLevels_eq] at hlevel
    exact ⟨between, r.growth, lower, here, 0, [], hlevel, hbetween, hshape, htwo, hcompact⟩
  · have hbelow : ¬lower.length + 1 = (lower ++ here :: above :: upper).length := by
      rw [List.length_append, List.length_cons, List.length_cons]
      omega
    have hsame := hbetween
    rw [if_neg hbelow] at hsame
    rw [hs.numLevels_eq] at hlevel
    refine ⟨between, 0, lower, here, above, upper, hlevel, hbetween, ?_, htwo, hcompact⟩
    rw [hsame]
    exact hs

/-- To free slots a level is compacted that has another one above it, after growth if need be. It
holds at least two items. -/
theorem compress_shape (hs : r.sketch.HasShape 0 populations) (h : r.compress = .done r') :
    ∃ between free lower here above upper,
      (between = r ∨ r.sketch.MustGrow ∧ r.grow = .done between) ∧
      between.sketch.HasShape free (lower ++ here :: above :: upper) ∧ 2 ≤ here ∧
      between.compact lower.length = .done r' := by
  obtain ⟨between, free, lower, here, above, upper, hlevel, hbetween, hshape, htwo, hcompact⟩ :=
    exists_compacted_level hs h
  refine ⟨between, free, lower, here, above, upper, ?_, hshape, htwo, hcompact⟩
  split at hbetween
  · rename_i htop
    rw [Nat.eq_sub_of_add_eq htop] at hlevel
    exact .inr ⟨⟨hs.free_eq, hlevel⟩, hbetween⟩
  · exact .inl hbetween

/-- A compaction of a level with another one above it, told by the shape. -/
theorem compact_shape {lower upper : List ℕ} {here above : ℕ}
    (hs : r.sketch.HasShape free (lower ++ here :: above :: upper))
    (h : r.compact lower.length = .done r') :
    r.sketch.compact (Sketch.spanAt free lower here above) (Coin.toss r.coin).1 = .ok r'.sketch ∧
      r'.coin = (Coin.toss r.coin).2 ∧ r'.compactions = r.compactions ++ [lower.length] := by
  obtain ⟨span, hspan, hcompact, hcoin, hcompactions⟩ := compact_eq_done h
  rw [Sketch.span_eq_ok hs.levels_eq, Except.ok.injEq] at hspan
  exact ⟨hspan ▸ hcompact, hcoin, hcompactions⟩

/-- Once slots have been freed there is a free one. -/
theorem compress_freed (hs : r.sketch.HasShape 0 populations) (h : r.compress = .done r') :
    ∃ free populations, r'.sketch.HasShape free populations ∧ 0 < free := by
  obtain ⟨between, free, lower, here, above, upper, -, hshape, hhere, hcompact⟩ :=
    compress_shape hs h
  refine ⟨_, _, hshape.compacted (compact_shape hshape hcompact).1, ?_⟩
  omega

end Shapes

/-! ### Elementary changes -/

variable [Coin γ] [Item α]

/-- The changes that lead from the session `r₀` to another one, in which the items `fed` were
inserted. -/
inductive Changes (r₀ : Session γ α) : List α → Session γ α → Prop where
  | start : Changes r₀ [] r₀
  /-- The region changes. -/
  | moved {fed : List α} {r r' : Session γ α} (changes : Changes r₀ fed r)
      (backing : Option Backing) (sketch_eq : r'.sketch = { r.sketch with backing })
      (coin_eq : r'.coin = r.coin) (compactions_eq : r'.compactions = r.compactions) :
      Changes r₀ fed r'
  /-- A full sketch grows by a level. -/
  | grown {fed : List α} {r r' : Session γ α} (changes : Changes r₀ fed r)
      (full : r.sketch.free = 0) (below : r.sketch.numLevels < maxLevels)
      (sketch_eq : r'.sketch = r.sketch.grown r.growth)
      (coin_eq : r'.coin = r.coin) (compactions_eq : r'.compactions = r.compactions) :
      Changes r₀ fed r'
  /-- A level is compacted with the next bit of the coin. -/
  | compacted {fed : List α} {r r' : Session γ α} {free here above : ℕ} {lower upper : List ℕ}
      (changes : Changes r₀ fed r)
      (shape : r.sketch.HasShape free (lower ++ here :: above :: upper)) (two_le : 2 ≤ here)
      (sketch_eq : r.sketch.compact (Sketch.spanAt free lower here above) (Coin.toss r.coin).1 =
        .ok r'.sketch)
      (coin_eq : r'.coin = (Coin.toss r.coin).2)
      (compactions_eq : r'.compactions = r.compactions ++ [lower.length]) :
      Changes r₀ fed r'
  /-- An item is inserted into a free slot. -/
  | inserted {fed : List α} {x : α} {r r' : Session γ α} (changes : Changes r₀ fed r)
      (isNumber : Item.isNaN x = false) (sketch_eq : r.sketch.insert x = .ok r'.sketch)
      (coin_eq : r'.coin = r.coin) (compactions_eq : r'.compactions = r.compactions) :
      Changes r₀ (fed ++ [x]) r'

namespace Changes

variable {r₀ r r' : Session γ α} {fed : List α}

/-- Elementary changes keep a sketch well formed. -/
theorem wellFormed (h : r₀.Changes fed r) (h₀ : r₀.sketch.WellFormed) : r.sketch.WellFormed := by
  induction h with
  | start => exact h₀
  | moved _ backing hsketch _ _ ih =>
    obtain ⟨free, populations, hs⟩ := ih
    rw [hsketch]
    exact ⟨free, populations, hs.setBacking backing⟩
  | grown _ _ hbelow hsketch _ _ ih =>
    obtain ⟨free, populations, hs⟩ := ih
    rw [hs.numLevels_eq] at hbelow
    rw [hsketch, growth, hs.numLevels_eq]
    exact ⟨_, _, hs.grown hbelow⟩
  | compacted _ hshape _ hcompact _ _ _ => exact ⟨_, _, hshape.compacted hcompact⟩
  | inserted _ _ hinsert _ _ ih =>
    obtain ⟨free, populations, hs⟩ := ih
    obtain ⟨_, _, _, -, -, -, hshape⟩ := hs.inserted hinsert
    exact ⟨_, _, hshape⟩

/-- Elementary changes keep the parameters, and the stream becomes longer by the items that are
inserted. -/
theorem parameters_eq (h : r₀.Changes fed r) :
    r.sketch.k = r₀.sketch.k ∧ r.sketch.m = r₀.sketch.m ∧
      r.sketch.readOnly = r₀.sketch.readOnly ∧ r.sketch.n = r₀.sketch.n + fed.length := by
  induction h with
  | start => exact ⟨rfl, rfl, rfl, rfl⟩
  | moved _ backing hsketch _ _ ih =>
    rw [hsketch]
    exact ih
  | grown _ _ _ hsketch _ _ ih =>
    rw [hsketch]
    exact ih
  | compacted _ _ _ hcompact _ _ ih =>
    obtain ⟨levels, items, hsketch⟩ := Sketch.compact_eq hcompact
    rw [hsketch]
    exact ih
  | inserted _ _ hinsert _ _ ih =>
    obtain ⟨-, -, -, -, hsketch⟩ := Sketch.insert_eq_ok_iff.mp hinsert
    obtain ⟨hk, hm, hreadOnly, hn⟩ := ih
    rw [← hsketch, List.length_append, List.length_singleton, ← Nat.add_assoc, ← hn]
    exact ⟨hk, hm, hreadOnly, rfl⟩

/-- A refused command is a change of the region. -/
lemma unchanged (h : r₀.Changes fed r) (h' : r.Unchanged r') : r₀.Changes fed r' := by
  rcases h'.sketch_eq with hsketch | ⟨b, -, hsketch⟩
  · exact h.moved r.sketch.backing hsketch h'.coin_eq h'.compactions_eq
  · exact h.moved (some b.asked) hsketch h'.coin_eq h'.compactions_eq

/-- Growth is made of elementary changes. -/
lemma grow (h : r₀.Changes fed r) (hwf : r.sketch.WellFormed) (hgrow : r.grow = .done r') :
    r₀.Changes fed r' := by
  obtain ⟨free, populations, hs⟩ := hwf
  obtain ⟨hfull, hbelow, _, _, -, -, -, hcoin, hcompactions⟩ := grow_eq_done hgrow
  have hlevel : r₀.Changes fed ⟨r.sketch.grown r.growth, r.coin, r.log⟩ :=
    h.grown hfull hbelow rfl rfl rfl
  exact hlevel.moved r'.sketch.backing (grow_sketch_eq hs hgrow) hcoin hcompactions

/-- Freeing slots is made of elementary changes. -/
lemma compress {populations : List ℕ} (h : r₀.Changes fed r)
    (hs : r.sketch.HasShape 0 populations) (hcompress : r.compress = .done r') :
    r₀.Changes fed r' := by
  obtain ⟨between, free, lower, here, above, upper, hbetween, hshape, htwo, hcompact⟩ :=
    compress_shape hs hcompress
  have hchanges : r₀.Changes fed between := by
    rcases hbetween with rfl | ⟨-, hgrow⟩
    · exact h
    · exact h.grow ⟨_, _, hs⟩ hgrow
  obtain ⟨hsketch, hcoin, hcompactions⟩ := compact_shape hshape hcompact
  exact hchanges.compacted hshape htwo hsketch hcoin hcompactions

/-- Freeing slots if there is none is made of elementary changes. -/
lemma compress_if (h : r₀.Changes fed r) (hwf : r.sketch.WellFormed)
    (h' : if r.sketch.free = 0 then r.compress = .done r' else r' = r) : r₀.Changes fed r' := by
  obtain ⟨free, populations, hs⟩ := hwf
  rw [hs.free_eq] at h'
  split at h'
  · rename_i hfull
    exact h.compress (hfull ▸ hs) h'
  · rw [h']
    exact h

/-- Every command that is done is made of elementary changes. -/
theorem perform {c : Command α} (h : r₀.Changes fed r) (hwf : r.sketch.WellFormed)
    (hperform : r.perform c = .done r') : r₀.Changes (fed ++ c.item?.toList) r' := by
  obtain ⟨free, populations, hs⟩ := hwf
  cases c with
  | addEmptyTopLevel =>
    rw [Command.item?, Option.toList_none, List.append_nil]
    exact h.grow ⟨_, _, hs⟩ (addEmptyTopLevel_eq_done_iff.mp hperform).2
  | update x =>
    rcases (update_eq_done hperform).2 with
      ⟨hnan, rfl⟩ | ⟨hnumber, between, s, hbetween, hinsert, hwrite, hcoin, hcompactions⟩
    · rw [Command.item?, if_pos hnan, Option.toList_none, List.append_nil]
      exact h
    · have hchanges := h.compress_if ⟨free, populations, hs⟩ hbetween
      have hinserted : r₀.Changes (fed ++ [x]) ⟨s, between.coin, between.log⟩ :=
        hchanges.inserted hnumber hinsert rfl rfl
      rw [Command.item?, hnumber]
      exact hinserted.moved r'.sketch.backing (Sketch.write_eq hwrite) hcoin hcompactions

end Changes

/-- A number that is fed makes the stream longer, whose length was below the largest word. -/
lemma update_n {x : α} {r r' : Session γ α} (hwf : r.sketch.WellFormed)
    (hnumber : Item.isNaN x = false) (h : r.update x = .done r') :
    r'.sketch.n = r.sketch.n + 1 ∧ r.sketch.n < maxWord64 := by
  have hchanges : r.Changes ([] ++ (Command.update x).item?.toList) r' :=
    Changes.start.perform (c := .update x) hwf h
  have hitem : (Command.update x).item?.toList = [x] := by
    rw [Command.item?, hnumber]
    rfl
  obtain ⟨-, -, -, hn⟩ := hchanges.parameters_eq
  rw [hitem, List.nil_append, List.length_singleton] at hn
  obtain ⟨_, _, hs⟩ := hchanges.wellFormed hwf
  have hword : r'.sketch.n ≤ maxWord64 := hs.saturate_eq ▸ saturate_le _
  omega

/-- A run of a well-formed sketch is made of elementary changes, and the items that were inserted
are those that were accepted. -/
theorem Run.changes {r₀ r : Session γ α} {taken : List (Command α)} (h : r₀.Run taken r)
    (h₀ : r₀.sketch.WellFormed) : r₀.Changes (Command.accepted taken) r := by
  induction h with
  | start => exact .start
  | done run step ih =>
    rw [Command.accepted_append]
    exact ih.perform (ih.wellFormed h₀) step
  | refused run step ih => exact ih.unchanged (perform_eq_refused step)

/-- A run keeps a sketch well formed. -/
theorem Run.wellFormed {r₀ r : Session γ α} {taken : List (Command α)} (h : r₀.Run taken r)
    (h₀ : r₀.sketch.WellFormed) : r.sketch.WellFormed :=
  (h.changes h₀).wellFormed h₀

end Session

end QuantileSketch
