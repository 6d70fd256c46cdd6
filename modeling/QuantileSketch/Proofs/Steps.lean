import QuantileSketch.Proofs.Changes
import QuantileSketch.Proofs.Regions
import QuantileSketch.Session.Update

/-!
# How the steps of a session end

For each operation of a session this says once what it has done if it is done, and what it has left
if it is refused. A refused operation leaves everything as it was but for the count of the requests
that were made (`Unchanged`).

Which levels were compacted is read off the events of the session (`Session.compactions`).
-/

namespace QuantileSketch

/-- The level that an event reports to be compacted. -/
def Event.compactedLevel? : Event → Option ℕ
  | .compacting level _ _ => some level
  | _ => none

namespace Outcome

variable {σ : Type} {outcome : Outcome σ} {next : σ → Outcome σ}

/-- The state after a step, if it is done. -/
def done? : Outcome σ → Option σ
  | done state => some state
  | _ => none

/-- There is a state after just the steps that are done. -/
lemma done?_eq_some_iff {state : σ} : outcome.done? = some state ↔ outcome = .done state := by
  cases outcome <;> simp [done?]

/-- Two steps are done if both are. -/
lemma andThen_eq_done_iff {state : σ} :
    outcome.andThen next = .done state ↔
      ∃ between, outcome = .done between ∧ next between = .done state := by
  cases outcome <;> simp

/-- Two steps are refused if the first is or the second is after it. -/
lemma andThen_eq_refused_iff {error : Error} {state : σ} :
    outcome.andThen next = .refused error state ↔
      outcome = .refused error state ∨
        ∃ between, outcome = .done between ∧ next between = .refused error state := by
  cases outcome <;> simp

/-- A step that both of two related states take or neither takes leaves them related if it does so
when it is taken. -/
lemma rel_of_step_if {τ : Type} {R : σ → τ → Prop} {p : Prop} [Decidable p] {outcome' : Outcome τ}
    {a a' : σ} {b b' : τ} (hrel : R a b) (ha : if p then outcome = .done a' else a' = a)
    (hb : if p then outcome' = .done b' else b' = b)
    (hstep : p → outcome = .done a' → outcome' = .done b' → R a' b') : R a' b' := by
  by_cases hp : p
  · rw [if_pos hp] at ha hb
    exact hstep hp ha hb
  · rw [if_neg hp] at ha hb
    rw [ha, hb]
    exact hrel

end Outcome

namespace Session

variable {γ α : Type}

/-- The levels that have been compacted, in order. -/
def compactions (r : Session γ α) : List ℕ := r.log.toList.filterMap Event.compactedLevel?

/-- What is left of a session by a refusal: only the requests to the server have been counted. -/
structure Unchanged (r r' : Session γ α) : Prop where
  coin_eq : r'.coin = r.coin
  compactions_eq : r'.compactions = r.compactions
  sketch_eq : r'.sketch = r.sketch ∨
    ∃ b, r.sketch.backing = some b ∧ r'.sketch = { r.sketch with backing := some b.asked }

/-- A session is unchanged by nothing. -/
lemma Unchanged.refl (r : Session γ α) : r.Unchanged r := ⟨rfl, rfl, .inl rfl⟩

/-- The compactions after another event. -/
lemma compactions_push (sketch : Sketch α) (coin : γ) (log : Array Event) (event : Event) :
    compactions ⟨sketch, coin, log.push event⟩ =
      compactions ⟨sketch, coin, log⟩ ++ event.compactedLevel?.toList := by
  rw [compactions, Array.toList_push, List.filterMap_append]
  cases h : event.compactedLevel? <;> simp [compactions, h]

/-- Replacing the sketch is done if the new one can be computed. -/
lemma change_eq_done_iff {f : Sketch α → Except Abort (Sketch α)} {r r' : Session γ α} :
    r.change f = .done r' ↔
      f r.sketch = .ok r'.sketch ∧ r'.coin = r.coin ∧ r'.log = r.log := by
  obtain ⟨sketch, coin, log⟩ := r
  obtain ⟨sketch', coin', log'⟩ := r'
  cases h : f sketch <;> simp [change, h, eq_comm]

/-- Replacing the sketch is never refused. -/
lemma change_ne_refused {f : Sketch α → Except Abort (Sketch α)} {r r' : Session γ α}
    {error : Error} : r.change f ≠ .refused error r' := by
  obtain ⟨sketch, coin, log⟩ := r
  cases h : f sketch <;> simp [change, h]

/-! ### Reserving -/

/-- The region that is installed has the size of the one that was handed out. -/
lemma installRegion_eq_ok {region : Bytes} {s s' : Sketch α} {b : Backing}
    (hb : s.backing = some b) (h : installRegion region s = .ok s') :
    ∃ region' : Bytes, region'.size = region.size ∧
      s' = { s with backing := some (b.setRegion region') } := by
  obtain ⟨hnone, -⟩ | ⟨b', region', hb', hregion, rfl⟩ := Sketch.mapRegion_eq_ok_iff.mp h
  · rw [hnone] at hb
    cases hb
  · obtain rfl : b = b' := Option.some.inj (hb.symm.trans hb')
    obtain ⟨_, -, hsplice⟩ := bind_eq_ok_iff.mp hregion
    obtain ⟨-, rfl⟩ := splice_eq_ok_iff.mp hsplice
    exact ⟨_, size_overwrite _ _ _, rfl⟩

/-- The region that a server hands out is long enough. -/
lemma request_eq_ok_iff {b : Backing} {required : ℕ} {region : Bytes} :
    b.request required = .ok region ↔
      b.server b.requests b.region required = .ok region ∧ required ≤ region.size := by
  unfold Backing.request
  rcases hserver : b.server b.requests b.region required with (error | abort) | answer
  · simp
  · simp
  · dsimp only
    rw [bind_eq_ok_iff]
    constructor
    · rintro ⟨_, hlong, h⟩
      rw [pure_eq_ok_iff] at h
      rw [liftRefusal_eq_ok_iff, Cause.unless_eq_ok_iff, h] at hlong
      exact ⟨congrArg Except.ok h, hlong⟩
    · rintro ⟨h, hlong⟩
      rw [← Except.ok.inj h] at hlong ⊢
      exact ⟨(), liftRefusal_eq_ok_iff.mpr (Cause.unless_eq_ok_iff.mpr hlong), rfl⟩

/-- After a reservation the region is long enough, and nothing else has changed. -/
theorem reserve_eq_done {required : ℕ} {r r' : Session γ α} (h : r.reserve required = .done r') :
    ∃ backing, Reserved required r.sketch.backing backing ∧
      r'.sketch = { r.sketch with backing } ∧ r'.coin = r.coin ∧
      r'.compactions = r.compactions := by
  unfold reserve at h
  split at h
  · rename_i hb
    cases h
    exact ⟨none, by rw [hb]; exact .none, by rw [← hb], rfl, rfl⟩
  · rename_i b hb
    split at h
    · rename_i hroom
      cases h
      exact ⟨some b, by rw [hb]; exact .kept hroom, by rw [← hb], rfl, rfl⟩
    · rename_i hshort
      dsimp only at h
      split at h
      · cases h
      · cases h
      · rename_i region hrequest
        obtain ⟨hinstall, hcoin, hlog⟩ := change_eq_done_iff.mp h
        obtain ⟨hanswer, hlong⟩ := request_eq_ok_iff.mp hrequest
        obtain ⟨region', hsize, hsketch⟩ := installRegion_eq_ok rfl hinstall
        refine ⟨_, ?_, hsketch, hcoin, ?_⟩
        · rw [hb]
          exact .replaced hanswer hsize (not_le.mp hshort) (hsize ▸ hlong)
        · rw [compactions, hlog]
          exact (compactions_push _ r.coin r.log _).trans (List.append_nil _)

/-- A reservation that is refused leaves everything as it was. -/
theorem reserve_eq_refused {required : ℕ} {r r' : Session γ α} {error : Error}
    (h : r.reserve required = .refused error r') : r.Unchanged r' := by
  unfold reserve at h
  split at h
  · cases h
  · rename_i b hb
    split at h
    · cases h
    · dsimp only at h
      split at h
      · cases h
        refine ⟨rfl, ?_, .inr ⟨b, hb, rfl⟩⟩
        exact (compactions_push _ r.coin r.log _).trans (List.append_nil _)
      · cases h
      · exact absurd h change_ne_refused

/-! ### Growing -/

section Growth

variable [Item α]

/-- The number of slots that open when a sketch grows by a level. -/
def growth (r : Session γ α) : ℕ := capacityAt r.sketch.k r.sketch.m r.sketch.numLevels

/-- Growth is done if there is room for another level and for the larger image, or the region can be
replaced by one that is long enough. -/
theorem grow_eq_done_iff {r r' : Session γ α} :
    r.grow = .done r' ↔
      r.sketch.free = 0 ∧ r.sketch.items.size = r.sketch.capacity ∧
        r.sketch.numLevels < maxLevels ∧
        ∃ delta grown reserved, r.sketch.enlarged = .ok (delta, grown) ∧
          r.reserve (updatableSize grown.numLevels grown.capacity (Item.width α)) =
            .done reserved ∧
          Sketch.sync { grown with backing := reserved.sketch.backing } = .ok r'.sketch ∧
          r'.coin = reserved.coin ∧
          r'.log = reserved.log.push
            (.newTopLevel r.sketch.k grown.numLevels delta grown.capacity) := by
  constructor
  · intro h
    unfold grow at h
    dsimp only at h
    split at h
    · cases h
    rename_i hfree
    split at h
    · cases h
    rename_i hsize
    split at h
    · cases h
    rename_i hlevels
    split at h
    · cases h
    rename_i delta grown hgrown
    obtain ⟨reserved, hreserve, hchange⟩ := Outcome.andThen_eq_done_iff.mp h
    obtain ⟨hsync, hcoin, hlog⟩ := change_eq_done_iff.mp hchange
    exact ⟨not_not.mp hfree, not_not.mp hsize, not_le.mp hlevels, delta, grown, reserved, hgrown,
      hreserve, hsync, hcoin, hlog⟩
  · rintro ⟨hfree, hsize, hlevels, delta, grown, reserved, hgrown, hreserve, hsync, hcoin, hlog⟩
    unfold grow
    dsimp only
    rw [if_neg (not_not.mpr hfree), if_neg (not_not.mpr hsize), if_neg (not_le.mpr hlevels),
      hgrown]
    exact Outcome.andThen_eq_done_iff.mpr
      ⟨reserved, hreserve, change_eq_done_iff.mpr ⟨hsync, hcoin, hlog⟩⟩

/-- What growth does: an empty level is put on top, as many slots open as the new level 0 has room
for, the region is made long enough for the larger image, and the image is written. -/
theorem grow_eq_done {r r' : Session γ α} (h : r.grow = .done r') :
    r.sketch.free = 0 ∧ r.sketch.numLevels < maxLevels ∧
      ∃ delta backing,
        levelCapacity r.sketch.k (r.sketch.numLevels + 1) 0 r.sketch.m = .ok delta ∧
        Reserved (updatableSize (r.sketch.grown delta).numLevels (r.sketch.grown delta).capacity
          (Item.width α)) r.sketch.backing backing ∧
        Sketch.sync { r.sketch.grown delta with backing } = .ok r'.sketch ∧ r'.coin = r.coin ∧
        r'.compactions = r.compactions := by
  obtain ⟨hfree, -, hlevels, delta, _, reserved, henlarged, hreserve, hsync, hcoin', hlog⟩ :=
    grow_eq_done_iff.mp h
  obtain ⟨hdelta, hgrown⟩ := Sketch.enlarged_eq_ok_iff.mp henlarged
  obtain ⟨-, -, rfl⟩ := Sketch.withTopLevel_eq_ok_iff.mp hgrown
  obtain ⟨backing, hbacking, hsketch, hcoin, hcompactions⟩ := reserve_eq_done hreserve
  have hbacking' : reserved.sketch.backing = backing := by rw [hsketch]
  rw [hbacking'] at hsync
  refine ⟨hfree, hlevels, delta, backing, hdelta, hbacking, hsync, hcoin'.trans hcoin, ?_⟩
  rw [compactions, hlog, ← hcompactions]
  exact (compactions_push _ reserved.coin reserved.log _).trans (List.append_nil _)

/-- Growth that is refused leaves everything as it was. -/
theorem grow_eq_refused {r r' : Session γ α} {error : Error} (h : r.grow = .refused error r') :
    r.Unchanged r' := by
  unfold grow at h
  dsimp only at h
  split at h
  · cases h
  split at h
  · cases h
  split at h
  · cases h
    exact .refl r
  split at h
  · cases h
  rcases Outcome.andThen_eq_refused_iff.mp h with hreserve | ⟨reserved, -, hchange⟩
  · exact reserve_eq_refused hreserve
  · exact absurd hchange change_ne_refused

/-- Adding a level is growth, but for the check that the sketch may change. -/
theorem addEmptyTopLevel_eq_done_iff {r r' : Session γ α} :
    r.addEmptyTopLevel = .done r' ↔ r.sketch.readOnly = false ∧ r.grow = .done r' := by
  unfold addEmptyTopLevel
  constructor
  · intro h
    split at h
    · cases h
    rename_i hwritable
    split at h
    · cases h
    exact ⟨by simpa using hwritable, h⟩
  · rintro ⟨hwritable, hgrow⟩
    have hfree : r.sketch.free = 0 := (grow_eq_done_iff.mp hgrow).1
    rw [if_neg (by simp [hwritable]), if_neg (not_not.mpr hfree), hgrow]

/-- Adding a level that is refused leaves everything as it was. -/
theorem addEmptyTopLevel_eq_refused {r r' : Session γ α} {error : Error}
    (h : r.addEmptyTopLevel = .refused error r') : r.Unchanged r' := by
  unfold addEmptyTopLevel at h
  split at h
  · cases h
    exact .refl r
  split at h
  · cases h
    exact .refl r
  exact grow_eq_refused h

end Growth

/-! ### Compacting -/

variable [Coin γ] [Item α]

/-- What a compaction does: a coin is tossed, and with its bit the sketch is compacted. -/
theorem compact_eq_done {level : ℕ} {r r' : Session γ α} (h : r.compact level = .done r') :
    ∃ span, r.sketch.span level = .ok span ∧
      r.sketch.compact span (Coin.toss r.coin).1 = .ok r'.sketch ∧
      r'.coin = (Coin.toss r.coin).2 ∧ r'.compactions = r.compactions ++ [level] := by
  unfold compact at h
  split at h
  · cases h
  rename_i span hspan
  obtain ⟨hcompact, hcoin, hlog⟩ := change_eq_done_iff.mp h
  refine ⟨span, hspan, hcompact, hcoin, ?_⟩
  rw [compactions, hlog]
  exact compactions_push _ r.coin r.log _

/-- A compaction is never refused. -/
lemma compact_ne_refused {level : ℕ} {r r' : Session γ α} {error : Error} :
    r.compact level ≠ .refused error r' := by
  unfold compact
  split
  · simp
  · exact change_ne_refused

/-- What freeing slots does: the first full level is compacted, after growth if it is the top
level. -/
theorem compress_eq_done_iff {r r' : Session γ α} :
    r.compress = .done r' ↔
      ∃ level between,
        firstFullLevel r.sketch.k r.sketch.m r.sketch.numLevels r.sketch.levels =
          .ok (some level) ∧
        (if level + 1 = r.sketch.numLevels then r.grow = .done between else between = r) ∧
        between.compact level = .done r' := by
  unfold compress
  dsimp only
  constructor
  · intro h
    split at h
    · cases h
    · cases h
    rename_i level hlevel
    obtain ⟨between, hgrow, hcompact⟩ := Outcome.andThen_eq_done_iff.mp h
    refine ⟨level, between, hlevel, ?_, hcompact⟩
    split
    · rename_i htop
      rwa [if_pos htop] at hgrow
    · rename_i htop
      rw [if_neg htop] at hgrow
      cases hgrow
      rfl
  · rintro ⟨level, between, hlevel, hbetween, hcompact⟩
    rw [hlevel]
    refine Outcome.andThen_eq_done_iff.mpr ⟨between, ?_, hcompact⟩
    split
    · rename_i htop
      rwa [if_pos htop] at hbetween
    · rename_i htop
      rw [if_neg htop] at hbetween
      rw [hbetween]

/-- Freeing slots that is refused leaves everything as it was. -/
theorem compress_eq_refused {r r' : Session γ α} {error : Error}
    (h : r.compress = .refused error r') : r.Unchanged r' := by
  unfold compress at h
  dsimp only at h
  split at h
  · cases h
  · cases h
  rcases Outcome.andThen_eq_refused_iff.mp h with hgrow | ⟨between, -, hcompact⟩
  · split at hgrow
    · exact grow_eq_refused hgrow
    · cases hgrow
  · exact absurd hcompact compact_ne_refused

/-! ### Feeding -/

/-- What feeding an item does. What is no number is dropped. Any other item is inserted, after
freeing slots if there is none, and then either the whole image or only the insertion is written to
the region. -/
theorem update_eq_done {x : α} {r r' : Session γ α} (h : r.update x = .done r') :
    r.sketch.readOnly = false ∧
      (Item.isNaN x = true ∧ r' = r ∨
        Item.isNaN x = false ∧ ∃ between s,
          (if r.sketch.free = 0 then r.compress = .done between else between = r) ∧
          between.sketch.insert x = .ok s ∧
          (if r.sketch.free = 0 then s.sync else s.writeInsertion x) = .ok r'.sketch ∧
          r'.coin = between.coin ∧ r'.compactions = between.compactions) := by
  unfold update at h
  split at h
  · cases h
  rename_i hwritable
  refine ⟨by simpa using hwritable, ?_⟩
  split at h
  · rename_i hnan
    cases h
    exact .inl ⟨hnan, rfl⟩
  rename_i hnumber
  refine .inr ⟨by simpa using hnumber, ?_⟩
  split at h
  · rename_i hfree
    obtain ⟨between, hcompress, hchange⟩ := Outcome.andThen_eq_done_iff.mp h
    obtain ⟨hinsert, hcoin, hlog⟩ := change_eq_done_iff.mp hchange
    obtain ⟨s, hs, hsync⟩ := bind_eq_ok_iff.mp hinsert
    refine ⟨between, s, ?_, hs, ?_, hcoin, by rw [compactions, hlog, compactions]⟩
    · rwa [if_pos hfree]
    · rwa [if_pos hfree]
  · rename_i hfree
    obtain ⟨hinsert, hcoin, hlog⟩ := change_eq_done_iff.mp h
    obtain ⟨s, hs, hwrite⟩ := bind_eq_ok_iff.mp hinsert
    refine ⟨r, s, ?_, hs, ?_, hcoin, by rw [compactions, hlog, compactions]⟩
    · rw [if_neg hfree]
    · rwa [if_neg hfree]

/-- Feeding that is refused leaves everything as it was. -/
theorem update_eq_refused {x : α} {r r' : Session γ α} {error : Error}
    (h : r.update x = .refused error r') : r.Unchanged r' := by
  unfold update at h
  split at h
  · cases h
    exact .refl r
  split at h
  · cases h
  split at h
  · rcases Outcome.andThen_eq_refused_iff.mp h with hcompress | ⟨between, -, hchange⟩
    · exact compress_eq_refused hcompress
    · exact absurd hchange change_ne_refused
  · exact absurd h change_ne_refused

end Session

end QuantileSketch
