import QuantileSketch.Item.Integer
import QuantileSketch.Proofs.CurrentImage
import QuantileSketch.Proofs.Images.CompactRoundTrip
import QuantileSketch.Proofs.Images.RoundTrip
import QuantileSketch.Proofs.Lockstep

/-!
# Going on from an image

A sketch is written to an image in the middle of a run, and the sketch that is read from the image
takes its place. From a compact image the free slots come back with fillers in them, so that the two
sketches are not the same. They have the same contents, and this is kept in step with the run that
is not interrupted (`Resembles.isLockstep`), because no change looks into a free slot. From an
updatable image, and from the region of the sketch, everything comes back but the region, and the
two sessions agree (`Agrees`).

So whatever is done after the interruption ends in the same way (`restore_transparent`).
-/

namespace QuantileSketch

namespace Session

variable {γ α : Type}

/-- The session `q` resembles `r` if it has the same coin and the same contents. -/
structure Resembles (q r : Session γ α) : Prop where
  coin_eq : q.coin = r.coin
  contents : q.sketch.SameContents r.sketch

namespace Resembles

variable {q q' r r' : Session γ α}

/-- Refused commands keep the resemblance. -/
lemma unchanged (h : q.Resembles r) (hq : q.Unchanged q') (hr : r.Unchanged r') :
    q'.Resembles r' := by
  refine ⟨hq.coin_eq.trans (h.coin_eq.trans hr.coin_eq.symm), ?_⟩
  rw [hq.same.1, hr.same.1]
  exact h.contents.setBacking _ _

variable [Item α]

/-- Growth in both sessions keeps the resemblance. -/
lemma grow (h : q.Resembles r) (hq : q.sketch.WellFormed) (hr : r.sketch.WellFormed)
    (hgrow : q.grow = .done q') (hgrow' : r.grow = .done r') : q'.Resembles r' := by
  obtain ⟨-, -, _, _, -, -, -, hcoin, -⟩ := grow_eq_done hgrow
  obtain ⟨-, -, _, _, -, -, -, hcoin', -⟩ := grow_eq_done hgrow'
  obtain ⟨delta, hgrown, hgrown'⟩ :=
    exists_grown_of_sameShape h.contents.sameShape hgrow hgrow'
  refine ⟨hcoin.trans (h.coin_eq.trans hcoin'.symm), ?_⟩
  rw [hgrown, hgrown']
  exact (h.contents.grown _ hq hr).setBacking _ _

variable [Coin γ]

/-- The compaction of the same level in both sessions keeps the resemblance. -/
lemma compact {free here above : ℕ} {lower upper : List ℕ} (h : q.Resembles r)
    (hq : q.sketch.HasShape free (lower ++ here :: above :: upper))
    (hr : r.sketch.HasShape free (lower ++ here :: above :: upper)) (hhere : 2 ≤ here)
    (hnumbers : r.sketch.HoldsNumbers) (hcompact : q.compact lower.length = .done q')
    (hcompact' : r.compact lower.length = .done r') : q'.Resembles r' := by
  obtain ⟨hsketch, hcoin, -⟩ := compact_shape hq hcompact
  obtain ⟨hsketch', hcoin', -⟩ := compact_shape hr hcompact'
  rw [← h.coin_eq] at hsketch' hcoin'
  exact ⟨hcoin.trans hcoin'.symm, h.contents.compact hq hr hhere hnumbers hsketch hsketch'⟩

/-- Freeing slots in both sessions keeps the resemblance. -/
lemma compress (h : q.Resembles r) (hq : q.Steady) (hr : r.Steady) (hfree : r.sketch.free = 0)
    (hcompress : q.compress = .done q') (hcompress' : r.compress = .done r') :
    q'.Resembles r' := by
  have hshape := h.contents.sameShape
  obtain ⟨free, populations, hs⟩ := hr.wellFormed
  replace hs := hs.of_free_eq_zero hfree
  have hs' := hshape.symm.hasShape hs hq.wellFormed
  obtain ⟨between, _, lower, _, _, _, hlevel, hbetween, hwf, -, hcompact⟩ :=
    exists_compacted_level hs' hcompress
  obtain ⟨between', free, lower', here, above, upper, hlevel', hbetween', hshape', hhere,
    hcompact'⟩ := exists_compacted_level hs hcompress'
  -- the same level is compacted
  rw [hshape.k_eq, hshape.m_eq, hshape.numLevels_eq, hshape.levels_eq, hlevel', Except.ok.injEq,
    Option.some.injEq] at hlevel
  rw [← hlevel] at hbetween hcompact
  rw [hshape.numLevels_eq] at hbetween
  have hnumbers : between'.sketch.HoldsNumbers := by
    split at hbetween'
    · exact grow_holdsNumbers hbetween' hs hr.ordered.holdsNumbers
    · rw [hbetween']
      exact hr.ordered.holdsNumbers
  have hrel : between.Resembles between' :=
    Outcome.rel_of_step_if h hbetween hbetween' fun _ => h.grow hq.wellFormed hr.wellFormed
  exact hrel.compact (hrel.contents.sameShape.symm.hasShape hshape' ⟨_, _, hwf⟩) hshape' hhere
    hnumbers hcompact hcompact'

/-- Feeding an item in both sessions keeps the resemblance. -/
lemma update {x : α} (h : q.Resembles r) (hq : q.Steady) (hr : r.Steady)
    (hupdate : q.update x = .done q') (hupdate' : r.update x = .done r') : q'.Resembles r' := by
  rcases (update_eq_done hupdate).2 with
    ⟨hnan, rfl⟩ | ⟨hnumber, between, s, hbetween, hinsert, hwrite, hcoin, -⟩
  · rcases (update_eq_done hupdate').2 with ⟨-, rfl⟩ | ⟨hnumber, -⟩
    · exact h
    · rw [hnan] at hnumber
      cases hnumber
  rcases (update_eq_done hupdate').2 with
    ⟨hnan, -⟩ | ⟨-, between', s', hbetween', hinsert', hwrite', hcoin', -⟩
  · rw [hnan] at hnumber
    cases hnumber
  have hwf := (Changes.start.compress_if hq.wellFormed hbetween).wellFormed hq.wellFormed
  have hwf' := (Changes.start.compress_if hr.wellFormed hbetween').wellFormed hr.wellFormed
  rw [h.contents.sameShape.free_eq] at hbetween
  have hrel : between.Resembles between' :=
    Outcome.rel_of_step_if h hbetween hbetween' (h.compress hq hr)
  refine ⟨hcoin.trans (hrel.coin_eq.trans hcoin'.symm), ?_⟩
  rw [Sketch.write_eq hwrite, Sketch.write_eq hwrite']
  exact (hrel.contents.insert hwf hwf' hinsert hinsert').setBacking _ _

/-- Resemblance is kept. -/
theorem isLockstep : IsLockstep (Resembles : Session γ α → Session γ α → Prop) where
  sameShape h := h.contents.sameShape
  refused := unchanged
  done {c} q q' r r' h hq hr hq' hr' := by
    cases c with
    | update x => exact h.update hq hr hq' hr'
    | addEmptyTopLevel =>
      exact h.grow hq.wellFormed hr.wellFormed (addEmptyTopLevel_eq_done_iff.mp hq').2
        (addEmptyTopLevel_eq_done_iff.mp hr').2

end Resembles

variable [Item α] {r : Session γ α}

/-- What is written to images is the same in sessions that agree. -/
lemma Agrees.images_eq {h : Session γ α} (hagree : h.Agrees r) :
    h.sketch.compactImage = r.sketch.compactImage ∧
      h.sketch.updatableImage = r.sketch.updatableImage := by
  rw [hagree.sketch_eq]
  exact ⟨rfl, rfl⟩

/-! ### Beginning again -/

namespace Steady

/-- The session with the sketch that is read from the compact image, if this keeps the sketch
whole. -/
lemma exists_read_compactImage (hr : r.Steady) (hkept : r.sketch.KeptByCompact) :
    ∃ t : Sketch α, Sketch.read r.sketch.compactImage = .ok t ∧ (begin t r.coin).Steady ∧
      (begin t r.coin).Resembles r := by
  obtain ⟨free, populations, hs⟩ := hr.wellFormed
  have hbytes : r.sketch.compactImage = (r.sketch.compactBytes ++ []).toArray := by
    rw [List.append_nil]
    rfl
  obtain ⟨t, ht, hsame⟩ := hs.exists_read_of_compactBytes hbytes
  have hcontents := hsame.mpr hkept
  have hwf := Sketch.read_wellFormed ht
  have hnone := Sketch.read_backing ht
  refine ⟨t, ht, ⟨hwf, hcontents.ordered hwf hr.ordered, Sketch.read_readOnly ht,
    Sketch.fits_of_backing_eq_none hnone, ?_⟩, rfl, hcontents⟩
  intro b hb
  rw [begin, hnone] at hb
  cases hb

/-- The session with the sketch that is read from the updatable image. -/
lemma exists_read_updatableImage (hr : r.Steady) :
    ∃ t : Sketch α, Sketch.read r.sketch.updatableImage = .ok t ∧ (begin t r.coin).Steady ∧
      (begin t r.coin).Agrees r := by
  obtain ⟨free, populations, hs⟩ := hr.wellFormed
  have hbytes : r.sketch.updatableImage = (r.sketch.updatableBytes ++ []).toArray := by
    rw [List.append_nil]
    rfl
  have hread := hs.read_of_updatableBytes hbytes
  rw [← hr.readOnly_eq] at hread
  have hagree : (begin { r.sketch with backing := none } r.coin).Agrees r := ⟨rfl, rfl⟩
  refine ⟨_, hread, ?_, hagree⟩
  exact hagree.steady hr (Sketch.fits_of_backing_eq_none rfl) (fun b hb => nomatch hb)

/-- The session with the sketch that is opened in the region, if this begins with the image. -/
lemma exists_wrapInRegion {b : Backing} {server : RegionServer} (hr : r.Steady)
    (hcurrent : r.sketch.IsCurrent) (hb : r.sketch.backing = some b)
    (hserver : server.Satisfies) :
    ∃ t : Sketch α, Sketch.wrapInRegion b.region server = .ok t ∧ (begin t r.coin).Steady ∧
      (begin t r.coin).Agrees r := by
  obtain ⟨free, populations, hs⟩ := hr.wellFormed
  obtain ⟨tail, hregion⟩ := hcurrent b hb
  have hwrap := Sketch.wrapInRegion_of_updatableBytes hs hregion server
  rw [← hr.readOnly_eq] at hwrap
  have hagree : (begin { r.sketch with backing := some { region := b.region, server } }
      r.coin).Agrees r := ⟨rfl, rfl⟩
  refine ⟨_, hwrap, hagree.steady hr ?_ ?_, hagree⟩
  · intro b' hb'
    cases hb'
    exact hr.fits b hb
  · intro b' hb'
    cases hb'
    exact hserver

end Steady

variable [Coin γ] {commands taken : List (Command α)} {r' : Session γ α}

/-- Commands that are given to a session that agrees end in agreement and in the same images. -/
lemma Agrees.exists_performEach {h : Session γ α} (hagree : h.Agrees r) (hh : h.Steady)
    (hr : r.Steady) (hperformed : performEach commands r = some (taken, r')) :
    ∃ h', performEach commands h = some (taken, h') ∧ h'.Agrees r' ∧
      h'.sketch.compactImage = r'.sketch.compactImage ∧
      h'.sketch.updatableImage = r'.sketch.updatableImage := by
  obtain ⟨h', hperformed', hagree'⟩ :=
    Agrees.isLockstep.exists_performEach hagree hh hr hperformed
  exact ⟨h', hperformed', hagree', hagree'.images_eq⟩

/-- Commands that are given to a session that resembles end in resemblance and in the same compact
images. -/
lemma Resembles.exists_performEach {q : Session γ α} (h : q.Resembles r) (hq : q.Steady)
    (hr : r.Steady) (hperformed : performEach commands r = some (taken, r')) :
    ∃ q', performEach commands q = some (taken, q') ∧ q'.Resembles r' ∧
      q'.sketch.compactImage = r'.sketch.compactImage := by
  obtain ⟨q', hperformed', hresembles⟩ :=
    Resembles.isLockstep.exists_performEach h hq hr hperformed
  have hq' := hq.run (run_of_performEach hperformed')
  have hr' := hr.run (run_of_performEach hperformed)
  exact ⟨q', hperformed', hresembles, hresembles.contents.compactImage_eq hq'.wellFormed
    hr'.wellFormed⟩

/-- A sketch that was constructed is given some commands, and its server, if it has one, satisfies
every request. Fewer commands than there are words all come to an end. Wherever the commands are cut
into a first and a second part, the sketch that the first part comes to can be replaced by one that
is read from its compact image, and the second part can be given to this one with the same coin. The
same commands are done then, and in the end the coin, all contents and the compact image are the
same. If the sketch is read from the updatable image, or opened in the region with any server that
satisfies every request, the end is the same up to the region: the free slots and the updatable
image are the same, too. -/
theorem restore_transparent {s : Sketch α} (coin : γ) (first second : List (Command α))
    (hs : s.Constructed) (hserver : ∀ b, s.backing = some b → b.server.Satisfies) :
    ((first ++ second).length < wordBound 64 →
      ∃ taken r, performEach (first ++ second) (begin s coin) = some (taken, r)) ∧
    ∀ taken r, performEach (first ++ second) (begin s coin) = some (taken, r) →
      ∃ between taken₁ taken₂, performEach first (begin s coin) = some (taken₁, between) ∧
        performEach second between = some (taken₂, r) ∧ taken = taken₁ ++ taken₂ ∧
        (∃ t q, Sketch.read between.sketch.compactImage = .ok t ∧
          performEach second (begin t between.coin) = some (taken₂, q) ∧ q.Resembles r ∧
          q.sketch.compactImage = r.sketch.compactImage) ∧
        (∃ t q, Sketch.read between.sketch.updatableImage = .ok t ∧
          performEach second (begin t between.coin) = some (taken₂, q) ∧ q.Agrees r ∧
          q.sketch.compactImage = r.sketch.compactImage ∧
          q.sketch.updatableImage = r.sketch.updatableImage) ∧
        ∀ b server, between.sketch.backing = some b → server.Satisfies →
          ∃ t q, Sketch.wrapInRegion b.region server = .ok t ∧
            performEach second (begin t between.coin) = some (taken₂, q) ∧ q.Agrees r ∧
            q.sketch.compactImage = r.sketch.compactImage ∧
            q.sketch.updatableImage = r.sketch.updatableImage := by
  have hbegin := Steady.of_constructed coin hs hserver
  refine ⟨?_, ?_⟩
  · intro hlength
    have hlength' : ([] : List (Command α)).length + (first ++ second).length < wordBound 64 := by
      rwa [List.length_nil, Nat.zero_add]
    exact Run.start.exists_performEach hs (fun b hb => (hserver b hb).answers) hlength'
  intro taken r hperformed
  obtain ⟨between, taken₁, taken₂, hfirst, hsecond, htaken⟩ :=
    exists_performEach_of_append hperformed
  have hrun := run_of_performEach hfirst
  have hsteady := hbegin.run hrun
  refine ⟨between, taken₁, taken₂, hfirst, hsecond, htaken, ?_, ?_, ?_⟩
  · obtain ⟨t, ht, hsteady', hresembles⟩ :=
      hsteady.exists_read_compactImage (hrun.keptByCompact hs)
    obtain ⟨q, hend⟩ := hresembles.exists_performEach hsteady' hsteady hsecond
    exact ⟨t, q, ht, hend⟩
  · obtain ⟨t, ht, hsteady', hagree⟩ := hsteady.exists_read_updatableImage
    obtain ⟨q, hend⟩ := hagree.exists_performEach hsteady' hsteady hsecond
    exact ⟨t, q, ht, hend⟩
  · intro b server hb hserver'
    have hcurrent := hrun.isCurrent hs.wellFormed hs.isCurrent
    obtain ⟨t, ht, hsteady', hagree⟩ := hsteady.exists_wrapInRegion hcurrent hb hserver'
    obtain ⟨q, hend⟩ := hagree.exists_performEach hsteady' hsteady hsecond
    exact ⟨t, q, ht, hend⟩

/-- Ten numbers are fed to a sketch in a region. After the first five of them a free slot still
holds an item that has moved up, but not in the sketch that is read from the compact image. -/
theorem restore_transparent_of_ten_numbers :
    ∃ (s t t' : Sketch Int32) (between r q q' : Session Xorshift Int32) (b : Backing)
      (taken₁ taken₂ : List (Command Int32)),
      Sketch.newInRegion 4 2 (Array.replicate 52 9) RegionServer.exact = .ok s ∧
        performEach ([1, 2, 3, 4, 5].map .update) (begin s (Xorshift.ofSeed 1)) =
          some (taken₁, between) ∧
        performEach ([6, 7, 8, 9, 10].map .update) between = some (taken₂, r) ∧
        Sketch.read between.sketch.compactImage = .ok t ∧ t.items ≠ between.sketch.items ∧
        performEach ([6, 7, 8, 9, 10].map .update) (begin t between.coin) = some (taken₂, q) ∧
        q.Resembles r ∧ q.sketch.compactImage = r.sketch.compactImage ∧
        between.sketch.backing = some b ∧
        Sketch.wrapInRegion b.region RegionServer.exact = .ok t' ∧
        performEach ([6, 7, 8, 9, 10].map .update) (begin t' between.coin) = some (taken₂, q') ∧
        q'.Agrees r ∧ q'.sketch.updatableImage = r.sketch.updatableImage := by
  let first : List (Command Int32) := [1, 2, 3, 4, 5].map .update
  let second : List (Command Int32) := [6, 7, 8, 9, 10].map .update
  have hstale : ((Sketch.newInRegion 4 2 (Array.replicate 52 9) RegionServer.exact).toOption.bind
      fun s : Sketch Int32 => (performEach first (begin s (Xorshift.ofSeed 1))).bind
        fun result => (Sketch.read result.2.sketch.compactImage).toOption.map
          fun t : Sketch Int32 =>
            (result.2.sketch.backing.isSome, t.items == result.2.sketch.items)) =
              some (true, false) := by decide +kernel
  obtain ⟨s, hs, hstale⟩ := Option.bind_eq_some_iff.mp hstale
  have hmade := toOption_eq_some_iff.mp hs
  obtain ⟨region, hregion⟩ := Sketch.newInRegion_eq hmade
  have hserver : ∀ b, s.backing = some b → b.server.Satisfies := by
    intro b hb
    rw [hregion, Option.some.injEq] at hb
    rw [← hb]
    exact RegionServer.satisfies_exact
  obtain ⟨hends, hrestore⟩ :=
    restore_transparent (Xorshift.ofSeed 1) first second (.newInRegion hmade) hserver
  obtain ⟨taken, r, hperformed⟩ := hends (by decide)
  obtain ⟨between, taken₁, taken₂, hfirst, hsecond, -, ⟨t, q, ht, hq⟩, -, hwrapped⟩ :=
    hrestore taken r hperformed
  rw [hfirst, Option.bind_some, toOption_eq_some_iff.mpr ht, Option.map_some, Option.some.injEq,
    Prod.mk.injEq] at hstale
  obtain ⟨b, hb⟩ := Option.isSome_iff_exists.mp hstale.1
  obtain ⟨t', q', ht', hq', hagree, -, himage⟩ :=
    hwrapped b RegionServer.exact hb RegionServer.satisfies_exact
  exact ⟨s, t, t', between, r, q, q', b, taken₁, taken₂, hmade, hfirst, hsecond, ht,
    beq_eq_false_iff_ne.mp hstale.2, hq.1, hq.2.1, hq.2.2, hb, ht', hq', hagree, himage⟩

end Session

end QuantileSketch
