import QuantileSketch.Proofs.Transparency

/-!
# Sessions in step

Two sessions are given the same commands. If their sketches may change and their servers satisfy
every request (`Steady`), a command is done in one of them just if it is done in the other, as long
as the sketches have the same shape. So a relation between sessions of the same shape that is kept
by commands that are done in both, and by commands that are refused in both (`IsLockstep`), is kept
by runs of any length, and the same commands are done (`IsLockstep.exists_performEach`).

Agreement up to the region is such a relation (`Agrees.isLockstep`).
-/

namespace QuantileSketch

/-- A server that satisfies every request denies none. -/
lemma RegionServer.Satisfies.not_denies {b : Backing} {required : ℕ} (h : b.server.Satisfies)
    (hrequired : required < wordBound 32) : ¬b.Denies required := by
  obtain ⟨answer, hanswer, hlong⟩ := h b.requests b.region required hrequired
  rintro (⟨reason, hrefused⟩ | ⟨answer', hanswer', hshort⟩)
  · rw [hanswer] at hrefused
    cases hrefused
  · rw [hanswer, Except.ok.injEq] at hanswer'
    rw [hanswer'] at hlong
    exact absurd hshort (not_lt.mpr hlong)

namespace Session

variable {γ α : Type} [Item α] {h r r' : Session γ α}

/-- A session with a sketch of numbers that may change. If it has a region, this is long enough, and
its server satisfies every request. -/
structure Steady (r : Session γ α) : Prop where
  wellFormed : r.sketch.WellFormed
  ordered : r.sketch.Ordered
  readOnly_eq : r.sketch.readOnly = false
  fits : r.sketch.Fits
  satisfies : ∀ b, r.sketch.backing = some b → b.server.Satisfies

namespace Steady

/-- A session with a sketch that was constructed begins so. -/
lemma of_constructed {s : Sketch α} (coin : γ) (hs : s.Constructed)
    (hserver : ∀ b, s.backing = some b → b.server.Satisfies) : (begin s coin).Steady := by
  refine ⟨hs.wellFormed, hs.ordered, ?_, (Sketch.Opened.constructed hs).fits, hserver⟩
  obtain ⟨k, m, backing, -, rfl⟩ := hs.exists_eq
  rfl

/-- There is room for growth, or it will be made. -/
lemma canReserve (hr : r.Steady) : r.sketch.CanReserve :=
  fun b hb => .inr (hr.satisfies b hb).answers

/-- A request can only fail if no sketch is as large as that. -/
lemma numLevels_eq_of_requestFails (hr : r.Steady) (hfails : r.sketch.RequestFails) :
    r.sketch.numLevels = maxLevels := by
  obtain ⟨free, populations, hs⟩ := hr.wellFormed
  obtain ⟨b, hb, -, hdenies⟩ := hfails
  rw [hs.numLevels_eq]
  by_contra hne
  have hbelow : populations.length < maxLevels := lt_of_le_of_ne hs.length_le hne
  have hword : r.sketch.enlargedSize < wordBound 32 := by
    rw [← hs.imageSize_grown hbelow]
    exact (hs.grown hbelow).imageSize_lt
  exact (hr.satisfies b hb).not_denies hword hdenies

variable [Coin γ]

/-- A run keeps a session so. -/
theorem run {taken : List (Command α)} (hr : r.Steady) (hrun : r.Run taken r') : r'.Steady := by
  have hchanges := hrun.changes hr.wellFormed
  obtain ⟨-, -, hreadOnly, -⟩ := hchanges.parameters_eq
  exact ⟨hchanges.wellFormed hr.wellFormed, hchanges.ordered hr.wellFormed hr.ordered,
    hreadOnly.trans hr.readOnly_eq, hrun.fits hr.wellFormed hr.fits,
    hrun.forall_server hr.wellFormed hr.satisfies⟩

variable {c : Command α}

/-- What is refused in one session is refused in every other one of the same shape. -/
lemma exists_refused (hh : h.Steady) (hr : r.Steady) (hshape : h.sketch.SameShape r.sketch)
    (hrefused : ∃ error r', r.perform c = .refused error r') :
    ∃ error h', h.perform c = .refused error h' := by
  obtain ⟨free, populations, hs⟩ := hr.wellFormed
  exact exists_refused_of_sameShape hshape.symm (hr.readOnly_eq.trans hh.readOnly_eq.symm)
    hr.numLevels_eq_of_requestFails hs (hshape.symm.hasShape hs hh.wellFormed) hrefused

/-- What is done in one session is done in every other one of the same shape. -/
lemma exists_done (hh : h.Steady) (hr : r.Steady) (hshape : h.sketch.SameShape r.sketch)
    (hdone : r.perform c = .done r') : ∃ h', h.perform c = .done h' := by
  obtain ⟨free, populations, hs⟩ := hr.wellFormed
  exact exists_done_of_sameShape hshape (hh.readOnly_eq.trans hr.readOnly_eq.symm)
    hh.numLevels_eq_of_requestFails (hshape.symm.hasShape hs hh.wellFormed) hs hh.fits
    hh.canReserve hh.ordered.holdsNumbers hdone

end Steady

/-- A session that agrees with such a session is one as well if it has room for the image and its
server satisfies all requests. -/
lemma Agrees.steady (hagree : h.Agrees r) (hr : r.Steady) (hfits : h.sketch.Fits)
    (hserver : ∀ b, h.sketch.backing = some b → b.server.Satisfies) : h.Steady := by
  obtain ⟨free, populations, hs⟩ := hr.wellFormed
  refine ⟨⟨free, populations, hagree.shape hs⟩, ?_, ?_, hfits, hserver⟩
  · rw [hagree.sketch_eq]
    exact hr.ordered.setBacking _
  · rw [hagree.sketch_eq]
    exact hr.readOnly_eq

/-! ### Relations that are kept -/

variable [Coin γ] {commands taken : List (Command α)}

/-- A relation between sessions with sketches of the same shape that every command keeps, whether it
is done or refused. -/
structure IsLockstep (R : Session γ α → Session γ α → Prop) : Prop where
  sameShape : ∀ {h r}, R h r → h.sketch.SameShape r.sketch
  done : ∀ {c h h' r r'}, R h r → h.Steady → r.Steady → h.perform c = .done h' →
    r.perform c = .done r' → R h' r'
  refused : ∀ {h h' r r'}, R h r → h.Unchanged h' → r.Unchanged r' → R h' r'

/-- If a session follows another one in such a relation, the same commands are done in it, and the
relation holds in the end. -/
theorem IsLockstep.exists_performEach {R : Session γ α → Session γ α → Prop} (hR : IsLockstep R)
    (hrel : R h r) (hh : h.Steady) (hr : r.Steady)
    (hperformed : performEach commands r = some (taken, r')) :
    ∃ h', performEach commands h = some (taken, h') ∧ R h' r' := by
  induction commands generalizing taken h r with
  | nil =>
    rw [performEach, Option.some.injEq, Prod.mk.injEq] at hperformed
    obtain ⟨rfl, rfl⟩ := hperformed
    exact ⟨h, rfl, hrel⟩
  | cons c commands ih =>
    have hshape := hR.sameShape hrel
    rcases performEach_cons_eq_some_iff.mp hperformed with
      ⟨between, rest, hdone, hrest, rfl⟩ | ⟨error, between, hrefused, hrest⟩
    · obtain ⟨between', hdone'⟩ := hh.exists_done hr hshape hdone
      have hrel' := hR.done hrel hh hr hdone' hdone
      obtain ⟨h', hrest', hlast⟩ :=
        ih hrel' (hh.run (Run.start.done hdone')) (hr.run (Run.start.done hdone)) hrest
      exact ⟨h', performEach_cons_eq_some_iff.mpr (.inl ⟨between', rest, hdone', hrest', rfl⟩),
        hlast⟩
    · obtain ⟨error', between', hrefused'⟩ := hh.exists_refused hr hshape ⟨error, _, hrefused⟩
      have hrel' := hR.refused hrel (perform_eq_refused hrefused') (perform_eq_refused hrefused)
      obtain ⟨h', hrest', hlast⟩ := ih hrel' (hh.run (Run.start.refused hrefused'))
        (hr.run (Run.start.refused hrefused)) hrest
      exact ⟨h', performEach_cons_eq_some_iff.mpr (.inr ⟨error', between', hrefused', hrest'⟩),
        hlast⟩

/-- Agreement up to the region is kept. -/
lemma Agrees.isLockstep : IsLockstep (Agrees : Session γ α → Session γ α → Prop) where
  sameShape := sameShape
  done hagree _ _ hh hr := hagree.perform hh hr
  refused hagree hh hr := by
    obtain ⟨hsketch, -, hcoin⟩ := hh.same
    refine unchanged ⟨hcoin.trans hagree.coin_eq, hsketch.trans ?_⟩ hr
    rw [hagree.sketch_eq]

end Session

end QuantileSketch
