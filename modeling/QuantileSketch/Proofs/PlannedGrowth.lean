import QuantileSketch.Proofs.CurrentImage
import QuantileSketch.Proofs.GrowthPlan
import QuantileSketch.Proofs.Progress
import QuantileSketch.Proofs.Refusals

/-!
# Growth as it is planned

A sketch that is fed grows only if the lowest level at its capacity is the top level, and then its
stream is already as long as all its levels stand for when they are full (`HasShape.fullWeight_le`).

This bounds growth from above. A sketch that nothing but feeding has made grow never has more levels
than its stream needs (`Sketch.NeedsLevels`), so that the growth plan for the stream has room for it
(`Run.within_plan`).

It also tells in advance what a sketch will ask for. As long as its stream is shorter than planned,
growth leads to no more levels than are planned. So a region of the planned size takes the whole
stream, and the server is never asked (`planned_region_suffices`).
-/

namespace QuantileSketch

namespace Sketch

variable {α : Type} {s : Sketch α} {free : ℕ} {populations : List ℕ}

/-- A sketch that has no more levels than it needs. Fewer levels stand for a shorter stream, even if
all of them are full. -/
def NeedsLevels (s : Sketch α) : Prop :=
  ∀ fewer, 1 ≤ fewer → fewer < s.numLevels → fullWeight s.k s.m fewer < s.n

/-- A sketch that must grow has a stream that is as long as full levels stand for. -/
theorem HasShape.fullWeight_le (hs : s.HasShape free populations) (hmust : s.MustGrow)
    (hn : s.n < maxWord64) : fullWeight s.k s.m s.numLevels ≤ s.n := by
  obtain ⟨hfree, htop⟩ := hmust
  replace hs := hs.of_free_eq_zero hfree
  obtain ⟨lower, here, upper, rfl, hfull, -, -, hunder⟩ := hs.exists_full
  have hlength : (lower ++ here :: upper).length = lower.length + (upper.length + 1) := by
    rw [List.length_append, List.length_cons]
  rw [hfull, Except.ok.injEq, Option.some.injEq, hs.numLevels_eq, hlength] at htop
  obtain rfl : upper = [] := List.eq_nil_of_length_eq_zero (by omega)
  rw [List.length_nil, Nat.zero_add] at hlength
  have hsum : (lower ++ [here]).sum = totalCapacity s.k s.m (lower.length + 1) := by
    rw [← hlength, ← hs.room_eq, Nat.zero_add]
  rw [← hs.totalWeight_eq hn, hs.numLevels_eq, hlength]
  refine fullWeight_le_totalWeight ?_ hsum
  intro i hi
  have hlevel := hunder i hi
  have hdepth : (lower ++ [here]).length - i - 1 = lower.length - i := by omega
  rwa [hdepth] at hlevel

/-- The slots of a sketch are those that its levels have room for. -/
lemma HasShape.capacity_eq_totalCapacity (hs : s.HasShape free populations) :
    s.capacity = totalCapacity s.k s.m s.numLevels := by
  rw [hs.capacity_eq, hs.room_eq, hs.numLevels_eq]

/-- The plan for the stream of a sketch has at least the levels that the sketch needs. -/
lemma NeedsLevels.numLevels_le {itemSize : ℕ} {plan : GrowthPlan} (h : s.NeedsLevels)
    (hplan : (growthPlan s.k s.m s.n itemSize).2 = .ok plan) : s.numLevels ≤ plan.numLevels := by
  obtain ⟨-, hpos, -, -, -, henough, -⟩ := growthPlan_eq_ok hplan
  by_contra hmore
  have hshort := h plan.numLevels hpos (not_le.mp hmore)
  exact absurd henough (not_le.mpr hshort)

variable [Item α]

/-- A sketch with no more levels than are planned has no more slots either, and its images are no
longer than planned. -/
lemma HasShape.sizes_le {n : ℕ} {plan : GrowthPlan} (hs : s.HasShape free populations)
    (hplan : (growthPlan s.k s.m n (Item.width α)).2 = .ok plan)
    (hlevels : s.numLevels ≤ plan.numLevels) :
    s.capacity ≤ plan.maxItems ∧ s.imageSize false ≤ plan.compactBytes ∧
      s.imageSize true ≤ plan.updatableBytes := by
  obtain ⟨-, -, -, hplanned, -, -, -⟩ := growthPlan_eq_ok hplan
  have hcapacity : s.capacity ≤ totalCapacity s.k s.m plan.numLevels := by
    rw [hs.capacity_eq_totalCapacity]
    exact totalCapacity_mono s.k s.m hlevels
  have hretained : s.numRetained ≤ totalCapacity s.k s.m plan.numLevels := by
    refine le_trans ?_ hcapacity
    rw [hs.numRetained_eq, hs.capacity_eq]
    exact Nat.le_add_left _ _
  rw [hplanned]
  refine ⟨hcapacity, ?_, updatableSize_mono _ hlevels hcapacity⟩
  calc s.imageSize false
      = compactSize s.n s.numLevels s.numRetained (Item.width α) := rfl
    _ ≤ fullImageSize s.numLevels s.numRetained (Item.width α) :=
        compactSize_le_fullImageSize _ _ _ _
    _ ≤ fullImageSize plan.numLevels (totalCapacity s.k s.m plan.numLevels) (Item.width α) :=
        fullImageSize_mono _ hlevels hretained

/-- If a sketch must grow before its stream is as long as planned, the plan has one more level, and
its image is long enough for the larger sketch. -/
lemma HasShape.enlargedSize_le {n : ℕ} {plan : GrowthPlan} (hs : s.HasShape free populations)
    (hplan : (growthPlan s.k s.m n (Item.width α)).2 = .ok plan) (hmust : s.MustGrow)
    (hn : s.n < n) : s.numLevels < plan.numLevels ∧ s.enlargedSize ≤ plan.updatableBytes := by
  obtain ⟨-, -, -, hplanned, hword, henough, -⟩ := growthPlan_eq_ok hplan
  have hweight := hs.fullWeight_le hmust (hn.trans_le hword)
  have hlevels : s.numLevels < plan.numLevels := by
    by_contra hmore
    have hmono := fullWeight_mono s.k s.m (not_lt.mp hmore)
    omega
  refine ⟨hlevels, ?_⟩
  rw [hplanned]
  exact updatableSize_mono _ hlevels (totalCapacity_mono s.k s.m hlevels)

/-- As long as the server has not been asked, the region has the size that it had at first. -/
lemma Keeps.exists_size_eq {initial : Bytes} (h : s.Keeps initial)
    (hrequests : s.backing.map Backing.requests = some 0) :
    ∃ b, s.backing = some b ∧ b.requests = 0 ∧ b.region.size = initial.size := by
  obtain ⟨b, hb, hkept⟩ := h
  rw [hb, Option.map_some, Option.some.injEq] at hrequests
  refine ⟨b, hb, hrequests, ?_⟩
  rcases hkept with ⟨hsize, -⟩ | ⟨-, i, hi, -⟩
  · exact hsize
  · rw [hrequests] at hi
    exact absurd hi (Nat.not_lt_zero i)

end Sketch

namespace Session

variable {γ α : Type} [Coin γ] [Item α] {r₀ r r' : Session γ α} {free : ℕ} {populations : List ℕ}

/-! ### Levels that are needed -/

/-- Freeing slots adds a level only if the sketch must grow. -/
lemma compress_numLevels (hs : r.sketch.HasShape 0 populations) (h : r.compress = .done r') :
    r'.sketch.numLevels = r.sketch.numLevels ∨
      r.sketch.MustGrow ∧ r'.sketch.numLevels = r.sketch.numLevels + 1 := by
  obtain ⟨between, free, lower, here, above, upper, hbetween, hshape, -, hcompact⟩ :=
    compress_shape hs h
  have hcompacted := hshape.compacted (compact_shape hshape hcompact).1
  have hkept : r'.sketch.numLevels = between.sketch.numLevels := by
    rw [hcompacted.numLevels_eq, hshape.numLevels_eq, List.length_append, List.length_append]
    rfl
  rcases hbetween with rfl | ⟨hmust, hgrow⟩
  · exact .inl hkept
  · refine .inr ⟨hmust, ?_⟩
    rw [hkept, (grow_shape hs hgrow).2.numLevels_eq, hs.numLevels_eq, List.length_append,
      List.length_singleton]

/-- Feeding an item adds a level only if the sketch must grow. -/
lemma update_numLevels {x : α} (hs : r.sketch.HasShape free populations)
    (h : r.update x = .done r') :
    r'.sketch.numLevels = r.sketch.numLevels ∨
      r.sketch.MustGrow ∧ r'.sketch.numLevels = r.sketch.numLevels + 1 := by
  rcases (update_eq_done h).2 with ⟨-, rfl⟩ | ⟨-, between, s, hbetween, hinsert, hwrite, -, -⟩
  · exact .inl rfl
  have hwritten : r'.sketch.numLevels = s.numLevels := by
    rw [Sketch.write_eq hwrite]
    rfl
  have hinserted {free : ℕ} {populations : List ℕ}
      (hshape : between.sketch.HasShape free populations) :
      s.numLevels = between.sketch.numLevels := by
    obtain ⟨_, _, _, -, rfl, -, hs'⟩ := hshape.inserted hinsert
    rw [hs'.numLevels_eq, hshape.numLevels_eq]
    rfl
  split at hbetween
  · rename_i hfree
    replace hs := hs.of_free_eq_zero hfree
    obtain ⟨_, _, hshape, -⟩ := compress_freed hs hbetween
    rw [hwritten, hinserted hshape]
    exact compress_numLevels hs hbetween
  · rw [hbetween] at hinserted
    exact .inl (hwritten.trans (hinserted hs))

/-- Feeding an item adds a level only if it is needed. -/
theorem update_needsLevels {x : α} (hs : r.sketch.HasShape free populations)
    (hneeds : r.sketch.NeedsLevels) (h : r.update x = .done r') : r'.sketch.NeedsLevels := by
  rcases (update_eq_done h).2 with ⟨-, rfl⟩ | ⟨hnumber, -⟩
  · exact hneeds
  have hwf : r.sketch.WellFormed := ⟨free, populations, hs⟩
  obtain ⟨hn, hword⟩ := update_n hwf hnumber h
  obtain ⟨hk, hm, -, -⟩ := (Changes.start.perform (c := .update x) hwf h).parameters_eq
  intro fewer hpos hlt
  rw [hk, hm, hn]
  rcases update_numLevels hs h with hsame | ⟨hmust, hmore⟩
  · rw [hsame] at hlt
    exact Nat.lt_succ_of_lt (hneeds fewer hpos hlt)
  · -- growth comes when the stream is as long as all levels stand for, and one item follows
    rw [hmore] at hlt
    have hmono := fullWeight_mono r.sketch.k r.sketch.m (Nat.le_of_lt_succ hlt)
    have hweight := hs.fullWeight_le hmust hword
    omega

/-- A run that adds levels by feeding only adds no more than are needed. -/
theorem Run.needsLevels {taken : List (Command α)} (h : r₀.Run taken r)
    (hwf : r₀.sketch.WellFormed) (h₀ : r₀.sketch.NeedsLevels)
    (hupdates : ∀ c ∈ taken, ∃ x, c = .update x) : r.sketch.NeedsLevels := by
  induction h with
  | start => exact h₀
  | done run step ih =>
    obtain ⟨hbefore, hlast⟩ := List.forall_mem_append.mp hupdates
    obtain ⟨x, rfl⟩ := hlast _ (List.mem_singleton_self _)
    obtain ⟨free, populations, hs⟩ := run.wellFormed hwf
    exact update_needsLevels hs (ih hbefore) step
  | refused run step ih =>
    rw [(perform_eq_refused step).same.1]
    exact ih hupdates

/-- A sketch that was constructed and to which levels were added by feeding only has no more levels,
no more slots and no longer images than are planned for the items that it has accepted. The plan
never needs more levels than the simple bound. -/
theorem Run.within_plan {s : Sketch α} {coin : γ} {taken : List (Command α)} {plan : GrowthPlan}
    (hs : s.Constructed) (hrun : (begin s coin).Run taken r)
    (hupdates : ∀ c ∈ taken, ∃ x, c = .update x)
    (hplan : (growthPlan s.k s.m (Command.accepted taken).length (Item.width α)).2 = .ok plan) :
    r.sketch.n = (Command.accepted taken).length ∧
      r.sketch.numLevels ≤ plan.numLevels ∧ plan.numLevels ≤ levelBound r.sketch.n ∧
      r.sketch.capacity ≤ plan.maxItems ∧ r.sketch.imageSize false ≤ plan.compactBytes ∧
      r.sketch.imageSize true ≤ plan.updatableBytes := by
  have hneeds₀ : s.NeedsLevels := by
    obtain ⟨k, m, backing, -, rfl⟩ := hs.exists_eq
    intro fewer hpos hlt
    exact absurd hpos (not_le.mpr hlt)
  have hneeds := hrun.needsLevels hs.wellFormed hneeds₀ hupdates
  have hlength := hrun.n_eq hs
  obtain ⟨hk, hm, -, -⟩ := (hrun.changes hs.wellFormed).parameters_eq
  obtain ⟨free, populations, hshape⟩ := hrun.wellFormed hs.wellFormed
  rw [← hlength] at hplan
  have hplan' : (growthPlan r.sketch.k r.sketch.m r.sketch.n (Item.width α)).2 = .ok plan := by
    rw [hk, hm]
    exact hplan
  have hlevels := hneeds.numLevels_le hplan'
  exact ⟨hlength, hlevels, plan_numLevels_le_levelBound hplan, hshape.sizes_le hplan' hlevels⟩

/-- Fourteen items, for which a sketch with four slots in its top level grows to three levels. They
have room for two, three and four items. -/
theorem within_plan_of_fourteen_items :
    ∃ (r : Session Xorshift Int32) (plan : GrowthPlan), r.sketch.n = 14 ∧
      r.sketch.levels = [2, 6, 7, 9] ∧
      (growthPlan 4 2 14 (Item.width Int32)).2 = .ok plan ∧
      r.sketch.numLevels ≤ plan.numLevels ∧ plan.numLevels ≤ levelBound 14 ∧
      r.sketch.capacity ≤ plan.maxItems ∧ r.sketch.imageSize false ≤ plan.compactBytes ∧
      r.sketch.imageSize true ≤ plan.updatableBytes := by
  let commands : List (Command Int32) :=
    [5, 7, 6, 8, 1, 2, 4, 3, 9, 10, 11, 12, 13, 14].map .update
  have hrun : ((Sketch.withM 4 2).toOption.bind fun s : Sketch Int32 =>
      performAll commands (begin s (Xorshift.ofSeed 1))).map (fun r => r.sketch.levels) =
        some [2, 6, 7, 9] := by
    decide +kernel
  have hplanned : (growthPlan 4 2 14 (Item.width Int32)).2.toOption.isSome = true := by
    decide +kernel
  obtain ⟨r, hr, hlevels⟩ := Option.map_eq_some_iff.mp hrun
  obtain ⟨s, hs, hr⟩ := Option.bind_eq_some_iff.mp hr
  obtain ⟨plan, hplan⟩ := Option.isSome_iff_exists.mp hplanned
  rw [toOption_eq_some_iff] at hs hplan
  obtain ⟨-, rfl⟩ := Sketch.withM_eq_ok_iff.mp hs
  have hupdates : ∀ c ∈ commands, ∃ x, c = .update x := by
    intro c hc
    obtain ⟨x, -, rfl⟩ := List.mem_map.mp hc
    exact ⟨x, rfl⟩
  obtain ⟨hn, hwithin⟩ := Run.within_plan (.withM hs) (run_of_performAll hr) hupdates hplan
  rw [hn] at hwithin
  exact ⟨r, plan, hn, hlevels, hplan, hwithin⟩

/-! ### Regions of the planned size -/

variable {n : ℕ} {plan : GrowthPlan}

/-- Feeding an item of a planned stream is done, and no request is made, if the region has the
planned size. -/
theorem update_as_planned {x : α} (hs : r.sketch.HasShape free populations)
    (hfits : r.sketch.Fits) (hnumbers : r.sketch.HoldsNumbers)
    (hwritable : r.sketch.readOnly = false)
    (hplan : (growthPlan r.sketch.k r.sketch.m n (Item.width α)).2 = .ok plan)
    (hroom : ∀ b, r.sketch.backing = some b → plan.updatableBytes ≤ b.region.size)
    (hn : Item.isNaN x = false → r.sketch.n < n) :
    ∃ r', r.update x = .done r' ∧
      r'.sketch.backing.map Backing.requests = r.sketch.backing.map Backing.requests := by
  by_cases hnan : Item.isNaN x = true
  · refine ⟨r, ?_, rfl⟩
    rw [update, hwritable, if_neg Bool.false_ne_true, if_pos hnan]
  obtain ⟨-, -, hmax, -, hword, -, -⟩ := growthPlan_eq_ok hplan
  have hshort : r.sketch.n < n := hn (by simpa using hnan)
  have hgrowth (hmust : r.sketch.MustGrow) : r.sketch.numLevels < plan.numLevels ∧
      ∀ b, r.sketch.backing = some b → r.sketch.enlargedSize ≤ b.region.size := by
    obtain ⟨hlevels, hsize⟩ := hs.enlargedSize_le hplan hmust hshort
    exact ⟨hlevels, fun b hb => hsize.trans (hroom b hb)⟩
  have hreserve (hmust : r.sketch.MustGrow) : r.sketch.CanReserve :=
    fun b hb => .inl ((hgrowth hmust).2 b hb)
  rcases update_completes x hs hfits (fun _ => hshort.trans_le hword) hnumbers hreserve with
    ⟨r', hdone⟩ | ⟨error, r', hrefused⟩
  · exact ⟨r', hdone, update_requests hs (fun hmust => (hgrowth hmust).2) hdone⟩
  · -- none of the reasons for a refusal applies
    exfalso
    rcases (update_eq_refused_iff x hs).mp ⟨error, r', hrefused⟩ with
      hreadOnly | ⟨-, hmust, htop | ⟨b, hb, hlarge, -⟩⟩
    · rw [hwritable] at hreadOnly
      cases hreadOnly
    · have hlevels := (hgrowth hmust).1
      omega
    · have hsmall := (hgrowth hmust).2 b hb
      omega

section Regions

variable {k m : ℕ} {region : Bytes} {server : RegionServer} {s : Sketch α} {coin : γ}
  {taken : List (Command α)}

/-- A run that has fed some of a planned stream can feed the next item of it. -/
theorem Run.update_as_planned {x : α} (hs : Sketch.newInRegion k m region server = .ok s)
    (hrun : (begin s coin).Run taken r) (hplan : (growthPlan k m n (Item.width α)).2 = .ok plan)
    (hroom : plan.updatableBytes ≤ region.size)
    (hrequests : r.sketch.backing.map Backing.requests = some 0)
    (hn : Item.isNaN x = false → (Command.accepted taken).length < n) :
    ∃ r', r.update x = .done r' ∧ r'.sketch.backing.map Backing.requests = some 0 := by
  have hconstructed : s.Constructed := .newInRegion hs
  have hwf := hconstructed.wellFormed
  obtain ⟨free, populations, hshape⟩ := hrun.wellFormed hwf
  have hfits := hrun.fits hwf (Sketch.Opened.constructed hconstructed).fits
  have hnumbers := hrun.holdsNumbers hwf hconstructed.ordered
  obtain ⟨b, hb, -, hsize⟩ :=
    (hrun.keeps hwf (Sketch.StartsIn.new hs).keeps).exists_size_eq hrequests
  have hroom' : ∀ b, r.sketch.backing = some b → plan.updatableBytes ≤ b.region.size := by
    intro b' hb'
    obtain rfl : b = b' := Option.some.inj (hb.symm.trans hb')
    rw [hsize]
    exact hroom
  -- the parameters are still those of the beginning
  have hempty : s.k = k ∧ s.m = m ∧ s.readOnly = false := by
    obtain ⟨region', rfl⟩ := Sketch.newInRegion_eq hs
    exact ⟨rfl, rfl, rfl⟩
  obtain ⟨hk₀, hm₀, hreadOnly₀⟩ := hempty
  obtain ⟨hk, hm, hreadOnly, -⟩ := (hrun.changes hwf).parameters_eq
  have hplan' : (growthPlan r.sketch.k r.sketch.m n (Item.width α)).2 = .ok plan := by
    rw [hk, hm, begin, hk₀, hm₀]
    exact hplan
  have hn' : Item.isNaN x = false → r.sketch.n < n := by
    rw [hrun.n_eq hconstructed]
    exact hn
  obtain ⟨r', hdone, hsame⟩ := Session.update_as_planned hshape hfits hnumbers
    (hreadOnly.trans hreadOnly₀) hplan' hroom' hn'
  exact ⟨r', hdone, hsame.trans hrequests⟩

/-- A run that has fed some of a planned stream goes on with the rest of it. -/
theorem Run.performAll_as_planned {items : List α}
    (hs : Sketch.newInRegion k m region server = .ok s) (hrun : (begin s coin).Run taken r)
    (hplan : (growthPlan k m n (Item.width α)).2 = .ok plan)
    (hroom : plan.updatableBytes ≤ region.size)
    (hrequests : r.sketch.backing.map Backing.requests = some 0)
    (hn : (Command.accepted taken).length +
      (Command.accepted (items.map Command.update)).length ≤ n) :
    ∃ r', performAll (items.map .update) r = some r' ∧
      r'.sketch.backing.map Backing.requests = some 0 := by
  induction items generalizing taken r with
  | nil => exact ⟨r, rfl, hrequests⟩
  | cons x items ih =>
    rw [List.map_cons, Command.accepted_cons, List.length_append] at hn
    have hnext : Item.isNaN x = false → (Command.accepted taken).length < n := by
      intro hnumber
      have hitem : (Command.update x).item?.toList.length = 1 := by
        rw [Command.item?, hnumber]
        rfl
      omega
    obtain ⟨r', hdone, hrequests'⟩ := hrun.update_as_planned hs hplan hroom hrequests hnext
    have hstep : r.perform (.update x) = .done r' := hdone
    rw [List.map_cons, performAll, hstep]
    refine ih (hrun.done hstep) hrequests' ?_
    rw [Command.accepted_append, List.length_append]
    omega

end Regions

/-- A region of the planned size is enough for the stream. Whatever the server would answer, a
sketch can be made in the region, all items up to the planned number are taken, the server is never
asked, and the region keeps its size. -/
theorem planned_region_suffices {k m : ℕ} {region : Bytes} (server : RegionServer)
    (hplan : (growthPlan k m n (Item.width α)).2 = .ok plan)
    (hroom : plan.updatableBytes ≤ region.size) :
    ∃ s : Sketch α, Sketch.newInRegion k m region server = .ok s ∧
      ∀ (coin : γ) (items : List α), (Command.accepted (items.map Command.update)).length ≤ n →
        ∃ r b, performAll (items.map .update) (begin s coin) = some r ∧
          r.sketch.backing = some b ∧ b.requests = 0 ∧ b.region.size = region.size := by
  obtain ⟨hvalid, hpos, -, hplanned, -⟩ := growthPlan_eq_ok hplan
  have hfirst : updatableSize 1 k (Item.width α) ≤ region.size := by
    refine le_trans ?_ hroom
    rw [hplanned]
    exact Sketch.updatableSize_mono _ hpos
      ((totalCapacity_one hvalid.m_le_k).ge.trans (totalCapacity_mono k m hpos))
  obtain ⟨s, hs⟩ := Sketch.exists_newInRegion_eq_ok (α := α) server hvalid hfirst
  refine ⟨s, hs, ?_⟩
  intro coin items hn
  have hwf : s.WellFormed := (Sketch.Constructed.newInRegion hs).wellFormed
  have hrequests : s.backing.map Backing.requests = some 0 := by
    obtain ⟨region', rfl⟩ := Sketch.newInRegion_eq hs
    rfl
  have hnone : (Command.accepted ([] : List (Command α))).length = 0 := rfl
  have hstart : (begin s coin).Run [] (begin s coin) := .start
  obtain ⟨r, hr, hrequests'⟩ :=
    hstart.performAll_as_planned hs hplan hroom hrequests (by rwa [hnone, Nat.zero_add])
  obtain ⟨b, hb, hnone, hsize⟩ :=
    ((run_of_performAll hr).keeps hwf (Sketch.StartsIn.new hs).keeps).exists_size_eq hrequests'
  exact ⟨r, b, hr, hb, hnone, hsize⟩

/-- A region of just the planned size, which is that of three levels and nine slots, takes fourteen
items, although the server refuses everything. -/
theorem planned_region_suffices_for_fourteen_items :
    ∃ (plan : GrowthPlan) (region : Bytes) (s : Sketch Int32) (r : Session Xorshift Int32)
      (b : Backing), (growthPlan 4 2 14 (Item.width Int32)).2 = .ok plan ∧
        region.size = plan.updatableBytes ∧ region.size = 80 ∧
        Sketch.newInRegion 4 2 region (fun _ _ _ => .error (.refused
          (.ofMessage .reallocationFailed "no larger region"))) = .ok s ∧
        performAll ([5, 7, 6, 8, 1, 2, 4, 3, 9, 10, 11, 12, 13, 14].map .update)
          (begin s (Xorshift.ofSeed 1)) = some r ∧
        r.sketch.backing = some b ∧ b.requests = 0 ∧ b.region.size = region.size := by
  have hplanned : (growthPlan 4 2 14 (Item.width Int32)).2.toOption.map
      GrowthPlan.updatableBytes = some 80 := by
    decide +kernel
  obtain ⟨plan, hplan, hbytes⟩ := Option.map_eq_some_iff.mp hplanned
  rw [toOption_eq_some_iff] at hplan
  let region : Bytes := Array.replicate plan.updatableBytes 9
  have hsize : region.size = plan.updatableBytes := Array.size_replicate
  obtain ⟨s, hs, hfeed⟩ := planned_region_suffices (γ := Xorshift) _ hplan hsize.ge
  obtain ⟨r, b, hr, hb⟩ := hfeed (Xorshift.ofSeed 1)
    [5, 7, 6, 8, 1, 2, 4, 3, 9, 10, 11, 12, 13, 14] (by decide)
  exact ⟨plan, region, s, r, b, hplan, hsize, hsize.trans hbytes, hs, hr, hb⟩

end Session

end QuantileSketch
