import QuantileSketch.Item.Integer
import QuantileSketch.Proofs.Images.CompactForm
import QuantileSketch.Proofs.SameContents

/-!
# What compact images keep

A compact image is always read back, but the short layouts do not say how many levels there are,
what the smallest accuracy parameter is, and which extremes a single item has. Just the sketches in
which these are as they are derived come back whole (`KeptByCompact`). All sketches that were
constructed and then changed are of this kind, because before a sketch grows by a level or compacts
one it holds at least two items (`Changes.keptByCompact`). A sketch that was opened need not be.
-/

namespace QuantileSketch

namespace Sketch

variable {α : Type}

/-- The sketches that compact images keep whole. -/
inductive KeptByCompact (s : Sketch α) : Prop
  | several (le_n : 2 ≤ s.n)
  | empty (n_eq : s.n = 0) (numLevels_eq : s.numLevels = 1) (minK_eq : s.minK = s.k)
  | single (x : α) (n_eq : s.n = 1) (numLevels_eq : s.numLevels = 1) (minK_eq : s.minK = s.k)
      (retained_eq : s.retained = #[x]) (least?_eq : s.least? = some x)
      (greatest?_eq : s.greatest? = some x)

namespace HasShape

variable {s : Sketch α} {free : ℕ} {populations : List ℕ}

/-- A sketch with at least two items stands for a stream of at least two. -/
lemma two_le_n (hs : s.HasShape free populations) (h : 2 ≤ populations.sum) : 2 ≤ s.n := by
  have hweight := h.trans (sum_le_totalWeight populations)
  have hword : 2 ≤ maxWord64 := by decide
  rw [← hs.saturate_eq, saturate]
  omega

/-- A sketch of an empty stream holds no items. -/
lemma retained_of_empty (hs : s.HasShape free populations) (hn : s.n = 0) : s.retained = #[] := by
  have hweight := hs.totalWeight_eq (by rw [hn]; decide)
  have hsum := sum_le_totalWeight populations
  apply Array.eq_empty_of_size_eq_zero
  rw [hs.size_retained, hs.numRetained_eq]
  omega

/-- A sketch of an empty stream has no extremes. -/
lemma extremes_of_empty (hs : s.HasShape free populations) (hn : s.n = 0) : s.extremes = none := by
  rw [← Option.not_isSome_iff_eq_none, hs.isSome_extremes, hn]
  decide

/-- The boundaries of a sketch of one level. -/
lemma levels_of_one (hs : s.HasShape free populations) (hlevels : s.numLevels = 1)
    (hn : s.n < maxWord64) : s.levels = [s.k - s.n, s.k] := by
  rw [hs.numLevels_eq] at hlevels
  obtain ⟨items, rfl⟩ := List.length_eq_one_iff.mp hlevels
  have hweight := hs.totalWeight_eq hn
  rw [totalWeight, totalWeight] at hweight
  have hroom := hs.room_eq
  rw [List.sum_singleton, List.length_singleton, totalCapacity_one hs.parameters.m_le_k] at hroom
  rw [hs.levels_eq, boundaries, boundaries]
  have hfree : free = s.k - s.n := by omega
  rw [hroom, hfree]

end HasShape

variable [Item α] {s : Sketch α} {free : ℕ} {populations : List ℕ} {bytes : Bytes}
  {tail : List UInt8}

/-- What a sketch holds that has fillers in its free slots. -/
lemma retained_of_fillers {xs : List α} (hcapacity : s.capacity = s.free + xs.length)
    (hitems : s.items = Array.replicate s.free Item.filler ++ xs.toArray) :
    s.retained = xs.toArray := by
  have hslots : s.items = (List.replicate s.free Item.filler ++ xs ++ []).toArray := by
    rw [hitems]
    simp
  rw [retained, hcapacity]
  exact extract_eq hslots List.length_replicate.symm (by rw [List.length_replicate])

/-- What the sketch in a full compact image holds. -/
lemma HasShape.retained_fillers (hs : s.HasShape free populations) :
    Sketch.retained { s with
      items := Array.replicate s.free Item.filler ++ s.retained
      readOnly := false
      backing := none } = s.retained := by
  have hcapacity : s.capacity = s.free + s.retained.toList.length := by
    rw [Array.length_toList, hs.size_retained, hs.numRetained_eq, hs.free_eq, hs.capacity_eq]
  have hretained := retained_of_fillers (s := { s with
    items := Array.replicate s.free Item.filler ++ s.retained
    readOnly := false
    backing := none }) hcapacity rfl
  rw [hretained, Array.toArray_toList]

/-- What the sketch in a single item image holds. -/
lemma retained_single {k : ℕ} (hk : 0 < k) (x : α) (sketch : Sketch α)
    (hlevels : sketch.levels = [k - 1, k])
    (hitems : sketch.items = (Array.replicate k Item.filler).setIfInBounds (k - 1) x) :
    sketch.retained = #[x] := by
  obtain ⟨free, rfl⟩ := Nat.exists_eq_add_one_of_ne_zero hk.ne'
  have hslots : (Array.replicate (free + 1) (Item.filler : α)) =
      (List.replicate free Item.filler ++ [Item.filler] ++ []).toArray := by
    rw [List.append_nil, ← List.replicate_succ', List.toArray_replicate]
  have hset : overwrite (Array.replicate (free + 1) Item.filler) free [x] =
      (List.replicate free Item.filler ++ [x] ++ []).toArray :=
    overwrite_eq hslots (List.length_replicate).symm rfl
  have hrepresents : sketch.Represents (List.replicate free Item.filler) [[x]] := by
    refine ⟨?_, ?_⟩
    · rw [List.append_nil] at hset
      rw [hitems]
      exact hset
    · rw [hlevels, List.length_replicate]
      rfl
  rw [hrepresents.retained_eq]
  rfl

/-- When an empty image keeps a sketch whole. -/
lemma HasShape.sameContents_empty_iff (hs : s.HasShape free populations) (hn : s.n = 0) :
    SameContents { (empty s.k s.m : Sketch α) with levelZeroSorted := s.levelZeroSorted } s ↔
      s.KeptByCompact := by
  constructor
  · intro h
    exact .empty hn h.numLevels_eq.symm h.minK_eq.symm
  · intro h
    cases h with
    | several hle => omega
    | single x hone => omega
    | empty _ hlevels hminK =>
      have hboundaries := hs.levels_of_one hlevels (by rw [hn]; decide)
      rw [hn, Nat.sub_zero] at hboundaries
      have hretained : Sketch.retained
          { (empty s.k s.m : Sketch α) with levelZeroSorted := s.levelZeroSorted } = #[] := by
        simp [Sketch.retained, empty, Sketch.free, capacity]
      have hextremes := hs.extremes_of_empty hn
      refine ⟨rfl, rfl, hminK.symm, hn.symm, hlevels.symm, hboundaries.symm, ?_, ?_, ?_, rfl⟩
      · rw [hretained, hs.retained_of_empty hn]
      · rw [least?, least?, hextremes]
        rfl
      · rw [greatest?, greatest?, hextremes]
        rfl

/-- When a single item image keeps a sketch whole. -/
lemma HasShape.sameContents_single_iff {x : α} {rest : List α} {items : Array α}
    (hs : s.HasShape free populations) (hn : s.n = 1) (hretained : s.retained.toList = x :: rest)
    (hitems : items = (Array.replicate s.k Item.filler).setIfInBounds (s.k - 1) x) :
    SameContents { (empty s.k s.m : Sketch α) with
        n := 1
        levels := [s.k - 1, s.k]
        items := items
        extremes := some ⟨x, x⟩
        levelZeroSorted := s.levelZeroSorted } s ↔
      s.KeptByCompact := by
  have hk : 0 < s.k := Nat.lt_of_lt_of_le (by decide)
    (hs.parameters.leastM_le.trans hs.parameters.m_le_k)
  have hsingle := retained_single hk x { (empty s.k s.m : Sketch α) with
    n := 1
    levels := [s.k - 1, s.k]
    items := items
    extremes := some ⟨x, x⟩
    levelZeroSorted := s.levelZeroSorted } rfl hitems
  constructor
  · intro h
    exact .single x hn h.numLevels_eq.symm h.minK_eq.symm (h.retained_eq.symm.trans hsingle)
      h.least?_eq.symm h.greatest?_eq.symm
  · intro h
    cases h with
    | several hle => omega
    | empty hzero => omega
    | single y _ hlevels hminK hone hleast hgreatest =>
      have hboundaries := hs.levels_of_one hlevels (by rw [hn]; decide)
      rw [hn] at hboundaries
      rw [hone, List.toList_toArray, List.cons.injEq] at hretained
      obtain ⟨rfl, -⟩ := hretained
      exact ⟨rfl, rfl, hminK.symm, hn.symm, hlevels.symm, hboundaries.symm,
        hsingle.trans hone.symm, hleast.symm, hgreatest.symm, rfl⟩

/-- Bytes that begin with the compact image of a well-formed sketch are always opened, and the
sketch that is read has the contents of the first one just if compact images keep this one whole. -/
theorem HasShape.exists_read_of_compactBytes (hs : s.HasShape free populations)
    (hbytes : bytes = (s.compactBytes ++ tail).toArray) :
    ∃ t : Sketch α, read bytes = .ok t ∧ (t.SameContents s ↔ s.KeptByCompact) := by
  rcases Nat.lt_or_ge s.n 2 with hn | hn
  · rcases Nat.eq_zero_or_pos s.n with hzero | hpos
    · exact ⟨_, hs.read_of_empty hzero hbytes, hs.sameContents_empty_iff hzero⟩
    · have hone : s.n = 1 := by omega
      obtain ⟨x, rest, hretained, hread⟩ := hs.read_of_single hone hbytes
      exact ⟨_, hread, hs.sameContents_single_iff hone hretained rfl⟩
  · refine ⟨_, hs.read_of_several hn hbytes, iff_of_true ?_ (.several hn)⟩
    exact ⟨rfl, rfl, rfl, rfl, rfl, rfl, hs.retained_fillers, rfl, rfl, rfl⟩

/-! ### Sketches that were constructed -/

/-- An insertion into a sketch that compact images keep whole makes another one. -/
lemma KeptByCompact.inserted {x : α} {s' : Sketch α} (h : s.KeptByCompact) (hwf : s.WellFormed)
    (hinsert : s.insert x = .ok s') : s'.KeptByCompact := by
  have hitems := hwf.retained_insert hinsert
  obtain ⟨free, populations, hs⟩ := hwf
  obtain ⟨free', here, upper, rfl, rfl, rfl, hinserted⟩ := hs.inserted hinsert
  cases h with
  | several hn => exact .several (Nat.le_succ_of_le hn)
  | single _ hn => exact .several (Nat.succ_le_succ hn.ge)
  | empty hn hlevels hminK =>
    -- the item that comes in is the only one
    have hretained : (s.inserted x).retained = #[x] := by
      rw [hitems, hs.retained_of_empty hn]
      rfl
    have hnumLevels : (s.inserted x).numLevels = 1 := by
      rw [hinserted.numLevels_eq, ← hlevels, hs.numLevels_eq]
      rfl
    have hextremes : (s.inserted x).extremes = some ⟨x, x⟩ := by
      change some (Extremes.insert x s.extremes) = _
      rw [hs.extremes_of_empty hn]
      rfl
    refine .single x ?_ hnumLevels hminK hretained ?_ ?_
    · change s.n + 1 = 1
      rw [hn]
    · rw [least?, hextremes]
      rfl
    · rw [greatest?, hextremes]
      rfl

/-- A sketch that was constructed is kept whole. -/
lemma Constructed.keptByCompact (h : s.Constructed) : s.KeptByCompact := by
  obtain ⟨k, m, backing, -, rfl⟩ := h.exists_eq
  exact .empty rfl rfl rfl

end Sketch

namespace Session

variable {γ α : Type} [Coin γ] [Item α] {r₀ r : Session γ α}

/-- Elementary changes keep a sketch one that compact images keep whole. -/
theorem Changes.keptByCompact {fed : List α} (h : r₀.Changes fed r)
    (hwf : r₀.sketch.WellFormed) (h₀ : r₀.sketch.KeptByCompact) : r.sketch.KeptByCompact := by
  induction h with
  | start => exact h₀
  | moved _ backing hsketch _ _ ih =>
    rw [hsketch]
    cases ih with
    | several hn => exact .several hn
    | empty hn hlevels hminK => exact .empty hn hlevels hminK
    | single x hn hlevels hminK hretained hleast hgreatest =>
      exact .single x hn hlevels hminK hretained hleast hgreatest
  | grown changes hfull _ hsketch _ _ _ =>
    -- a full sketch has a level with at least two items
    obtain ⟨free, populations, hs⟩ := changes.wellFormed hwf
    replace hs := hs.of_free_eq_zero hfull
    obtain ⟨lower, here, upper, rfl, -, htwo, -, -⟩ := hs.exists_full
    have hn := hs.two_le_n (by rw [List.sum_append, List.sum_cons]; omega)
    rw [hsketch]
    exact .several hn
  | compacted changes hshape htwo hcompact _ _ _ =>
    have hn := hshape.two_le_n (by rw [List.sum_append, List.sum_cons]; omega)
    obtain ⟨levels, items, hsketch⟩ := Sketch.compact_eq hcompact
    rw [hsketch]
    exact .several hn
  | inserted changes _ hinsert _ _ ih => exact ih.inserted (changes.wellFormed hwf) hinsert

/-- Every run of a sketch that was constructed comes to one that compact images keep whole. -/
theorem Run.keptByCompact {s : Sketch α} {coin : γ} {taken : List (Command α)}
    (hrun : (begin s coin).Run taken r) (hs : s.Constructed) : r.sketch.KeptByCompact :=
  (hrun.changes hs.wellFormed).keptByCompact hs.wellFormed hs.keptByCompact

/-- Bytes that begin with the compact image of a reachable sketch, whatever follows, are always
opened. The sketch that is read has the contents of the first one if and only if compact images keep
this one whole: there are at least two items in the stream; or none, and there is one level and the
smallest accuracy parameter is the one of the sketch; or one, and besides it is the only item that
is retained and the least and the greatest one. All sketches that were constructed and then fed or
grown are of this kind. -/
theorem Reachable.read_compactImage (h : r.Reachable) (tail : Bytes) :
    ∃ t : Sketch α, Sketch.read (r.sketch.compactImage ++ tail) = .ok t ∧
      (t.SameContents r.sketch ↔ r.sketch.KeptByCompact) ∧
      ∀ (s : Sketch α) (coin : γ) (taken : List (Command α)), s.Constructed →
        (begin s coin).Run taken r → t.SameContents r.sketch := by
  obtain ⟨free, populations, hs⟩ := h.wellFormed
  have hbytes : r.sketch.compactImage ++ tail =
      (r.sketch.compactBytes ++ tail.toList).toArray := by
    simp [Sketch.compactImage]
  obtain ⟨t, ht, hsame⟩ := hs.exists_read_of_compactBytes hbytes
  refine ⟨t, ht, hsame, ?_⟩
  intro s coin taken hconstructed hrun
  exact hsame.mpr (hrun.keptByCompact hconstructed)

/-- An updatable image of two levels with a single item. The compact image of the sketch in it is
opened, but as a sketch of one level. -/
theorem read_compactImage_of_two_levels :
    ∃ (r : Session Xorshift Int32) (t : Sketch Int32),
      r.Reachable ∧ r.sketch.n = 1 ∧ r.sketch.numLevels = 2 ∧
        Sketch.read r.sketch.compactImage = .ok t ∧ ¬t.SameContents r.sketch := by
  have hopened : (Sketch.read #[5, 3, 15, 0, 2, 0, 2, 0, 1, 0, 0, 0, 0, 0, 0, 0, 2, 0, 2, 0,
      3, 0, 0, 0, 4, 0, 0, 0, 4, 0, 0, 0, 5, 0, 0, 0, 5, 0, 0, 0,
      0, 0, 0, 0, 0, 0, 0, 0, 0, 0, 0, 0, 5, 0, 0, 0]).toOption.map
        (fun s : Sketch Int32 => (s.n, s.numLevels)) = some (1, 2) := by decide +kernel
  obtain ⟨s, hs, hopened⟩ := Option.map_eq_some_iff.mp hopened
  obtain ⟨hn, hlevels⟩ := Prod.mk.inj hopened
  have hreachable : (begin s (Xorshift.ofSeed 1)).Reachable :=
    ⟨s, _, [], .read (toOption_eq_some_iff.mp hs), .start⟩
  obtain ⟨t, ht, hsame, -⟩ := hreachable.read_compactImage #[]
  rw [Array.append_empty] at ht
  refine ⟨_, t, hreachable, hn, hlevels, ht, ?_⟩
  rw [hsame]
  intro hkept
  have hlevels' : s.numLevels ≠ 1 := by
    rw [hlevels]
    decide
  cases hkept with
  | several hle => exact absurd hle (by change ¬2 ≤ s.n; omega)
  | empty _ hone => exact hlevels' hone
  | single _ _ hone => exact hlevels' hone

end Session

end QuantileSketch
