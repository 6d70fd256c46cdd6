import QuantileSketch.Proofs.Contents
import QuantileSketch.Proofs.ItemOrder
import QuantileSketch.Proofs.Sorting
import QuantileSketch.Sketch.Compaction

/-!
# What a compaction does

All moves of a compaction happen in one array. Seen as lists of items it takes the pairs of a level,
which are sorted first if the level is level 0, merges every second item of them into the level
above, and leaves every other level as it is (`compact_represents`). The slots of the other items
of the pairs are free afterwards.

The boundaries are moved in the same way whatever the items are (`compact_levels`).
-/

namespace QuantileSketch

namespace Sketch

variable {α : Type}

/-! ### Boundaries -/

/-- The span of a level with `here` items below a level with `above` items. -/
def spanAt (free : ℕ) (lower : List ℕ) (here above : ℕ) : Span where
  level := lower.length
  start := free + lower.sum
  stop := free + lower.sum + here
  above := above

/-- The number of items in such a level. -/
@[simp] lemma population_spanAt (free : ℕ) (lower : List ℕ) (here above : ℕ) :
    (spanAt free lower here above).population = here :=
  Nat.add_sub_cancel_left _ _

/-- The boundaries of the levels around a level that has a level above it. -/
lemma drop_boundaries (free : ℕ) (lower upper : List ℕ) (here above : ℕ) :
    ∃ rest, boundaries free (lower ++ here :: above :: upper) =
      lowerBoundaries free lower ++ (free + lower.sum) :: (free + lower.sum + here) ::
        (free + lower.sum + here + above) :: rest ∧
      boundaries (free + lower.sum + here + above) upper =
        (free + lower.sum + here + above) :: rest := by
  obtain ⟨rest, hrest⟩ := boundaries_eq_cons (free + lower.sum + here + above) upper
  refine ⟨rest, ?_, hrest⟩
  rw [boundaries_append, boundaries, boundaries, hrest]

/-- The span that is read off the boundaries. -/
theorem span_eq_ok {s : Sketch α} {free : ℕ} {lower upper : List ℕ} {here above : ℕ}
    (h : s.levels = boundaries free (lower ++ here :: above :: upper)) :
    s.span lower.length = .ok (spanAt free lower here above) := by
  obtain ⟨rest, hsplit, -⟩ := drop_boundaries free lower upper here above
  rw [hsplit] at h
  have entry_eq (i x : ℕ) (hx : s.levels[lower.length + i]? = some x) :
      entry s.levels (lower.length + i) = .ok x := entry_eq_ok_iff.mpr hx
  have hlen : (lowerBoundaries free lower).length = lower.length := length_lowerBoundaries _ _
  have h₀ := entry_eq 0 (free + lower.sum) (by rw [h]; simp)
  have h₁ := entry_eq 1 (free + lower.sum + here) (by
    rw [h, List.getElem?_append_right (by omega), hlen, Nat.add_sub_cancel_left]
    rfl)
  have h₂ := entry_eq 2 (free + lower.sum + here + above) (by
    rw [h, List.getElem?_append_right (by omega), hlen, Nat.add_sub_cancel_left]
    rfl)
  have hsub₁ : subWord (free + lower.sum + here + above) (free + lower.sum + here) = .ok above :=
    subWord_eq_ok_iff.mpr ⟨Nat.le_add_right _ _, Nat.add_sub_cancel_left _ _⟩
  have hsub₂ : subWord (free + lower.sum + here) (free + lower.sum) = .ok here :=
    subWord_eq_ok_iff.mpr ⟨Nat.le_add_right _ _, Nat.add_sub_cancel_left _ _⟩
  rw [Nat.add_zero] at h₀
  rw [span, h₀, ok_bind, h₁, ok_bind, h₂, ok_bind, hsub₁, ok_bind, hsub₂, ok_bind]
  rfl

/-- Compacting a level frees half as many slots as it has items, and moves half of them up. -/
theorem compactedLevels_eq_ok {free : ℕ} {lower upper : List ℕ} {here above : ℕ}
    (hbound : free + (lower ++ here :: above :: upper).sum < wordBound 32) :
    compactedLevels (boundaries free (lower ++ here :: above :: upper))
        (spanAt free lower here above) =
      .ok (boundaries (free + here / 2) (lower ++ here % 2 :: (above + here / 2) :: upper)) := by
  set span := spanAt free lower here above with hspan
  have hpop : span.population = here := population_spanAt free lower here above
  have hhalf : span.half = here / 2 := by rw [Span.half, hpop]
  have hodd : span.odd = here % 2 := by rw [Span.odd, hpop]
  have hmod := Nat.div_add_mod here 2
  obtain ⟨rest, hsplit, hrest⟩ := drop_boundaries free lower upper here above
  have hlen : (lowerBoundaries free lower).length = lower.length := length_lowerBoundaries _ _
  have hstart : span.start = free + lower.sum := rfl
  have hstop : span.stop = free + lower.sum + here := rfl
  have habove : subWord span.stop span.half = .ok (free + here / 2 + lower.sum + here % 2) := by
    rw [subWord_eq_ok_iff, hhalf, hstop]
    omega
  have hhere : subWord (free + here / 2 + lower.sum + here % 2) span.odd =
      .ok (free + here / 2 + lower.sum) := by
    rw [subWord_eq_ok_iff, hodd]
    omega
  have hnew : free + here / 2 + lower.sum = span.start + span.half := by
    rw [hhalf, hstart]
    omega
  have htake : (boundaries free (lower ++ here :: above :: upper)).take span.level =
      lowerBoundaries free lower := by rw [hsplit, hspan, spanAt, List.take_left' hlen]
  have hlower : (lowerBoundaries free lower).mapM (addWord 32 · span.half) =
      .ok (lowerBoundaries (free + here / 2) lower) := by
    rw [hhalf, mapM_addWord_eq_ok_iff, map_add_lowerBoundaries]
    refine ⟨?_, rfl⟩
    intro x hx
    have hmem : x ∈ boundaries free lower := by
      rw [← List.append_nil lower, boundaries_append]
      exact List.mem_append_left _ hx
    have := (mem_boundaries hmem).2
    rw [List.sum_append, List.sum_cons, List.sum_cons] at hbound
    omega
  have hdrop : (boundaries free (lower ++ here :: above :: upper)).drop (span.level + 2) =
      boundaries (free + lower.sum + here + above) upper := by
    rw [hsplit, hrest, hspan, spanAt, ← List.drop_drop, List.drop_left' hlen]
    rfl
  have htop : free + here / 2 + lower.sum + here % 2 + (above + here / 2) =
      free + lower.sum + here + above := by omega
  rw [compactedLevels, habove, ok_bind, hhere, ok_bind, require_eq_ok_iff (u := ()).mpr hnew,
    ok_bind, htake, hlower, ok_bind, hdrop, boundaries_append, boundaries, boundaries, htop]
  rfl

/-! ### Items -/

/-- Moving the item that has no partner, if there is one, up to the items of the level above. -/
lemma moveOdd_append (pre odd rest post : List α) {source target : ℕ} (hodd : odd.length ≤ 1)
    (hsource : source = pre.length) (htarget : target = pre.length + odd.length + rest.length - 1) :
    ∃ rest', rest'.length = rest.length ∧
      (if odd.length = 1 then Slots.move (pre ++ odd ++ rest ++ post).toArray source target
        else .ok (pre ++ odd ++ rest ++ post).toArray) =
          .ok (pre ++ rest' ++ odd ++ post).toArray := by
  rcases odd with _ | ⟨x, odd⟩
  · refine ⟨rest, rfl, ?_⟩
    rw [if_neg (by simp), List.append_nil, List.append_nil]
  · obtain rfl : odd = [] := List.length_eq_zero_iff.mp (by simpa using hodd)
    have htarget' : target = pre.length + rest.length := by
      rw [List.length_singleton] at htarget
      omega
    obtain ⟨rest', hrest', hmove⟩ := Slots.move_append pre rest post x hsource htarget'
    refine ⟨rest', hrest', ?_⟩
    rw [if_pos List.length_singleton]
    simpa using hmove

/-- Shifting the levels below up over the slots that have become free. -/
lemma shift_append (slack lower gap post : List α) {level start distance : ℕ}
    (hstart : start = slack.length + lower.length) (hdistance : distance = gap.length)
    (hlower : level = 0 → lower = []) :
    ∃ slack', slack'.length = slack.length + gap.length ∧
      (if 0 < level then
        Slots.shiftUp (slack ++ lower ++ gap ++ post).toArray slack.length start distance
        else .ok (slack ++ lower ++ gap ++ post).toArray) =
          .ok (slack' ++ lower ++ post).toArray := by
  by_cases hlevel : 0 < level
  · obtain ⟨rest, hrest, hshift⟩ :=
      Slots.shiftUp_append slack lower gap post rfl hstart hdistance
    refine ⟨slack ++ rest, by rw [List.length_append, hrest], ?_⟩
    rw [if_pos hlevel, hshift]
  · obtain rfl := hlower (by omega)
    refine ⟨slack ++ gap, List.length_append, ?_⟩
    rw [if_neg hlevel, List.append_nil, List.append_nil]

variable [Item α]

/-- The pairs of a level in the order in which they are halved. -/
def orderedPairs (level : ℕ) (pairs : List α) : Except Abort (List α) :=
  if level = 0 then Slots.sorted pairs else .ok pairs

/-- Whether a compaction keeps the second item of each pair. For the same bit an empty level above
receives the opposite items of those that a level with items receives. -/
def keepsSecond (bit : Bool) (above : List α) : Bool := if above.isEmpty then !bit else bit

/-- The items that the level above has after a compaction of the pairs below it. -/
def promoted (bit : Bool) (pairs above : List α) : List α :=
  Slots.mergedRun (alternate (keepsSecond bit above) pairs) above

/-- The level above receives half of the items of the pairs. -/
@[simp] lemma length_promoted (bit : Bool) (pairs above : List α) :
    (promoted bit pairs above).length = pairs.length / 2 + above.length := by
  rw [promoted, (Slots.mergedRun_perm _ _).length_eq, List.length_append, length_alternate]

/-- Halving the pairs of a level and merging the survivors into the level above. -/
lemma halve_append (bit : Bool) (pre pairs above post : List α) {start len half stop : ℕ}
    (hstart : start = pre.length) (hlen : len = pairs.length) (heven : len % 2 = 0)
    (hpos : 0 < len) (hhalf : half = len / 2) (hstop : stop = start + len) :
    ∃ rest, rest.length = half ∧
      (if above.length = 0 then Slots.halveUp (pre ++ pairs ++ above ++ post).toArray start len bit
        else do
          let items ← Slots.halveDown (pre ++ pairs ++ above ++ post).toArray start len bit
          Slots.mergeRuns items start half stop above.length (start + half)) =
        .ok (pre ++ rest ++ promoted bit pairs above ++ post).toArray := by
  rcases above with _ | ⟨x, above⟩
  · obtain ⟨rest, hrest, hup⟩ := Slots.halveUp_append bit pre pairs post hstart hlen heven hpos
    refine ⟨rest, by omega, ?_⟩
    rw [if_pos List.length_nil, List.append_nil, hup, promoted, Slots.mergedRun_nil]
    rfl
  · set ys := x :: above with hys
    obtain ⟨gap, hgap, hdown⟩ :=
      Slots.halveDown_append bit pre pairs (ys ++ post) hstart hlen heven
    have hkept : (alternate bit pairs).length = half := by rw [length_alternate, hhalf, hlen]
    have htarget : start + half = (pre ++ alternate bit pairs ++ []).length := by
      rw [List.append_nil, List.length_append, hkept, hstart]
    have hsecond : stop = start + half + gap.length := by omega
    obtain ⟨rest, hrest, hmerge⟩ := Slots.mergeRuns_append pre (alternate bit pairs) [] gap ys post
      hstart hkept.symm rfl htarget hsecond (by omega)
    have hnil : rest = [] := List.length_eq_zero_iff.mp (by omega)
    refine ⟨alternate bit pairs, hkept, ?_⟩
    have hslots : (pre ++ pairs ++ ys ++ post).toArray =
        (pre ++ pairs ++ (ys ++ post)).toArray := by
      rw [List.append_assoc _ ys]
    have hdown' : (pre ++ alternate bit pairs ++ gap ++ (ys ++ post)).toArray =
        (pre ++ alternate bit pairs ++ [] ++ gap ++ ys ++ post).toArray := by simp
    rw [if_neg (by rw [hys, List.length_cons]; omega), hslots, hdown, ok_bind, hdown', hmerge, hnil,
      List.append_nil, List.append_nil]
    rfl

/-- Sorting the pairs of level 0. -/
lemma sort_append (pre pairs post : List α) {sortedPairs : List α} {level start len : ℕ}
    (hstart : start = pre.length) (hlen : len = pairs.length)
    (hordered : orderedPairs level pairs = .ok sortedPairs)
    (hsorted : sortedPairs.length = pairs.length) :
    (if level = 0 then Slots.sortRun (pre ++ pairs ++ post).toArray start len
      else .ok (pre ++ pairs ++ post).toArray) = .ok (pre ++ sortedPairs ++ post).toArray := by
  by_cases hlevel : level = 0
  · rw [orderedPairs, if_pos hlevel] at hordered
    rw [if_pos hlevel]
    exact Slots.sortRun_append pre post hstart hlen hordered hsorted
  · rw [orderedPairs, if_neg hlevel] at hordered
    rw [if_neg hlevel, Except.ok.inj hordered]

/-- The four stages of a compaction. -/
lemma compactedItems_eq (items : Array α) (free : ℕ) (span : Span) (bit : Bool) :
    compactedItems items free span bit =
      ((if span.level = 0 then Slots.sortRun items span.pairsStart span.pairsLength
        else .ok items) >>= fun items =>
      (if span.above = 0 then Slots.halveUp items span.pairsStart span.pairsLength bit
        else do
          let items ← Slots.halveDown items span.pairsStart span.pairsLength bit
          Slots.mergeRuns items span.pairsStart span.half span.stop span.above
            (span.pairsStart + span.half)) >>= fun items =>
      (if span.odd = 1 then Slots.move items span.start (span.stop - span.half - 1)
        else .ok items) >>= fun items =>
      if 0 < span.level then Slots.shiftUp items free span.start span.half else .ok items) := by
  by_cases hlevel : span.level = 0 <;> by_cases habove : span.above = 0 <;>
    by_cases hodd : span.odd = 1 <;>
    simp only [compactedItems, hlevel, habove, hodd, if_true, if_false, bind_assoc]

/-- The slots after a compaction, as lists of items: `lower` holds the items of all levels below the
compacted one, `odd` the item that has no partner and `pairs` the others. -/
theorem compactedItems_append (bit : Bool) (slack lower odd pairs above post : List α)
    {sortedPairs : List α} {span : Span} (hstart : span.start = slack.length + lower.length)
    (hstop : span.stop = span.start + odd.length + pairs.length)
    (habove : span.above = above.length) (hodd : odd.length ≤ 1) (heven : pairs.length % 2 = 0)
    (hpos : 0 < pairs.length) (hlower : span.level = 0 → lower = [])
    (hordered : orderedPairs span.level pairs = .ok sortedPairs)
    (hlen : sortedPairs.length = pairs.length) :
    ∃ slack', slack'.length = slack.length + pairs.length / 2 ∧
      compactedItems (slack ++ lower ++ odd ++ pairs ++ above ++ post).toArray slack.length span
        bit = .ok (slack' ++ lower ++ odd ++ promoted bit sortedPairs above ++ post).toArray := by
  have hpop : span.population = odd.length + pairs.length := by
    rw [Span.population, hstop]
    omega
  have hoddlen : span.odd = odd.length := by
    rw [Span.odd, hpop]
    omega
  have hhalf : span.half = pairs.length / 2 := by
    rw [Span.half, hpop]
    omega
  have hpairs : span.pairsLength = pairs.length := by
    rw [Span.pairsLength, hpop, hoddlen]
    omega
  have hpairsStart : span.pairsStart = (slack ++ lower ++ odd).length := by
    rw [Span.pairsStart, hoddlen, hstart, List.length_append, List.length_append]
  have hsort := sort_append (slack ++ lower ++ odd) pairs (above ++ post) hpairsStart hpairs
    hordered hlen
  rw [← List.append_assoc, ← List.append_assoc] at hsort
  obtain ⟨rest, hrest, hhalve⟩ := halve_append bit (slack ++ lower ++ odd) sortedPairs above post
    hpairsStart (hpairs.trans hlen.symm) (by omega) (by omega)
    (by omega : span.half = span.pairsLength / 2)
    (by rw [hpairs, hstop, Span.pairsStart, hoddlen] :
      span.stop = span.pairsStart + span.pairsLength)
  have hsource : span.start = (slack ++ lower).length := by rw [hstart, List.length_append]
  have htarget : span.stop - span.half - 1 =
      (slack ++ lower).length + odd.length + rest.length - 1 := by omega
  obtain ⟨rest', hrest', hmove⟩ := moveOdd_append (slack ++ lower) odd rest
    (promoted bit sortedPairs above ++ post) hodd hsource htarget
  obtain ⟨slack', hslack', hshift⟩ := shift_append slack lower rest'
    (odd ++ promoted bit sortedPairs above ++ post) hstart (hrest.symm.trans hrest'.symm) hlower
  simp only [← List.append_assoc] at hmove hshift
  refine ⟨slack', by omega, ?_⟩
  rw [compactedItems_eq, habove, hoddlen, hsort, ok_bind, hhalve, ok_bind, hmove, ok_bind, hshift]

/-- A compaction keeps the number of slots. -/
lemma size_compactedItems {items items' : Array α} {free : ℕ} {span : Span} {bit : Bool}
    (h : compactedItems items free span bit = .ok items') : items'.size = items.size := by
  rw [compactedItems_eq] at h
  obtain ⟨sorted, hsort, h⟩ := bind_eq_ok_iff.mp h
  obtain ⟨halved, hhalve, h⟩ := bind_eq_ok_iff.mp h
  obtain ⟨moved, hmove, hshift⟩ := bind_eq_ok_iff.mp h
  have hsorted : sorted.size = items.size := by
    split at hsort
    · exact Slots.size_sortRun hsort
    · rw [Except.ok.inj hsort]
  have hhalved : halved.size = sorted.size := by
    split at hhalve
    · exact Slots.size_halveUp hhalve
    · obtain ⟨packed, hpack, hmerge⟩ := bind_eq_ok_iff.mp hhalve
      rw [Slots.size_mergeRuns hmerge, Slots.size_halveDown hpack]
  have hmoved : moved.size = halved.size := by
    split at hmove
    · exact Slots.size_move hmove
    · rw [Except.ok.inj hmove]
  have hshifted : items'.size = moved.size := by
    split at hshift
    · exact Slots.size_shiftUp hshift
    · rw [Except.ok.inj hshift]
  rw [hshifted, hmoved, hhalved, hsorted]

/-! ### Sketches -/

/-- A compaction changes the boundaries and the items only. -/
lemma compact_eq {s s' : Sketch α} {span : Span} {bit : Bool} (h : s.compact span bit = .ok s') :
    ∃ levels items, s' = { s with levels, items } := by
  obtain ⟨levels, -, h⟩ := bind_eq_ok_iff.mp h
  obtain ⟨items, -, h⟩ := bind_eq_ok_iff.mp h
  exact ⟨levels, items, (pure_eq_ok_iff.mp h).symm⟩

/-- What a compaction that succeeds does to the boundaries, whatever the items are. -/
theorem compact_levels {s s' : Sketch α} {free : ℕ} {lower upper : List ℕ} {here above : ℕ}
    {bit : Bool} (hlevels : s.levels = boundaries free (lower ++ here :: above :: upper))
    (hbound : free + (lower ++ here :: above :: upper).sum < wordBound 32)
    (h : s.compact (spanAt free lower here above) bit = .ok s') :
    ∃ items, items.size = s.items.size ∧
      s' = { s with
        levels := boundaries (free + here / 2) (lower ++ here % 2 :: (above + here / 2) :: upper)
        items } := by
  obtain ⟨levels, hcompacted, h⟩ := bind_eq_ok_iff.mp h
  obtain ⟨items, hitems, h⟩ := bind_eq_ok_iff.mp h
  rw [hlevels, compactedLevels_eq_ok hbound, Except.ok.injEq] at hcompacted
  refine ⟨items, size_compactedItems hitems, ?_⟩
  rw [hcompacted, ← pure_eq_ok_iff.mp h]

/-- A compaction of a level with at least two items succeeds if its pairs can be ordered, and only
the items of this level and of the one above it change. -/
theorem compact_represents {s : Sketch α} {slack here above pairs : List α}
    {lower upper : List (List α)} (bit : Bool)
    (h : s.Represents slack (lower ++ here :: above :: upper))
    (hbound : s.items.size < wordBound 32) (hhere : 2 ≤ here.length)
    (hpairs : orderedPairs lower.length (here.drop (here.length % 2)) = .ok pairs)
    (hlen : pairs.length = (here.drop (here.length % 2)).length) :
    ∃ levels items slack', slack'.length = slack.length + here.length / 2 ∧
      s.compact (spanAt slack.length (lower.map List.length) here.length above.length) bit =
        .ok { s with levels, items } ∧
      Represents { s with levels, items } slack'
        (lower ++ here.take (here.length % 2) :: promoted bit pairs above :: upper) := by
  set odd := here.take (here.length % 2) with hodd
  set rest := here.drop (here.length % 2) with hrest
  set span := spanAt slack.length (lower.map List.length) here.length above.length with hspan
  have hsplit : odd ++ rest = here := List.take_append_drop _ _
  have hoddLength : odd.length = here.length % 2 := by
    rw [hodd, List.length_take]
    omega
  have hrestLength : rest.length = here.length - here.length % 2 := List.length_drop
  have hsum : s.items.size =
      slack.length + ((lower ++ here :: above :: upper).map List.length).sum := by
    rw [h.items_eq, List.size_toArray, List.length_append, List.length_flatten]
  rw [hsum, List.map_append, List.map_cons, List.map_cons] at hbound
  have hitems : s.items =
      (slack ++ lower.flatten ++ odd ++ rest ++ above ++ upper.flatten).toArray := by
    rw [h.items_eq, ← hsplit]
    simp
  have hlevels := h.levels_eq
  rw [List.map_append, List.map_cons, List.map_cons] at hlevels
  have hlevel : span.level = lower.length := List.length_map List.length
  have hstart : span.start = slack.length + lower.flatten.length := by
    rw [hspan, spanAt, List.length_flatten]
  have hstop : span.stop = span.start + odd.length + rest.length := by
    rw [hoddLength, hrestLength, Nat.add_assoc, Nat.add_sub_of_le (Nat.mod_le _ _)]
    rfl
  have hlower : span.level = 0 → lower.flatten = [] := by
    rw [hlevel]
    intro hzero
    rw [List.length_eq_zero_iff.mp hzero, List.flatten_nil]
  rw [← hlevel] at hpairs
  obtain ⟨slack', hslack', hcompacted⟩ := compactedItems_append bit slack lower.flatten odd rest
    above upper.flatten hstart hstop rfl (by omega) (by omega) (by omega) hlower hpairs hlen
  have hfree : slack'.length = slack.length + here.length / 2 := by omega
  have hlengths : boundaries slack'.length
      ((lower ++ odd :: promoted bit pairs above :: upper).map List.length) =
        boundaries (slack.length + here.length / 2) (lower.map List.length ++
          here.length % 2 :: (above.length + here.length / 2) :: upper.map List.length) := by
    have hpromoted : (promoted bit pairs above).length = above.length + here.length / 2 := by
      rw [length_promoted]
      omega
    rw [hfree, List.map_append, List.map_cons, List.map_cons, hoddLength, hpromoted]
  have hslots : (slack' ++ (lower ++ odd :: promoted bit pairs above :: upper).flatten).toArray =
      (slack' ++ lower.flatten ++ odd ++ promoted bit pairs above ++ upper.flatten).toArray := by
    simp
  refine ⟨_, _, slack', hfree, ?_, ⟨rfl, rfl⟩⟩
  rw [compact, hlevels, compactedLevels_eq_ok hbound, ok_bind, hitems, h.free_eq, hcompacted,
    ok_bind, hlengths, ← hslots]
  rfl

/-- Ordering the pairs of a level only rearranges them. -/
lemma orderedPairs_perm {level : ℕ} {pairs ordered : List α}
    (hlen : pairs.length ≤ Sorting.mergeLimit) (h : orderedPairs level pairs = .ok ordered) :
    ordered.Perm pairs := by
  unfold orderedPairs at h
  split at h
  · exact Slots.sorted_perm hlen h
  · rw [Except.ok.inj h]

/-- The pairs of a level can be ordered if its compaction succeeds. -/
lemma Represents.exists_orderedPairs_of_compact {s s' : Sketch α} {slack here above : List α}
    {lower upper : List (List α)} {bit : Bool}
    (h : s.Represents slack (lower ++ here :: above :: upper))
    (hcompact : s.compact (spanAt slack.length (lower.map List.length) here.length above.length)
      bit = .ok s') :
    ∃ pairs, orderedPairs lower.length (here.drop (here.length % 2)) = .ok pairs := by
  set odd := here.take (here.length % 2) with hodd
  set rest := here.drop (here.length % 2) with hrest
  set span := spanAt slack.length (lower.map List.length) here.length above.length with hspan
  have hlevel : span.level = lower.length := List.length_map List.length
  have hitems : s.items =
      (slack ++ lower.flatten ++ odd ++ rest ++ (above ++ upper.flatten)).toArray := by
    rw [h.items_eq, ← List.take_append_drop (here.length % 2) here]
    simp [hodd, hrest]
  have hpop : span.population = here.length := population_spanAt _ _ _ _
  have hoddLength : span.odd = odd.length := by
    rw [Span.odd, hpop, hodd, List.length_take]
    omega
  have hstart : span.pairsStart = (slack ++ lower.flatten ++ odd).length := by
    rw [Span.pairsStart, hoddLength, List.length_append, List.length_append, List.length_flatten]
    rfl
  have hlen : span.pairsLength = rest.length := by
    rw [Span.pairsLength, hpop, Span.odd, hpop, hrest, List.length_drop]
  obtain ⟨levels, -, hcompact⟩ := bind_eq_ok_iff.mp hcompact
  obtain ⟨items, hcompacted, -⟩ := bind_eq_ok_iff.mp hcompact
  rw [compactedItems_eq, hitems, hlevel] at hcompacted
  obtain ⟨sorted, hsort, -⟩ := bind_eq_ok_iff.mp hcompacted
  unfold orderedPairs
  split
  · rename_i hzero
    rw [if_pos hzero] at hsort
    exact Slots.exists_sorted_of_sortRun _ rest _ hstart hlen hsort
  · exact ⟨rest, rfl⟩

/-- The pairs of a level of numbers can be ordered, and none of them is lost. -/
theorem exists_orderedPairs (level : ℕ) {pairs : List α} (h : Item.AllNumbers pairs) :
    ∃ ordered, orderedPairs level pairs = .ok ordered ∧ ordered.Perm pairs := by
  unfold orderedPairs
  split
  · obtain ⟨ordered, hsorted, hperm, -⟩ := Slots.sorted_spec h
    exact ⟨ordered, hsorted, hperm⟩
  · exact ⟨pairs, rfl, .refl pairs⟩

/-- The ordered pairs are sorted if all levels above level 0 are. -/
lemma isSorted_orderedPairs {level : ℕ} {pairs ordered : List α} (h : Item.AllNumbers pairs)
    (hsorted : 0 < level → Item.IsSorted pairs)
    (hordered : orderedPairs level pairs = .ok ordered) : Item.IsSorted ordered := by
  unfold orderedPairs at hordered
  split at hordered
  · obtain ⟨ordered', hsorted', -, hspec⟩ := Slots.sorted_spec h
    rw [hordered, Except.ok.injEq] at hsorted'
    rwa [hsorted']
  · rename_i hlevel
    rw [← Except.ok.inj hordered]
    exact hsorted (Nat.pos_of_ne_zero hlevel)

/-- How far a compaction moves the weight of the items with a property: each survivor counts twice,
and all items of the pairs counted once. -/
theorem weightOf_compacted {s s' : Sketch α} {slack slack' here above pairs : List α}
    {lower upper : List (List α)} {bit : Bool}
    (h : s.Represents slack (lower ++ here :: above :: upper))
    (h' : s'.Represents slack'
      (lower ++ here.take (here.length % 2) :: promoted bit pairs above :: upper))
    (hperm : pairs.Perm (here.drop (here.length % 2))) (p : α → Bool) :
    (s'.weightOf p : ℤ) = s.weightOf p +
      2 ^ lower.length * (2 * (alternate (keepsSecond bit above) pairs).countP p -
        pairs.countP p) := by
  have hhere : here.countP p = (here.take (here.length % 2)).countP p + pairs.countP p := by
    rw [hperm.countP_eq, ← List.countP_append, List.take_append_drop]
  have hpromoted : (promoted bit pairs above).countP p =
      (alternate (keepsSecond bit above) pairs).countP p + above.countP p := by
    rw [promoted, (Slots.mergedRun_perm _ _).countP_eq, List.countP_append]
  rw [h.weightOf_eq, h'.weightOf_eq]
  simp only [List.map_append, List.map_cons, totalWeight_append, totalWeight, List.length_map,
    hhere, hpromoted]
  push_cast
  ring

end Sketch

end QuantileSketch
