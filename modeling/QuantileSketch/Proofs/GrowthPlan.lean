import QuantileSketch.Growth
import QuantileSketch.Proofs.FullLevels
import QuantileSketch.Proofs.Images.Encoding

/-!
# The growth plan

The plan counts full levels one by one, in words that are cut off at the largest one, and comes to
the same numbers as if the exact ones were cut off once (`addFullLevels_eq_ok`). A new level goes
below all others, so that every item of theirs weighs twice as much: the longest stream that full
levels take is doubled, and the capacity of the new level is added (`longestStream_succ`).

So more levels take longer streams, and for each stream there is a number of levels from which on
all are enough. The plan finds it by trying one number after the other (`planFrom_searchEnds`), and
is refused if even the largest number is too small (`growthPlan_threshold`). Each size on the way
has to be a word (`SizesFit`), as it is for the items of a sketch (`sizesFit_of_isItemWidth`).
-/

namespace QuantileSketch

variable {k m n itemSize remaining numLevels : ℕ} {log : List Event} {plan : GrowthPlan}

/-! ### Counting full levels -/

/-- The longest stream that full levels take, cut off at the largest word. -/
def longestStream (k m numLevels : ℕ) : ℕ := saturate (fullWeight k m numLevels)

/-- A full level is counted with its capacity, which depends on its distance from the top. -/
lemma levelCapacityItems_eq_ok {level : ℕ} (hk : k < wordBound 16)
    (hlevels : numLevels ≤ maxLevels) (hcount : level + (remaining + 1) = numLevels) :
    levelCapacityItems k m numLevels level =
      .ok ⟨saturate (capacityAt k m remaining <<< level), numLevels, capacityAt k m remaining⟩ := by
  rw [levelCapacityItems, levelCapacity_eq_ok_of_depth hk hlevels hcount]
  rfl

/-- The levels from one of them to the top add what as many full levels hold and stand for, with
each item doubled for every level below. -/
lemma addFullLevels_eq_ok {level : ℕ} (below : Totals) (hk : k < wordBound 16)
    (hlevels : numLevels ≤ maxLevels) (hcount : level + remaining = numLevels)
    (hword : below.items + totalCapacity k m remaining < wordBound 32)
    (hn : below.n = saturate n) :
    ∃ totals, addFullLevels k m numLevels remaining level below = .ok totals ∧
      totals.items = below.items + totalCapacity k m remaining ∧
      totals.n = saturate (n + fullWeight k m remaining * 2 ^ level) := by
  induction remaining generalizing level below n with
  | zero =>
    have hnone : n + fullWeight k m 0 * 2 ^ level = n := by
      rw [fullWeight, fullPopulations, totalWeight, Nat.zero_mul, Nat.add_zero]
    exact ⟨below, rfl, rfl, by rw [hnone, hn]⟩
  | succ remaining ih =>
    have hitems : below.items + totalCapacity k m (remaining + 1) =
        below.items + capacityAt k m remaining + totalCapacity k m remaining := by
      rw [totalCapacity]
      omega
    have hweight : n + fullWeight k m (remaining + 1) * 2 ^ level =
        n + capacityAt k m remaining <<< level + fullWeight k m remaining * 2 ^ (level + 1) := by
      rw [fullWeight_succ, Nat.shiftLeft_eq]
      ring
    rw [hitems] at hword
    have hstats := levelCapacityItems_eq_ok (m := m) hk hlevels hcount
    have hadd : addWord 32 below.items (capacityAt k m remaining) = .ok _ :=
      addWord_eq_ok_iff.mpr ⟨(Nat.le_add_right _ _).trans_lt hword, rfl⟩
    have hcount' : level + 1 + remaining = numLevels := by omega
    rw [addFullLevels, hstats, ok_bind]
    dsimp only
    rw [hadd, ok_bind, hn, saturate_saturate_add, hitems, hweight]
    exact ih _ hcount' hword rfl

/-- The totals of all levels, for every possible number of them. -/
lemma exists_fullTotals_eq_ok (hvalid : ParametersValid k m) (hlevels : numLevels ≤ maxLevels) :
    ∃ totals, fullTotals k m numLevels = .ok totals ∧
      totals.items = totalCapacity k m numLevels ∧ totals.n = longestStream k m numLevels := by
  have hword : 0 + totalCapacity k m numLevels < wordBound 32 := by
    rw [Nat.zero_add]
    exact totalCapacity_lt hvalid hlevels
  have hnone : 0 = saturate 0 := rfl
  obtain ⟨totals, htotals, hitems, hn⟩ :=
    addFullLevels_eq_ok { items := 0, n := 0, events := [] } hvalid.k_lt hlevels
      (Nat.zero_add numLevels) hword hnone
  rw [Nat.zero_add] at hitems
  rw [Nat.zero_add, pow_zero, Nat.mul_one] at hn
  exact ⟨totals, htotals, hitems, hn⟩

/-- More levels than there can be have no totals, because not even level 0 is counted. -/
lemma numLevels_le_of_fullTotals {totals : Totals} (h : fullTotals k m numLevels = .ok totals) :
    numLevels ≤ maxLevels := by
  cases numLevels with
  | zero => exact Nat.zero_le maxLevels
  | succ numLevels =>
    obtain ⟨stats, hstats, -⟩ := bind_eq_ok_iff.mp h
    obtain ⟨capacity, hcapacity, -⟩ := bind_eq_ok_iff.mp hstats
    exact numLevels_le_of_levelCapacity hcapacity

/-- Full levels are counted, and the events tell of it. -/
lemma exists_fullSketchStats_eq (hvalid : ParametersValid k m) (hlevels : numLevels ≤ maxLevels) :
    ∃ events, fullSketchStats k m numLevels =
      (events, .ok ⟨longestStream k m numLevels, numLevels, totalCapacity k m numLevels⟩) := by
  obtain ⟨totals, htotals, hitems, hn⟩ := exists_fullTotals_eq_ok hvalid hlevels
  refine ⟨totals.events, ?_⟩
  rw [fullSketchStats, htotals, ← hitems, ← hn]

/-- Full levels are counted for every possible number of them. -/
lemma fullSketchStats_eq_ok_iff {stats : LevelStats} (hvalid : ParametersValid k m) :
    (fullSketchStats k m numLevels).2 = .ok stats ↔
      numLevels ≤ maxLevels ∧
        stats = ⟨longestStream k m numLevels, numLevels, totalCapacity k m numLevels⟩ := by
  by_cases hlevels : numLevels ≤ maxLevels
  · obtain ⟨events, hstats⟩ := exists_fullSketchStats_eq hvalid hlevels
    rw [hstats, Except.ok.injEq, eq_comm]
    exact (and_iff_right hlevels).symm
  · refine iff_of_false ?_ fun h => hlevels h.1
    unfold fullSketchStats
    split
    · simp
    · rename_i htotals
      exact absurd (numLevels_le_of_fullTotals htotals) hlevels

/-- A new level below all others doubles the stream that they take and adds its own capacity. -/
lemma longestStream_succ (k m numLevels : ℕ) :
    longestStream k m (numLevels + 1) =
      saturate (2 * longestStream k m numLevels + capacityAt k m numLevels) := by
  unfold longestStream
  rw [fullWeight_succ]
  unfold saturate
  omega

/-- More full levels take longer streams. -/
lemma longestStream_mono (k m : ℕ) : Monotone (longestStream k m) := by
  intro fewer more h
  exact min_le_min le_rfl (fullWeight_mono k m h)

/-! ### Trying numbers of levels -/

/-- The plan of a sketch with a known number of levels. -/
def GrowthPlan.ofLevels (k m n itemSize numLevels : ℕ) : GrowthPlan where
  k := k
  m := m
  givenN := n
  numLevels := numLevels
  maxItems := totalCapacity k m numLevels
  maxN := longestStream k m numLevels
  compactBytes := fullImageSize numLevels (totalCapacity k m numLevels) itemSize
  updatableBytes := updatableSize numLevels (totalCapacity k m numLevels) itemSize

/-- An updatable image has one boundary more than a full compact one. -/
lemma fullImageSize_add_offsetBytes (numLevels items itemSize : ℕ) :
    fullImageSize numLevels items itemSize + offsetBytes =
      updatableSize numLevels items itemSize := by
  rw [updatableSize, fullImageSize, fullImageSize, Nat.add_mul, Nat.one_mul]
  omega

/-- The size of the updatable image with a number of levels is a word. -/
def SizeFits (k m itemSize numLevels : ℕ) : Prop :=
  updatableSize numLevels (totalCapacity k m numLevels) itemSize < wordBound 64

/-- What trying the numbers of levels from `first` on and below `limit` comes to. The first that is
enough is found, or none is, or a size on the way is no word. -/
inductive SearchEnds (k m n itemSize first limit : ℕ) : Except Failure GrowthPlan → Prop
  | found {enough : ℕ} (first_le : first ≤ enough) (lt_limit : enough < limit)
      (le_longest : n ≤ longestStream k m enough)
      (shorter : ∀ fewer, first ≤ fewer → fewer < enough → longestStream k m fewer < n)
      (fits : ∀ tried, first ≤ tried → tried ≤ enough → SizeFits k m itemSize tried) :
      SearchEnds k m n itemSize first limit (.ok (.ofLevels k m n itemSize enough))
  | exhausted
      (shorter : ∀ fewer, first ≤ fewer → fewer < limit → longestStream k m fewer < n)
      (fits : ∀ tried, first ≤ tried → tried < limit → SizeFits k m itemSize tried) :
      SearchEnds k m n itemSize first limit (.error (.refused (Cause.streamTooLong k m n).error))
  | overflow {tried : ℕ} (first_le : first ≤ tried) (lt_limit : tried < limit)
      (shorter : ∀ fewer, first ≤ fewer → fewer < tried → longestStream k m fewer < n)
      (large : ¬SizeFits k m itemSize tried) :
      SearchEnds k m n itemSize first limit (.error (.aborted .overflow))

/-- What holds of the first number and of all later ones holds of all. -/
lemma forall_from_first {first : ℕ} {p q : ℕ → Prop} (hfirst : q first)
    (hlater : ∀ i, first + 1 ≤ i → p i → q i) : ∀ i, first ≤ i → p i → q i := by
  intro i hle hp
  rcases Nat.eq_or_lt_of_le hle with rfl | hlt
  · exact hfirst
  · exact hlater i hlt hp

/-- If the first number is tried and is not enough, the search goes on from the next one. -/
lemma SearchEnds.of_succ {first limit : ℕ} {answer : Except Failure GrowthPlan}
    (hshort : longestStream k m first < n) (hfits : SizeFits k m itemSize first)
    (h : SearchEnds k m n itemSize (first + 1) limit answer) :
    SearchEnds k m n itemSize first limit answer := by
  cases h with
  | found hle hlt htakes hshorter hall =>
    exact .found (Nat.le_of_succ_le hle) hlt htakes (forall_from_first hshort hshorter)
      (forall_from_first hfits hall)
  | exhausted hshorter hall =>
    exact .exhausted (forall_from_first hshort hshorter) (forall_from_first hfits hall)
  | overflow hle hlt hshorter hlarge =>
    exact .overflow (Nat.le_of_succ_le hle) hlt (forall_from_first hshort hshorter) hlarge

/-- Numbers of levels are tried one after the other. -/
theorem planFrom_searchEnds (hvalid : ParametersValid k m) (n itemSize : ℕ) (log : List Event)
    (hmost : numLevels + remaining ≤ maxLevels + 1) :
    SearchEnds k m n itemSize numLevels (numLevels + remaining)
      (planFrom k m n itemSize remaining numLevels log).2 := by
  induction remaining generalizing numLevels log with
  | zero => exact .exhausted (fun _ _ _ => by omega) (fun _ _ _ => by omega)
  | succ remaining ih =>
    have hlimit : numLevels < numLevels + (remaining + 1) := by omega
    have hlevels : numLevels ≤ maxLevels := by omega
    obtain ⟨events, hstats⟩ := exists_fullSketchStats_eq hvalid hlevels
    unfold planFrom
    rw [hstats]
    dsimp only
    rw [fullImageSize_add_offsetBytes]
    by_cases hfits : SizeFits k m itemSize numLevels
    · have hword : fitWord 64 (updatableSize numLevels (totalCapacity k m numLevels) itemSize) =
          .ok _ := fitWord_eq_ok_iff.mpr ⟨hfits, rfl⟩
      rw [hword]
      dsimp only
      split
      · rename_i henough
        refine .found le_rfl hlimit henough (fun _ _ _ => by omega) ?_
        intro tried hle hle'
        rwa [Nat.le_antisymm hle' hle]
      · rename_i hshort
        have hrest : numLevels + (remaining + 1) = numLevels + 1 + remaining := by omega
        refine .of_succ (not_le.mp hshort) hfits ?_
        rw [hrest] at hmost ⊢
        exact ih _ hmost
    · have hword : fitWord 64 (updatableSize numLevels (totalCapacity k m numLevels) itemSize) =
          .error .overflow := if_neg hfits
      rw [hword]
      exact .overflow le_rfl hlimit (fun _ _ _ => by omega) hfits

/-! ### The plan -/

/-- With valid parameters all numbers of levels that are possible are tried. -/
lemma growthPlan_searchEnds (hvalid : ParametersValid k m) (n itemSize : ℕ) :
    SearchEnds k m n itemSize 1 (1 + maxLevels) (growthPlan k m n itemSize).2 := by
  obtain ⟨hm, hk⟩ := parametersValid_iff (u := ()) (v := ()) |>.mp hvalid
  have hsearch := planFrom_searchEnds hvalid n itemSize [] (Nat.add_comm 1 maxLevels).le
  rw [growthPlan, hm, ok_bind, hk]
  exact hsearch

/-- A plan is made for valid parameters only. -/
lemma parametersValid_of_growthPlan (h : (growthPlan k m n itemSize).2 = .ok plan) :
    ParametersValid k m := by
  unfold growthPlan at h
  split at h
  · cases h
  rename_i hchecks
  obtain ⟨_, hm, hk⟩ := bind_eq_ok_iff.mp hchecks
  exact parametersValid_iff.mpr ⟨hm, hk⟩

/-- The plan for a stream has the smallest number of levels that take it when they are full. -/
lemma exists_growthPlan_eq (h : (growthPlan k m n itemSize).2 = .ok plan) :
    ∃ enough, 1 ≤ enough ∧ enough ≤ maxLevels ∧ plan = .ofLevels k m n itemSize enough ∧
      n ≤ longestStream k m enough ∧
      (∀ fewer, 1 ≤ fewer → fewer < enough → longestStream k m fewer < n) ∧
      SizeFits k m itemSize enough := by
  have hsearch := growthPlan_searchEnds (parametersValid_of_growthPlan h) n itemSize
  rw [h] at hsearch
  cases hsearch with
  | found hpos hlt htakes hshorter hfits =>
    exact ⟨_, hpos, by omega, rfl, htakes, hshorter, hfits _ hpos le_rfl⟩

/-- The plan for a stream has the smallest number of levels that stand for so long a stream when
they are full. -/
theorem growthPlan_eq_ok (h : (growthPlan k m n itemSize).2 = .ok plan) :
    ParametersValid k m ∧ 1 ≤ plan.numLevels ∧ plan.numLevels ≤ maxLevels ∧
      plan = .ofLevels k m n itemSize plan.numLevels ∧
      n ≤ maxWord64 ∧ n ≤ fullWeight k m plan.numLevels ∧
      ∀ fewer, 1 ≤ fewer → fewer < plan.numLevels → fullWeight k m fewer < n := by
  obtain ⟨enough, hpos, hmax, rfl, htakes, hshorter, -⟩ := exists_growthPlan_eq h
  have hword : n ≤ maxWord64 := htakes.trans (saturate_le _)
  refine ⟨parametersValid_of_growthPlan h, hpos, hmax, rfl, hword,
    htakes.trans (Nat.min_le_right _ _), ?_⟩
  intro fewer hfewer hlt
  have hshort := hshorter fewer hfewer hlt
  -- the weight of fewer levels has not been cut off, because it is below a word
  rw [longestStream, saturate, min_lt_iff] at hshort
  rcases hshort with hcut | hshort
  · exact absurd hcut (not_lt.mpr hword)
  · exact hshort

/-- The plan never needs more levels than the simple bound. -/
theorem plan_numLevels_le_levelBound (h : (growthPlan k m n itemSize).2 = .ok plan) :
    plan.numLevels ≤ levelBound n := by
  obtain ⟨hvalid, -, -, -, -, -, hfewer⟩ := growthPlan_eq_ok h
  by_contra hmore
  have hpos : 1 ≤ levelBound n := by
    rw [levelBound]
    split <;> omega
  have hshort := hfewer (levelBound n) hpos (not_le.mp hmore)
  exact absurd hshort (not_lt.mpr (le_fullWeight_levelBound hvalid.leastM_le n))

/-! ### The threshold -/

/-- The number of levels from which on full levels take a stream. All smaller numbers are too small,
and all larger ones are enough. -/
def IsThreshold (k m n threshold : ℕ) : Prop :=
  1 ≤ threshold ∧ threshold ≤ maxLevels ∧
    ∀ numLevels stats, 1 ≤ numLevels → (fullSketchStats k m numLevels).2 = .ok stats →
      (stats.n < n ↔ numLevels < threshold)

/-- All sizes are words that are computed while numbers of levels are tried for a stream. -/
def SizesFit (k m n itemSize : ℕ) : Prop :=
  ∀ tried, 1 ≤ tried → tried ≤ maxLevels →
    (∀ fewer, 1 ≤ fewer → fewer < tried → longestStream k m fewer < n) →
      SizeFits k m itemSize tried

/-- The first number of levels that takes a stream is the threshold. -/
lemma IsThreshold.of_first {enough : ℕ} (hvalid : ParametersValid k m) (hpos : 1 ≤ enough)
    (hmax : enough ≤ maxLevels) (htakes : n ≤ longestStream k m enough)
    (hshorter : ∀ fewer, 1 ≤ fewer → fewer < enough → longestStream k m fewer < n) :
    IsThreshold k m n enough := by
  refine ⟨hpos, hmax, ?_⟩
  intro numLevels stats hnumLevels hstats
  obtain ⟨-, rfl⟩ := (fullSketchStats_eq_ok_iff hvalid).mp hstats
  constructor
  · intro hshort
    by_contra hmore
    have hmono := longestStream_mono k m (not_lt.mp hmore)
    exact absurd hshort (not_lt.mpr (htakes.trans hmono))
  · exact hshorter numLevels hnumLevels

/-- There is just one threshold. -/
lemma IsThreshold.unique {first second : ℕ} (hvalid : ParametersValid k m)
    (hfirst : IsThreshold k m n first)
    (hsecond : IsThreshold k m n second) : first = second := by
  obtain ⟨hpos, hmax, hiff⟩ := hfirst
  obtain ⟨hpos', hmax', hiff'⟩ := hsecond
  have hsame (numLevels : ℕ) (h : 1 ≤ numLevels) (hle : numLevels ≤ maxLevels) :
      numLevels < first ↔ numLevels < second := by
    have hstats := (fullSketchStats_eq_ok_iff hvalid).mpr ⟨hle, rfl⟩
    exact (hiff numLevels _ h hstats).symm.trans (hiff' numLevels _ h hstats)
  have hle := (hsame first hpos hmax).not.mp (lt_irrefl first)
  have hge := (hsame second hpos' hmax').not.mpr (lt_irrefl second)
  omega

/-- A longer stream needs no fewer levels. -/
lemma plan_numLevels_mono {n' itemSize' : ℕ} {plan' : GrowthPlan} (hn : n ≤ n')
    (h : (growthPlan k m n itemSize).2 = .ok plan)
    (h' : (growthPlan k m n' itemSize').2 = .ok plan') : plan.numLevels ≤ plan'.numLevels := by
  obtain ⟨-, -, -, -, -, -, hshorter⟩ := growthPlan_eq_ok h
  obtain ⟨-, hpos, -, -, -, htakes, -⟩ := growthPlan_eq_ok h'
  by_contra hmore
  have hshort := hshorter plan'.numLevels hpos (not_le.mp hmore)
  omega

/-- The items of a sketch are so small that all sizes are words. -/
lemma sizesFit_of_isItemWidth (hvalid : ParametersValid k m) (n : ℕ)
    (hwidth : IsItemWidth itemSize) : SizesFit k m n itemSize := by
  intro tried _ hmax _
  exact (Sketch.fullImageSize_lt (Nat.succ_le_succ hmax) (totalCapacity_le_slotLimit hvalid hmax)
    hwidth).trans (by decide)

/-- Making a plan aborts exactly if some size on the way is no word. -/
theorem growthPlan_aborts_iff (hvalid : ParametersValid k m) (n itemSize : ℕ) :
    (∃ abort, (growthPlan k m n itemSize).2 = .error (.aborted abort)) ↔
      ¬SizesFit k m n itemSize := by
  have hsearch := growthPlan_searchEnds hvalid n itemSize
  generalize (growthPlan k m n itemSize).2 = answer at hsearch
  cases hsearch with
  | found hpos hlt htakes hshorter hfits =>
    refine iff_of_false (by simp) (not_not_intro ?_)
    intro tried htried _ htoo
    -- nothing is tried beyond the number that is enough
    refine hfits tried htried (not_lt.mp fun hmore => ?_)
    exact absurd (htoo _ hpos hmore) (not_lt.mpr htakes)
  | exhausted hshorter hfits =>
    refine iff_of_false (by simp) (not_not_intro ?_)
    intro tried htried hmax _
    exact hfits tried htried (by omega)
  | overflow hpos hlt hshorter hlarge =>
    exact iff_of_true ⟨_, rfl⟩ fun hsizes => hlarge (hsizes _ hpos (by omega) hshorter)

/-- Counting is the same for one level more, but for a new level below all others: its capacity is
added to the items, and to the doubled stream as far as words go. With sizes that are words, a plan
is refused exactly for streams that are longer than what full levels of the largest number take. For
any other stream there is one threshold, which is the number of levels of the plan; its items are
the total capacity. A longer stream needs no fewer levels. -/
theorem growthPlan_threshold (hvalid : ParametersValid k m) :
    (∀ numLevels, 1 ≤ numLevels → numLevels < maxLevels →
      ∃ (stats stats' : LevelStats) (width : ℕ),
        (fullSketchStats k m numLevels).2 = .ok stats ∧
        (fullSketchStats k m (numLevels + 1)).2 = .ok stats' ∧
        levelCapacity k (numLevels + 1) 0 m = .ok width ∧
        stats'.numItems = stats.numItems + width ∧
        stats'.n = min maxWord64 (2 * stats.n + width)) ∧
    (∃ most : LevelStats, (fullSketchStats k m maxLevels).2 = .ok most ∧
      ∀ n itemSize, SizesFit k m n itemSize →
        ((∃ error, (growthPlan k m n itemSize).2 = .error (.refused error)) ↔ most.n < n) ∧
        (n ≤ most.n → ∃ plan : GrowthPlan, (growthPlan k m n itemSize).2 = .ok plan ∧
          (∀ threshold, IsThreshold k m n threshold ↔ threshold = plan.numLevels) ∧
          totalItemCapacity k m plan.numLevels = .ok plan.maxItems)) ∧
    ∀ (n n' itemSize itemSize' : ℕ) (plan plan' : GrowthPlan), n ≤ n' →
      (growthPlan k m n itemSize).2 = .ok plan → (growthPlan k m n' itemSize').2 = .ok plan' →
        plan.numLevels ≤ plan'.numLevels := by
  refine ⟨?_, ?_, fun _ _ _ _ _ _ hn h h' => plan_numLevels_mono hn h h'⟩
  · intro numLevels _ hlt
    refine ⟨_, _, _, (fullSketchStats_eq_ok_iff hvalid).mpr ⟨hlt.le, rfl⟩,
      (fullSketchStats_eq_ok_iff hvalid).mpr ⟨hlt, rfl⟩,
      levelCapacity_eq_ok hvalid.k_lt hlt (Nat.succ_pos _), rfl, ?_⟩
    exact longestStream_succ k m numLevels
  · refine ⟨_, (fullSketchStats_eq_ok_iff hvalid).mpr ⟨le_rfl, rfl⟩, ?_⟩
    intro n itemSize hsizes
    have hsearch := growthPlan_searchEnds hvalid n itemSize
    generalize (growthPlan k m n itemSize).2 = answer at hsearch
    cases hsearch with
    | @found enough hpos hlt htakes hshorter hfits =>
      have hmax : enough ≤ maxLevels := by omega
      have hmost : n ≤ longestStream k m maxLevels :=
        htakes.trans (longestStream_mono k m hmax)
      have hthreshold : IsThreshold k m n enough := .of_first hvalid hpos hmax htakes hshorter
      refine ⟨iff_of_false (by simp) (not_lt.mpr hmost), fun _ => ⟨_, rfl, ?_, ?_⟩⟩
      · intro threshold
        exact ⟨fun h => h.unique hvalid hthreshold, fun h => h ▸ hthreshold⟩
      · exact totalItemCapacity_eq_ok hvalid hmax
    | exhausted hshorter hfits =>
      have hlong : longestStream k m maxLevels < n := hshorter maxLevels (by decide) (by omega)
      exact ⟨iff_of_true ⟨_, rfl⟩ hlong, fun hmost => absurd hmost (not_le.mpr hlong)⟩
    | overflow hpos hlt hshorter hlarge =>
      exact absurd (hsizes _ hpos (by omega) hshorter) hlarge

/-- With four slots in the top level and two at least in each, levels have room for four, three and
two items from the top down. Three levels are planned for twelve items, with nine slots, and no
number of levels takes the next item after those that stand in 61 full levels. -/
theorem growthPlan_threshold_of_four_slots :
    ParametersValid 4 2 ∧
      (∃ plan : GrowthPlan, (growthPlan 4 2 12 4).2 = .ok plan ∧ plan.numLevels = 3 ∧
        plan.maxItems = 9) ∧
      ∃ error, (growthPlan 4 2 (13 * 2 ^ 59 - 1) 4).2 = .error (.refused error) := by
  have hvalid : ParametersValid 4 2 := by decide
  have hwidth : IsItemWidth 4 := isItemWidth_four
  obtain ⟨-, ⟨most, hmost, hplans⟩, -⟩ := growthPlan_threshold hvalid
  have hn : most.n = 13 * 2 ^ 59 - 2 := by
    obtain ⟨-, rfl⟩ := (fullSketchStats_eq_ok_iff hvalid).mp hmost
    decide +kernel
  refine ⟨hvalid, ?_, ?_⟩
  · obtain ⟨plan, hplan, hthreshold, hitems⟩ :=
      (hplans 12 4 (sizesFit_of_isItemWidth hvalid 12 hwidth)).2 (by rw [hn]; decide)
    have hlevels : plan.numLevels = 3 := by
      refine ((hthreshold 3).mp ?_).symm
      refine .of_first hvalid (by decide) (by decide) (by decide +kernel) ?_
      intro fewer hpos hlt
      interval_cases fewer <;> decide +kernel
    have hnine : totalItemCapacity 4 2 3 = .ok 9 := by decide +kernel
    rw [hlevels, hnine, Except.ok.injEq] at hitems
    exact ⟨plan, hplan, hlevels, hitems.symm⟩
  · exact (hplans (13 * 2 ^ 59 - 1) 4 (sizesFit_of_isItemWidth hvalid _ hwidth)).1.mpr
      (by rw [hn]; decide)

end QuantileSketch
