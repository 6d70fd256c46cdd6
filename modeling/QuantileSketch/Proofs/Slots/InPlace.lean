import QuantileSketch.Item.Float
import QuantileSketch.Proofs.ItemOrder

/-!
# Halving and merging in place

Halving a run and merging two runs read and write the same array of slots, and slots that are still
to be read may lie among those that are written. What the operations leave is told here slot by
slot, for any array: the slots that are written get what they would get from a copy of the array,
and all other slots keep their items (`SameOutside`).

So a halving leaves exactly one item of each pair, and the items that it leaves for one bit are
those that it does not leave for the other (`halving_in_place`). A merge leaves the stable merge of
the two runs (`merging_in_place`).
-/

namespace QuantileSketch.Slots

variable {α : Type}

/-! ### Segments and their surroundings -/

/-- The items in the `len` slots from `start` on. -/
def segment (xs : Array α) (start len : ℕ) : List α := (xs.extract start (start + len)).toList

/-- Two arrays of slots that differ at most in the slots from `start` up to `stop`. -/
structure SameOutside (start stop : ℕ) (xs ys : Array α) : Prop where
  size_eq : ys.size = xs.size
  getElem?_eq : ∀ i, i < start ∨ stop ≤ i → ys[i]? = xs[i]?

variable {xs ys : Array α} {start len i : ℕ}

/-- A segment that lies at a given position. -/
lemma segment_eq {pre mid post : List α} (hxs : xs = (pre ++ mid ++ post).toArray)
    (hstart : start = pre.length) (hlen : len = mid.length) : segment xs start len = mid := by
  rw [segment, extract_eq hxs hstart (by rw [hstart, hlen])]

/-- The items of a segment one by one. -/
lemma getElem?_segment (hi : i < len) : (segment xs start len)[i]? = xs[start + i]? := by
  simp [segment, List.getElem?_take_of_lt, hi]

/-- A segment of slots that are all there. -/
lemma length_segment (h : start + len ≤ xs.size) : (segment xs start len).length = len := by
  rw [segment, Array.length_toList, Array.size_extract, Nat.min_eq_left h, Nat.add_sub_cancel_left]

/-- The segments before and after some slots. -/
lemma exists_segments (h : start + len ≤ xs.size) :
    ∃ pre mid post : List α,
      xs = (pre ++ mid ++ post).toArray ∧ start = pre.length ∧ len = mid.length := by
  have hlength : xs.toList.length = start + (len + (xs.size - (start + len))) := by
    rw [Array.length_toList]
    omega
  obtain ⟨pre, back, hxs, hpre, hback⟩ := exists_eq_append hlength
  obtain ⟨mid, post, rfl, hmid, -⟩ := exists_eq_append hback
  refine ⟨pre, mid, post, ?_, hpre.symm, hmid.symm⟩
  rw [List.append_assoc, ← hxs, Array.toArray_toList]

/-- Two segments, and the slots between them in two parts. -/
lemma exists_two_segments {a lenA b lenB c : ℕ} (hfirst : a + lenA ≤ c) (hsecond : c ≤ b)
    (hbound : b + lenB ≤ xs.size) :
    ∃ pre first behind gap second post : List α,
      xs = (pre ++ first ++ behind ++ gap ++ second ++ post).toArray ∧
        a = pre.length ∧ lenA = first.length ∧ c = (pre ++ first ++ behind).length ∧
        b = c + gap.length ∧ lenB = second.length := by
  obtain ⟨below, second, post, rfl, hb, hlenB⟩ := exists_segments hbound
  have hsplit : below.length = a + (lenA + (c - (a + lenA) + (b - c))) := by omega
  obtain ⟨pre, back, rfl, ha, hback⟩ := exists_eq_append hsplit
  obtain ⟨first, back, rfl, hlenA, hback⟩ := exists_eq_append hback
  obtain ⟨behind, gap, rfl, hbehind, hgap⟩ := exists_eq_append hback
  refine ⟨pre, first, behind, gap, second, post, ?_, ha.symm, hlenA.symm, ?_, ?_, hlenB⟩
  · simp only [List.append_assoc]
  · rw [List.length_append, List.length_append]
    omega
  · omega

/-! ### Halving -/

/-- Halving upwards writes the upper half of the run. -/
lemma sameOutside_of_halveUp {bit : Bool} (hpos : 0 < len)
    (h : halveUp xs start len bit = .ok ys) :
    SameOutside (start + len / 2) (start + len) xs ys := by
  refine ⟨size_halveUp h, ?_⟩
  intro i hi
  obtain ⟨_, heven, h⟩ := bind_eq_ok_iff.mp h
  obtain ⟨source, -, hpack⟩ := bind_eq_ok_iff.mp h
  have heven := require_eq_ok_iff.mp heven
  exact getElem?_packDown hpack (by omega)

/-- Halving downwards writes the lower half of the run. -/
lemma sameOutside_of_halveDown {bit : Bool} (h : halveDown xs start len bit = .ok ys) :
    SameOutside start (start + len / 2) xs ys := by
  refine ⟨size_halveDown h, ?_⟩
  intro i hi
  obtain ⟨_, -, hpack⟩ := bind_eq_ok_iff.mp h
  exact getElem?_packUp hpack hi

/-- The survivors of a halving upwards fill the upper half of the run. -/
lemma exists_halveUp (bit : Bool) (heven : len % 2 = 0) (hpos : 0 < len)
    (hbound : start + len ≤ xs.size) :
    ∃ ys, halveUp xs start len bit = .ok ys ∧
      segment ys (start + len / 2) (len / 2) = alternate (!bit) (segment xs start len) := by
  obtain ⟨pre, pairs, post, rfl, hstart, hlen⟩ := exists_segments hbound
  obtain ⟨rest, hrest, h⟩ := halveUp_append bit pre pairs post hstart hlen heven hpos
  refine ⟨_, h, ?_⟩
  rw [segment_eq rfl hstart hlen]
  exact segment_eq rfl (by simp [hstart, hrest]) (by simp [hlen])

/-- The survivors of a halving downwards fill the lower half of the run. -/
lemma exists_halveDown (bit : Bool) (heven : len % 2 = 0) (hbound : start + len ≤ xs.size) :
    ∃ ys, halveDown xs start len bit = .ok ys ∧
      segment ys start (len / 2) = alternate bit (segment xs start len) := by
  obtain ⟨pre, pairs, post, rfl, hstart, hlen⟩ := exists_segments hbound
  obtain ⟨rest, hrest, h⟩ := halveDown_append bit pre pairs post hstart hlen heven
  refine ⟨_, h, ?_⟩
  rw [segment_eq rfl hstart hlen]
  exact segment_eq (by rw [List.append_assoc]) hstart (by simp [hlen])

/-- The slots that the survivors come from. -/
lemma getElem?_survivor {target : ℕ} {second : Bool} (hbound : start + len ≤ xs.size)
    (h : segment ys target (len / 2) = alternate second (segment xs start len))
    (hi : i < len / 2) : ys[target + i]? = xs[start + (2 * i + second.toNat)]? := by
  have hsecond : second.toNat ≤ 1 := Bool.toNat_le second
  calc ys[target + i]? = (segment ys target (len / 2))[i]? := (getElem?_segment hi).symm
    _ = (alternate second (segment xs start len))[i]? := by rw [h]
    _ = (segment xs start len)[2 * i + second.toNat]? :=
      getElem?_alternate second (by rwa [length_segment hbound])
    _ = xs[start + (2 * i + second.toNat)]? := getElem?_segment (by omega)

/-- Halving any run of even length upwards packs the second item of each pair into the upper half of
the run, or the first one if the bit is set. Halving it downwards packs the first item of each pair
into the lower half, or the second one if the bit is set. The items are those from before the
halving, in their old order, and nothing else changes. The items that are left for the two bits are
together all items of the run. -/
theorem halving_in_place {xs : Array α} {start len : ℕ} (heven : len % 2 = 0) (htwo : 2 ≤ len)
    (hbound : start + len ≤ xs.size) :
    ∃ up down : Bool → Array α,
      (∀ bit, halveUp xs start len bit = .ok (up bit) ∧
        SameOutside (start + len / 2) (start + len) xs (up bit) ∧
        ∀ i < len / 2, (up bit)[start + len / 2 + i]? = xs[start + (2 * i + 1 - bit.toNat)]?) ∧
      (∀ bit, halveDown xs start len bit = .ok (down bit) ∧
        SameOutside start (start + len / 2) xs (down bit) ∧
        ∀ i < len / 2, (down bit)[start + i]? = xs[start + (2 * i + bit.toNat)]?) ∧
      (segment (up false) (start + len / 2) (len / 2) ++
        segment (up true) (start + len / 2) (len / 2)).Perm (segment xs start len) ∧
      (segment (down false) start (len / 2) ++
        segment (down true) start (len / 2)).Perm (segment xs start len) := by
  have hpos : 0 < len := by omega
  choose up hup hupper using fun bit => exists_halveUp bit heven hpos hbound
  choose down hdown hlower using fun bit => exists_halveDown bit heven hbound
  have hboth : (alternate false (segment xs start len) ++
      alternate true (segment xs start len)).Perm (segment xs start len) :=
    alternate_append_alternate_perm (by rwa [length_segment hbound])
  refine ⟨up, down, ?_, ?_, ?_, ?_⟩
  · intro bit
    refine ⟨hup bit, sameOutside_of_halveUp hpos (hup bit), ?_⟩
    intro i hi
    have hposition : 2 * i + (!bit).toNat = 2 * i + 1 - bit.toNat := by cases bit <;> rfl
    rw [getElem?_survivor hbound (hupper bit) hi, hposition]
  · intro bit
    refine ⟨hdown bit, sameOutside_of_halveDown (hdown bit), ?_⟩
    intro i hi
    exact getElem?_survivor hbound (hlower bit) hi
  · rw [hupper false, hupper true]
    exact List.perm_append_comm.trans hboth
  · rw [hlower false, hlower true]
    exact hboth

/-- Six numbers in the middle of eight, with the bit set. The two directions keep opposite numbers
of the pairs. -/
theorem halving_of_six_numbers :
    ∃ up down : Array ℕ,
      halveUp #[0, 1, 2, 3, 4, 5, 6, 7] 2 6 true = .ok up ∧ up.size = 8 ∧
        up[4]? = some 4 ∧ up[5]? = some 2 ∧ up[6]? = some 4 ∧ up[7]? = some 6 ∧
      halveDown #[0, 1, 2, 3, 4, 5, 6, 7] 2 6 true = .ok down ∧ down.size = 8 ∧
        down[2]? = some 3 ∧ down[3]? = some 5 ∧ down[4]? = some 7 ∧ down[5]? = some 5 := by
  let xs : Array ℕ := #[0, 1, 2, 3, 4, 5, 6, 7]
  obtain ⟨up, down, hup, hdown, -, -⟩ :=
    halving_in_place (by decide : 6 % 2 = 0) (by decide) (by decide : 2 + 6 ≤ xs.size)
  obtain ⟨hup, hupSame, hupper⟩ := hup true
  obtain ⟨hdown, hdownSame, hlower⟩ := hdown true
  exact ⟨up true, down true, hup, hupSame.size_eq, hupSame.getElem?_eq 4 (by decide),
    hupper 0 (by decide), hupper 1 (by decide), hupper 2 (by decide),
    hdown, hdownSame.size_eq, hlower 0 (by decide), hlower 1 (by decide), hlower 2 (by decide),
    hdownSame.getElem?_eq 5 (by decide)⟩

/-! ### Merging -/

open Item

variable [Item α]

/-- Merging two runs writes the slots that receive the items. -/
lemma sameOutside_of_mergeRuns {a lenA b lenB c : ℕ} (h : mergeRuns xs a lenA b lenB c = .ok ys) :
    SameOutside c (c + (lenA + lenB)) xs ys := by
  refine ⟨size_mergeRuns h, ?_⟩
  intro i hi
  obtain ⟨_, -, hmerge⟩ := bind_eq_ok_iff.mp h
  exact getElem?_mergeInto hmerge hi

/-- The merge of two runs fills the slots that receive the items. -/
lemma exists_mergeRuns {a lenA b lenB c : ℕ} (hfirst : a + lenA ≤ c) (hroom : c + lenA ≤ b)
    (hbound : b + lenB ≤ xs.size) :
    ∃ ys, mergeRuns xs a lenA b lenB c = .ok ys ∧
      segment ys c (lenA + lenB) = mergedRun (segment xs a lenA) (segment xs b lenB) := by
  obtain ⟨pre, first, behind, gap, second, post, hxs, ha, hlenA, hc, hb, hlenB⟩ :=
    exists_two_segments hfirst (by omega : c ≤ b) hbound
  obtain ⟨rest, -, h⟩ := mergeRuns_append pre first behind gap second post ha hlenA hlenB hc hb
    (by omega)
  have hfront : xs = (pre ++ first ++ (behind ++ gap ++ second ++ post)).toArray := by
    simp only [hxs, List.append_assoc]
  have hb' : b = (pre ++ first ++ behind ++ gap).length := by
    rw [hb, hc, ← List.length_append]
  have hlength : lenA + lenB = (mergedRun first second).length := by
    rw [(mergedRun_perm first second).length_eq, List.length_append, hlenA, hlenB]
  rw [← hxs] at h
  refine ⟨_, h, ?_⟩
  rw [segment_eq hfront ha hlenA, segment_eq hxs hb' hlenB]
  exact segment_eq (by rw [List.append_assoc]) hc hlength

/-- Merging any two runs in place into slots above the first run, with room for it below the second
one, leaves what merging copies of them gives, and nothing else changes. Every item of the two runs
is left once. If the first run is sorted then of the items at any one place its own come first. If
both runs ascend so does the result, whatever the items are, and if both are sorted runs of numbers
the result is sorted. -/
theorem merging_in_place {xs : Array α} {a lenA b lenB c : ℕ} (hfirst : a + lenA ≤ c)
    (hroom : c + lenA ≤ b) (hbound : b + lenB ≤ xs.size) :
    ∃ ys, mergeRuns xs a lenA b lenB c = .ok ys ∧
      SameOutside c (c + (lenA + lenB)) xs ys ∧
      segment ys c (lenA + lenB) = mergedRun (segment xs a lenA) (segment xs b lenB) ∧
      (segment ys c (lenA + lenB)).Perm (segment xs a lenA ++ segment xs b lenB) ∧
      (IsSorted (segment xs a lenA) → ∀ place,
        (segment ys c (lenA + lenB)).filter (standsAt place) =
          (segment xs a lenA).filter (standsAt place) ++
            (segment xs b lenB).filter (standsAt place)) ∧
      (Ascends (segment xs a lenA) → Ascends (segment xs b lenB) →
        Ascends (segment ys c (lenA + lenB))) ∧
      (AllNumbers (segment xs a lenA ++ segment xs b lenB) →
        IsSorted (segment xs a lenA) → IsSorted (segment xs b lenB) →
        IsSorted (segment ys c (lenA + lenB))) := by
  obtain ⟨ys, h, hmerged⟩ := exists_mergeRuns hfirst hroom hbound
  refine ⟨ys, h, sameOutside_of_mergeRuns h, hmerged, ?_⟩
  rw [hmerged]
  refine ⟨mergedRun_perm _ _, ?_, ascends_mergedRun, ?_⟩
  · intro hsorted place
    exact filter_mergedRun place hsorted _
  · intro hnumbers
    obtain ⟨hnumA, hnumB⟩ := allNumbers_append.mp hnumbers
    exact isSorted_mergedRun hnumA hnumB

/-- Runs of two numbers each, with a zero in both. The result covers the second run. The zero of the
second run, which has a sign, comes behind the one of the first run. -/
theorem merging_of_two_zeros :
    ∃ ys, mergeRuns #[(⟨0⟩ : Binary32), .ofInt 3, filler, filler, .ofInt (-1), ⟨0x80000000⟩]
        0 2 4 2 2 = .ok ys ∧
      (segment ys 2 4).Perm [⟨0⟩, .ofInt 3, .ofInt (-1), ⟨0x80000000⟩] ∧
      (segment ys 2 4).filter (standsAt 0) = [⟨0⟩, ⟨0x80000000⟩] ∧
      Ascends (segment ys 2 4) ∧ ys[0]? = some ⟨0⟩ ∧ ys[1]? = some (.ofInt 3) := by
  let xs : Array Binary32 := #[⟨0⟩, .ofInt 3, filler, filler, .ofInt (-1), ⟨0x80000000⟩]
  have hsorted : (segment xs 0 2).Pairwise fun x y => less y x = false := by decide +kernel
  have hsorted' : (segment xs 4 2).Pairwise fun x y => less y x = false := by decide +kernel
  obtain ⟨ys, h, hsame, -, hperm, hstable, hascends, -⟩ :=
    merging_in_place (by decide : 0 + 2 ≤ 2) (by decide) (by decide : 4 + 2 ≤ xs.size)
  exact ⟨ys, h, hperm, (hstable hsorted 0).trans (by decide +kernel),
    hascends hsorted.isChain hsorted'.isChain, hsame.getElem?_eq 0 (by decide),
    hsame.getElem?_eq 1 (by decide)⟩

end QuantileSketch.Slots
