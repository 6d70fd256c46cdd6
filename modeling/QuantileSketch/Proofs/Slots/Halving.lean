import QuantileSketch.Proofs.Slots.Segments

/-!
# Halving a run

Of each pair of neighbours in a run one survives a halving: `alternate` is the list of those. Going
up or down, the reads stay ahead of the writes, so that the survivors are items of the run as it was
before (`halveUp_append`, `halveDown_append`). The two directions keep opposite items of the pairs
for the same bit.
-/

namespace QuantileSketch

variable {α : Type}

/-- One item of each pair of neighbours: the second one if `second` is set, else the first one. -/
def alternate (second : Bool) : List α → List α
  | x :: y :: xs => (if second then y else x) :: alternate second xs
  | _ => []

/-- Half of the items of a list alternate with the others. -/
@[simp] theorem length_alternate (second : Bool) (xs : List α) :
    (alternate second xs).length = xs.length / 2 := by
  induction xs using List.twoStepInduction with
  | nil => simp [alternate]
  | singleton x => simp [alternate]
  | cons_cons x y xs ih _ =>
    rw [alternate, List.length_cons, ih, List.length_cons, List.length_cons]
    omega

/-- The position from which an item survives. -/
lemma getElem?_alternate (second : Bool) {xs : List α} {i : ℕ} (hi : i < xs.length / 2) :
    (alternate second xs)[i]? = xs[2 * i + second.toNat]? := by
  induction xs using List.twoStepInduction generalizing i with
  | nil => simp at hi
  | singleton x => simp at hi
  | cons_cons x y xs ih _ =>
    rw [alternate]
    cases i with
    | zero => cases second <;> rfl
    | succ i =>
      have hrest : i < xs.length / 2 := by
        rw [List.length_cons, List.length_cons] at hi
        omega
      have hposition : 2 * (i + 1) + second.toNat = 2 * i + second.toNat + 1 + 1 := by omega
      rw [hposition, List.getElem?_cons_succ, List.getElem?_cons_succ, List.getElem?_cons_succ,
        ih hrest]

/-- The pairs of a list that is put together from pairs. -/
lemma alternate_append (second : Bool) {xs : List α} (h : xs.length % 2 = 0) (ys : List α) :
    alternate second (xs ++ ys) = alternate second xs ++ alternate second ys := by
  induction xs using List.twoStepInduction with
  | nil => rfl
  | singleton x => simp at h
  | cons_cons x y xs ih _ =>
    have hrest : xs.length % 2 = 0 := by
      rw [List.length_cons, List.length_cons] at h
      omega
    simp only [List.cons_append, alternate, ih hrest]

/-- The survivors stand in the order in which they stood before. -/
theorem alternate_sublist (second : Bool) (xs : List α) : (alternate second xs).Sublist xs := by
  induction xs using List.twoStepInduction with
  | nil => exact List.Sublist.refl _
  | singleton x => exact List.nil_sublist _
  | cons_cons x y xs ih _ =>
    rw [alternate]
    cases second with
    | false => exact (ih.cons y).cons_cons x
    | true => exact (ih.cons_cons y).cons x

/-- Of each pair one item comes first and the other one second. -/
theorem alternate_append_alternate_perm {xs : List α} (h : xs.length % 2 = 0) :
    (alternate false xs ++ alternate true xs).Perm xs := by
  induction xs using List.twoStepInduction with
  | nil => exact .refl []
  | singleton x => simp at h
  | cons_cons x y xs ih _ =>
    have hrest : xs.length % 2 = 0 := by
      rw [List.length_cons, List.length_cons] at h
      omega
    exact (List.perm_middle.trans ((ih hrest).cons y)).cons x

/-- The items that survive and those that do not are all items of the pairs. -/
lemma countP_alternate_add (p : α → Bool) (second : Bool) {xs : List α} (h : xs.length % 2 = 0) :
    (alternate second xs).countP p + (alternate (!second) xs).countP p = xs.countP p := by
  rw [← (alternate_append_alternate_perm h).countP_eq, List.countP_append]
  cases second with
  | false => rfl
  | true => exact Nat.add_comm _ _

namespace Slots

/-! ### Packing

Both loops keep a gap of slots whose items have been read, as long as the number of items packed so
far, between the pairs that are still to be read and the packed items. -/

/-- Packing down reads the pairs from the last to the first one. -/
lemma packDown_append (bit : Bool) (pre pairs gap post : List α) {count source target : ℕ}
    (hpairs : pairs.length = 2 * count) (hsource : source = pre.length + 2 * count - 1 - bit.toNat)
    (htarget : target = pre.length + 2 * count + gap.length - 1) :
    ∃ rest, rest.length = count + gap.length ∧
      packDown count source target (pre ++ pairs ++ gap ++ post).toArray =
        .ok (pre ++ rest ++ alternate (!bit) pairs ++ post).toArray := by
  induction count generalizing pairs gap post source target with
  | zero =>
    rw [Nat.mul_zero, List.length_eq_zero_iff] at hpairs
    subst hpairs
    exact ⟨gap, by simp, by simp [packDown, alternate]⟩
  | succ count ih =>
    obtain ⟨pairs, last, rfl, hlen, hlast⟩ :=
      exists_eq_append (l := pairs) (a := 2 * count) (b := 2) (by omega)
    obtain ⟨x, y, rfl⟩ := List.length_eq_two.mp hlast
    obtain ⟨gap', z, hgap, hgaplen⟩ :=
      exists_eq_append_singleton (l := x :: y :: gap) (n := gap.length + 1) (by simp)
    -- the item of the last pair that is kept goes to the last slot of the gap
    set kept := if !bit then y else x with hkept
    have hread : (pre ++ (pairs ++ [x, y]) ++ gap ++ post)[source]? = some kept := by
      rw [hsource, hkept]
      cases bit with
      | false =>
        have : pre.length + 2 * (count + 1) - 1 - false.toNat = (pre ++ pairs ++ [x]).length := by
          simp [hlen]
          omega
        rw [this]
        simp
      | true =>
        have : pre.length + 2 * (count + 1) - 1 - true.toNat = (pre ++ pairs).length := by
          simp [hlen]
          omega
        rw [this]
        simp
    have hslots : pre ++ (pairs ++ [x, y]) ++ gap ++ post = pre ++ pairs ++ gap' ++ z :: post := by
      calc pre ++ (pairs ++ [x, y]) ++ gap ++ post
          = pre ++ pairs ++ (x :: y :: gap) ++ post := by simp
        _ = pre ++ pairs ++ gap' ++ z :: post := by rw [hgap]; simp
    have htarget' : target = (pre ++ pairs ++ gap').length := by
      simp [htarget, hlen, hgaplen]
      omega
    have hmove : move (pre ++ (pairs ++ [x, y]) ++ gap ++ post).toArray source target =
        .ok (pre ++ pairs ++ gap' ++ kept :: post).toArray := by
      rw [move_toArray hread (by rw [hslots, htarget']; simp), hslots, htarget']
      simp
    have hsource' : source - 2 = pre.length + 2 * count - 1 - bit.toNat := by omega
    have htarget'' : target - 1 = pre.length + 2 * count + gap'.length - 1 := by omega
    obtain ⟨rest, hrest, hpack⟩ := ih pairs gap' (kept :: post) hlen hsource' htarget''
    refine ⟨rest, by omega, ?_⟩
    rw [packDown, hmove]
    change packDown count (source - 2) (target - 1) _ = _
    rw [hpack, alternate_append _ (by omega)]
    simp [alternate, hkept]

/-- Packing up reads the pairs from the first to the last one. -/
lemma packUp_append (bit : Bool) (pre gap pairs post : List α) {count source target : ℕ}
    (hpairs : pairs.length = 2 * count)
    (hsource : source = pre.length + gap.length + bit.toNat) (htarget : target = pre.length) :
    ∃ rest, rest.length = gap.length + count ∧
      packUp count source target (pre ++ gap ++ pairs ++ post).toArray =
        .ok (pre ++ alternate bit pairs ++ rest ++ post).toArray := by
  induction count generalizing pre gap pairs source target with
  | zero =>
    rw [Nat.mul_zero, List.length_eq_zero_iff] at hpairs
    subst hpairs
    exact ⟨gap, by simp, by simp [packUp, alternate]⟩
  | succ count ih =>
    obtain ⟨first, pairs, rfl, hfirst, hlen⟩ :=
      exists_eq_append (l := pairs) (a := 2) (b := 2 * count) (by omega)
    obtain ⟨x, y, rfl⟩ := List.length_eq_two.mp hfirst
    obtain ⟨z, gap', hgap⟩ : ∃ z gap', gap ++ [x, y] = z :: gap' :=
      List.exists_cons_of_ne_nil (by simp)
    have hgaplen : gap'.length = gap.length + 1 := by
      have := congrArg List.length hgap
      simp at this
      omega
    -- the item of the first pair that is kept goes to the first slot of the gap
    set kept := if bit then y else x with hkept
    have hread : (pre ++ gap ++ ([x, y] ++ pairs) ++ post)[source]? = some kept := by
      rw [hsource, hkept]
      cases bit with
      | false =>
        have : pre.length + gap.length + false.toNat = (pre ++ gap).length := by simp
        rw [this]
        simp
      | true =>
        have : pre.length + gap.length + true.toNat = (pre ++ gap ++ [x]).length := by
          simp [Nat.add_assoc]
        rw [this]
        simp
    have hslots : pre ++ gap ++ ([x, y] ++ pairs) ++ post =
        pre ++ z :: (gap' ++ pairs ++ post) := by
      calc pre ++ gap ++ ([x, y] ++ pairs) ++ post
          = pre ++ (gap ++ [x, y]) ++ pairs ++ post := by simp
        _ = pre ++ z :: (gap' ++ pairs ++ post) := by rw [hgap]; simp
    have hmove : move (pre ++ gap ++ ([x, y] ++ pairs) ++ post).toArray source target =
        .ok ((pre ++ [kept]) ++ gap' ++ pairs ++ post).toArray := by
      rw [move_toArray hread (by rw [hslots, htarget]; simp), hslots, htarget]
      simp
    have hsource' : source + 2 = (pre ++ [kept]).length + gap'.length + bit.toNat := by
      simp
      omega
    have htarget' : target + 1 = (pre ++ [kept]).length := by simp [htarget]
    obtain ⟨rest, hrest, hpack⟩ := ih (pre ++ [kept]) gap' pairs hlen hsource' htarget'
    refine ⟨rest, by omega, ?_⟩
    rw [packUp, hmove]
    change packUp count (source + 2) (target + 1) _ = _
    rw [hpack]
    simp [alternate, hkept]

/-! ### Halving -/

/-- Halving a run upwards packs one item of each pair into its upper half. -/
theorem halveUp_append (bit : Bool) (pre pairs post : List α) {start len : ℕ}
    (hstart : start = pre.length) (hlen : len = pairs.length) (heven : len % 2 = 0)
    (hpos : 0 < len) :
    ∃ rest, rest.length = len / 2 ∧
      halveUp (pre ++ pairs ++ post).toArray start len bit =
        .ok (pre ++ rest ++ alternate (!bit) pairs ++ post).toArray := by
  have hbit : bit.toNat ≤ 1 := Bool.toNat_le bit
  have hpairs : pairs.length = 2 * (len / 2) := by omega
  have hfirst : start + len - (1 + bit.toNat) = pre.length + 2 * (len / 2) - 1 - bit.toNat := by
    omega
  have hlast : start + len - 1 = pre.length + 2 * (len / 2) + ([] : List α).length - 1 := by
    rw [List.length_nil]
    omega
  obtain ⟨rest, hrest, hpack⟩ := packDown_append bit pre pairs [] post hpairs hfirst hlast
  refine ⟨rest, by simpa using hrest, ?_⟩
  have hsource : subWord (start + len) (1 + bit.toNat) = .ok (start + len - (1 + bit.toNat)) :=
    subWord_eq_ok_iff.mpr ⟨by omega, rfl⟩
  rw [halveUp, require_eq_ok_iff (u := ()).mpr heven, hsource]
  change packDown (len / 2) (start + len - (1 + bit.toNat)) (start + len - 1) _ = _
  rw [← hpack, List.append_nil]

/-- Halving a run downwards packs one item of each pair into its lower half. -/
theorem halveDown_append (bit : Bool) (pre pairs post : List α) {start len : ℕ}
    (hstart : start = pre.length) (hlen : len = pairs.length) (heven : len % 2 = 0) :
    ∃ rest, rest.length = len / 2 ∧
      halveDown (pre ++ pairs ++ post).toArray start len bit =
        .ok (pre ++ alternate bit pairs ++ rest ++ post).toArray := by
  have hpairs : pairs.length = 2 * (len / 2) := by omega
  have hfirst : start + bit.toNat = pre.length + ([] : List α).length + bit.toNat := by
    rw [hstart, List.length_nil, Nat.add_zero]
  obtain ⟨rest, hrest, hpack⟩ := packUp_append bit pre [] pairs post hpairs hfirst hstart
  refine ⟨rest, by simpa using hrest, ?_⟩
  rw [halveDown, require_eq_ok_iff (u := ()).mpr heven]
  change packUp (len / 2) (start + bit.toNat) start _ = _
  rw [← hpack, List.append_nil]

/-! ### Numbers of slots -/

/-- Packing downwards keeps the number of slots. -/
lemma size_packDown {count source target : ℕ} {xs ys : Array α}
    (h : packDown count source target xs = .ok ys) : ys.size = xs.size := by
  induction count generalizing source target xs with
  | zero => rw [Except.ok.inj h]
  | succ count ih =>
    obtain ⟨moved, hmove, hpack⟩ := bind_eq_ok_iff.mp h
    rw [ih hpack, size_move hmove]

/-- Packing upwards keeps the number of slots. -/
lemma size_packUp {count source target : ℕ} {xs ys : Array α}
    (h : packUp count source target xs = .ok ys) : ys.size = xs.size := by
  induction count generalizing source target xs with
  | zero => rw [Except.ok.inj h]
  | succ count ih =>
    obtain ⟨moved, hmove, hpack⟩ := bind_eq_ok_iff.mp h
    rw [ih hpack, size_move hmove]

/-- Halving upwards keeps the number of slots. -/
lemma size_halveUp {xs ys : Array α} {start len : ℕ} {bit : Bool}
    (h : halveUp xs start len bit = .ok ys) : ys.size = xs.size := by
  obtain ⟨_, -, h⟩ := bind_eq_ok_iff.mp h
  obtain ⟨source, -, h⟩ := bind_eq_ok_iff.mp h
  exact size_packDown h

/-- Halving downwards keeps the number of slots. -/
lemma size_halveDown {xs ys : Array α} {start len : ℕ} {bit : Bool}
    (h : halveDown xs start len bit = .ok ys) : ys.size = xs.size := by
  obtain ⟨_, -, h⟩ := bind_eq_ok_iff.mp h
  exact size_packUp h

/-! ### Slots that are not written -/

/-- Packing downwards writes the slots down from its target. -/
lemma getElem?_packDown {xs ys : Array α} {count source target i : ℕ}
    (h : packDown count source target xs = .ok ys)
    (hi : i + count ≤ target ∨ target < i) : ys[i]? = xs[i]? := by
  induction count generalizing source target xs with
  | zero => rw [Except.ok.inj h]
  | succ count ih =>
    obtain ⟨moved, hmove, hpack⟩ := bind_eq_ok_iff.mp h
    rw [ih hpack (by omega), getElem?_move hmove (by omega)]

/-- Packing upwards writes the slots up from its target. -/
lemma getElem?_packUp {xs ys : Array α} {count source target i : ℕ}
    (h : packUp count source target xs = .ok ys)
    (hi : i < target ∨ target + count ≤ i) : ys[i]? = xs[i]? := by
  induction count generalizing source target xs with
  | zero => rw [Except.ok.inj h]
  | succ count ih =>
    obtain ⟨moved, hmove, hpack⟩ := bind_eq_ok_iff.mp h
    rw [ih hpack (by omega), getElem?_move hmove (by omega)]

end Slots

end QuantileSketch
