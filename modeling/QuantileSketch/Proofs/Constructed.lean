import QuantileSketch.Proofs.Order

/-!
# Sketches as they are constructed

All constructors make the same sketch of an empty stream, with or without a region. It has one level
and only free slots.
-/

namespace QuantileSketch

namespace Sketch

variable {α : Type} [Item α]

/-- The free slots of an empty sketch hold fillers, and its only level holds no items. -/
lemma empty_represents (k m : ℕ) :
    (empty k m : Sketch α).Represents (List.replicate k Item.filler) [[]] := by
  refine ⟨?_, ?_⟩
  · simp [empty]
  · simp [empty, boundaries]

/-- The shape of an empty sketch. -/
lemma empty_shape {k m : ℕ} (h : ParametersValid k m) :
    (empty k m : Sketch α).HasShape k [0] where
  parameters := h
  m_le_minK := h.m_le_k
  minK_le_k := Nat.le_refl k
  levels_eq := rfl
  length_pos := Nat.le_refl 1
  length_le := by decide
  room_eq := (totalCapacity_one h.m_le_k).symm
  size_eq := Array.size_replicate
  saturate_eq := rfl
  isSome_extremes := rfl

/-- A sketch made with a chosen least width. -/
lemma withM_eq_ok_iff {k m : ℕ} {s : Sketch α} :
    withM k m = .ok s ↔ ParametersValid k m ∧ s = empty k m := by
  unfold withM
  rw [bind_eq_ok_iff]
  constructor
  · rintro ⟨_, hm, h⟩
    obtain ⟨_, hk, h⟩ := bind_eq_ok_iff.mp h
    exact ⟨parametersValid_iff.mpr ⟨hm, hk⟩, (pure_eq_ok_iff.mp h).symm⟩
  · rintro ⟨h, rfl⟩
    obtain ⟨hm, hk⟩ := parametersValid_iff (u := ()) (v := ()) |>.mp h
    exact ⟨(), hm, bind_eq_ok_iff.mpr ⟨(), hk, rfl⟩⟩

/-- A sketch made in a region that has room for the image. -/
lemma newInRegion_eq_ok_iff {k m : ℕ} {region : Bytes} {server : RegionServer} {s : Sketch α} :
    newInRegion k m region server = .ok s ↔
      ParametersValid k m ∧ updatableSize 1 k (Item.width α) ≤ region.size ∧
        sync { empty k m with backing := some { region, server } } = .ok s := by
  unfold newInRegion
  rw [bind_eq_ok_iff]
  constructor
  · rintro ⟨s', hmade, h⟩
    obtain ⟨_, hroom, h⟩ := bind_eq_ok_iff.mp h
    obtain ⟨hvalid, rfl⟩ := withM_eq_ok_iff.mp (liftRefusal_eq_ok_iff.mp hmade)
    exact ⟨hvalid, Cause.unless_eq_ok_iff.mp (liftRefusal_eq_ok_iff.mp hroom),
      liftAbort_eq_ok_iff.mp h⟩
  · rintro ⟨hvalid, hroom, hsync⟩
    have hmade : withM k m = .ok (empty k m : Sketch α) := withM_eq_ok_iff.mpr ⟨hvalid, rfl⟩
    exact ⟨_, liftRefusal_eq_ok_iff.mpr hmade, bind_eq_ok_iff.mpr
      ⟨(), liftRefusal_eq_ok_iff.mpr (Cause.unless_eq_ok_iff.mpr hroom),
        liftAbort_eq_ok_iff.mpr hsync⟩⟩

/-- A sketch made in a region is empty, and the server has not been asked for anything. -/
lemma newInRegion_eq {k m : ℕ} {region : Bytes} {server : RegionServer} {s : Sketch α}
    (h : newInRegion k m region server = .ok s) :
    ∃ region' : Bytes, s = { empty k m with backing := some { region := region', server } } := by
  obtain ⟨-, -, hsync⟩ := newInRegion_eq_ok_iff.mp h
  obtain ⟨hnone, -⟩ | ⟨b, hb, -, -, rfl⟩ := sync_eq_ok_iff.mp hsync
  · cases hnone
  · cases hb
    exact ⟨_, rfl⟩

/-- A sketch that was constructed is empty, up to its region. -/
theorem Constructed.exists_eq {s : Sketch α} (h : s.Constructed) :
    ∃ k m backing, ParametersValid k m ∧ s = { empty k m with backing } := by
  cases h with
  | new h =>
    obtain ⟨_, hk, h⟩ := bind_eq_ok_iff.mp h
    obtain ⟨hleast, hgreatest⟩ := require_eq_ok_iff.mp hk
    exact ⟨_, _, none, parametersValid_defaultM hleast hgreatest, (pure_eq_ok_iff.mp h).symm⟩
  | withM h =>
    obtain ⟨hvalid, rfl⟩ := withM_eq_ok_iff.mp h
    exact ⟨_, _, none, hvalid, rfl⟩
  | newInRegion h =>
    obtain ⟨hvalid, -⟩ := newInRegion_eq_ok_iff.mp h
    obtain ⟨region', hs⟩ := newInRegion_eq h
    exact ⟨_, _, _, hvalid, hs⟩

namespace Constructed

variable {s : Sketch α}

/-- A sketch that was constructed is well formed. -/
theorem wellFormed (h : s.Constructed) : s.WellFormed := by
  obtain ⟨k, m, backing, hvalid, rfl⟩ := h.exists_eq
  exact ⟨k, [0], (empty_shape hvalid).setBacking backing⟩

/-- A sketch that was constructed has nothing that could be out of order. -/
lemma ordered (h : s.Constructed) : s.Ordered := by
  obtain ⟨k, m, backing, -, rfl⟩ := h.exists_eq
  exact ⟨_, [[]], (empty_represents k m).congr rfl rfl,
    ⟨List.forall_mem_singleton.mpr Item.allNumbers_nil, fun _ hrun => absurd hrun (by simp)⟩⟩

/-- A sketch that was constructed holds no items. -/
lemma weightOf_eq_zero (h : s.Constructed) (p : α → Bool) : s.weightOf p = 0 := by
  obtain ⟨k, m, backing, -, rfl⟩ := h.exists_eq
  have hrepresents : Represents { (empty k m : Sketch α) with backing } _ [[]] :=
    (empty_represents k m).congr rfl rfl
  rw [hrepresents.weightOf_eq]
  rfl

end Constructed

end Sketch

namespace Session

variable {γ α : Type} [Coin γ] [Item α]

/-- The length of the stream is the number of the items that were accepted. -/
theorem Run.n_eq {s : Sketch α} {coin : γ} {r : Session γ α} {taken : List (Command α)}
    (hs : s.Constructed) (hrun : (begin s coin).Run taken r) :
    r.sketch.n = (Command.accepted taken).length := by
  obtain ⟨-, -, -, hn⟩ := (hrun.changes hs.wellFormed).parameters_eq
  obtain ⟨k, m, backing, -, heq⟩ := hs.exists_eq
  have hempty : s.n = 0 := by
    rw [heq]
    rfl
  rw [hn, begin, hempty, Nat.zero_add]

end Session

end QuantileSketch
