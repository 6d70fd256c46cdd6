import Mathlib.Tactic
import QuantileSketch.Session.Growth
import QuantileSketch.Sketch.Backing

/-!
# Writing to the region

A change of the region leaves all other parts of a sketch as they are, and a sketch without a region
is not changed at all (`mapRegion_eq_ok_iff`). Writing the whole image succeeds if the region has
room for it (`sync_eq_ok_iff`), and writing an insertion if the image from before fits
(`writeInsertion_eq_ok_iff`).

Before a sketch grows it may get another region. `Reserved` says what the new region can be: there
is none, or the old one is long enough, or a longer one takes its place.
-/

namespace QuantileSketch

/-- The bytes after some fields have been written at their positions. -/
def overwriteAll : List (ℕ × List UInt8) → Bytes → Bytes
  | [], bytes => bytes
  | (pos, field) :: fields, bytes => overwriteAll fields (overwrite bytes pos field)

/-- Writing fields keeps the number of bytes. -/
@[simp] lemma size_overwriteAll (fields : List (ℕ × List UInt8)) (bytes : Bytes) :
    (overwriteAll fields bytes).size = bytes.size := by
  induction fields generalizing bytes with
  | nil => rfl
  | cons field fields ih => rw [overwriteAll, ih, size_overwrite]

/-- A field can be written if it ends inside. -/
lemma splice_eq_ok_iff {bytes bytes' : Bytes} {pos : ℕ} {field : List UInt8} :
    bytes.splice pos field = .ok bytes' ↔
      pos + field.length ≤ bytes.size ∧ overwrite bytes pos field = bytes' := by
  by_cases h : pos + field.length ≤ bytes.size <;> simp [Bytes.splice, h]

/-- Fields can be written if all of them end inside. -/
lemma spliceAll_eq_ok_iff {fields : List (ℕ × List UInt8)} {bytes bytes' : Bytes} :
    spliceAll fields bytes = .ok bytes' ↔
      (∀ field ∈ fields, field.1 + field.2.length ≤ bytes.size) ∧
        overwriteAll fields bytes = bytes' := by
  induction fields generalizing bytes with
  | nil => simp [spliceAll, overwriteAll]
  | cons field fields ih =>
    rw [spliceAll, bind_eq_ok_iff, List.forall_mem_cons]
    constructor
    · rintro ⟨written, hfield, h⟩
      obtain ⟨hfirst, rfl⟩ := splice_eq_ok_iff.mp hfield
      obtain ⟨hrest, rfl⟩ := ih.mp h
      rw [size_overwrite] at hrest
      exact ⟨⟨hfirst, hrest⟩, rfl⟩
    · rintro ⟨⟨hfirst, hrest⟩, rfl⟩
      refine ⟨_, splice_eq_ok_iff.mpr ⟨hfirst, rfl⟩, ih.mpr ⟨?_, rfl⟩⟩
      rwa [size_overwrite]

/-! ### Changes of the region -/

/-- A backing with another region. -/
def Backing.setRegion (region : Bytes) (b : Backing) : Backing := { b with region }

/-- The region of a backing with another region. -/
@[simp] lemma Backing.region_setRegion (region : Bytes) (b : Backing) :
    (b.setRegion region).region = region := rfl

namespace Sketch

variable {α : Type}

/-- A change of the region succeeds if there is none or the new bytes can be computed. -/
theorem mapRegion_eq_ok_iff {f : Bytes → Except Abort Bytes} {s s' : Sketch α} :
    s.mapRegion f = .ok s' ↔
      (s.backing = none ∧ s' = s) ∨
        ∃ b region, s.backing = some b ∧ f b.region = .ok region ∧
          s' = { s with backing := some (b.setRegion region) } := by
  obtain ⟨k, m, minK, n, levels, items, extremes, sorted, readOnly, backing⟩ := s
  rcases backing with _ | b
  · simp only [mapRegion, Except.ok.injEq, true_and, reduceCtorEq, false_and, exists_false,
      or_false]
    exact eq_comm
  · rw [mapRegion, bind_eq_ok_iff]
    constructor
    · rintro ⟨region, hregion, h⟩
      exact .inr ⟨b, region, rfl, hregion, (pure_eq_ok_iff.mp h).symm⟩
    · rintro (⟨hnone, -⟩ | ⟨b, region, hb, hregion, rfl⟩)
      · cases hnone
      · cases hb
        exact ⟨region, hregion, rfl⟩

variable [Item α]

/-- The whole image can be written if it has its size and the region has room for it. -/
theorem sync_eq_ok_iff {s s' : Sketch α} :
    s.sync = .ok s' ↔
      (s.backing = none ∧ s' = s) ∨
        ∃ b, s.backing = some b ∧ s.imageSize true ≤ b.region.size ∧
          s.updatableBytes.length = s.imageSize true ∧
          s' = { s with
            backing := some (b.setRegion (overwrite b.region 0 s.updatableBytes)) } := by
  unfold sync
  rcases hb : s.backing with _ | b
  · simp [eq_comm]
  · simp only [mapRegion_eq_ok_iff, hb, reduceCtorEq, false_and, false_or, Option.some.injEq]
    constructor
    · rintro ⟨b, region, rfl, hregion, rfl⟩
      obtain ⟨_, hroom, h⟩ := bind_eq_ok_iff.mp hregion
      obtain ⟨_, hlength, h⟩ := bind_eq_ok_iff.mp h
      obtain ⟨-, rfl⟩ := splice_eq_ok_iff.mp h
      exact ⟨b, rfl, require_eq_ok_iff.mp hroom, require_eq_ok_iff.mp hlength, rfl⟩
    · rintro ⟨b, rfl, hroom, hlength, rfl⟩
      refine ⟨b, _, rfl, ?_, rfl⟩
      refine bind_eq_ok_iff.mpr ⟨(), require_eq_ok_iff.mpr hroom, ?_⟩
      refine bind_eq_ok_iff.mpr ⟨(), require_eq_ok_iff.mpr hlength, ?_⟩
      exact splice_eq_ok_iff.mpr ⟨by omega, rfl⟩

/-- Writing the whole image changes the region only. -/
lemma sync_eq {s s' : Sketch α} (h : s.sync = .ok s') : s' = { s with backing := s'.backing } := by
  obtain ⟨-, rfl⟩ | ⟨b, -, -, -, rfl⟩ := sync_eq_ok_iff.mp h <;> rfl

/-- An insertion can be written if the image from before it fits and so do all the fields. -/
theorem writeInsertion_eq_ok_iff {x : α} {s s' : Sketch α} :
    s.writeInsertion x = .ok s' ↔
      (s.backing = none ∧ s' = s) ∨
        ∃ b, s.backing = some b ∧
          fullImageSize (s.numLevels + 1) (s.free + 1) (Item.width α) ≤ b.region.size ∧
          (∀ field ∈ s.insertionFields s.free x, field.1 + field.2.length ≤ b.region.size) ∧
          s' = { s with
            backing :=
              some (b.setRegion (overwriteAll (s.insertionFields s.free x) b.region)) } := by
  unfold writeInsertion
  rcases hb : s.backing with _ | b
  · simp [eq_comm]
  · simp only [mapRegion_eq_ok_iff, hb, reduceCtorEq, false_and, false_or, Option.some.injEq]
    constructor
    · rintro ⟨b, region, rfl, hregion, rfl⟩
      obtain ⟨_, hroom, h⟩ := bind_eq_ok_iff.mp hregion
      obtain ⟨hfields, rfl⟩ := spliceAll_eq_ok_iff.mp h
      exact ⟨b, rfl, require_eq_ok_iff.mp hroom, hfields, rfl⟩
    · rintro ⟨b, rfl, hroom, hfields, rfl⟩
      refine ⟨b, _, rfl, ?_, rfl⟩
      exact bind_eq_ok_iff.mpr ⟨(), require_eq_ok_iff.mpr hroom,
        spliceAll_eq_ok_iff.mpr ⟨hfields, rfl⟩⟩

/-- Writing an insertion changes the region only. -/
lemma writeInsertion_eq {x : α} {s s' : Sketch α} (h : s.writeInsertion x = .ok s') :
    s' = { s with backing := s'.backing } := by
  obtain ⟨-, rfl⟩ | ⟨b, -, -, -, rfl⟩ := writeInsertion_eq_ok_iff.mp h <;> rfl

/-- What is written after an item was fed changes the region only. -/
lemma write_eq {x : α} {whole : Prop} [Decidable whole] {s s' : Sketch α}
    (h : (if whole then s.sync else s.writeInsertion x) = .ok s') :
    s' = { s with backing := s'.backing } := by
  split at h
  · exact sync_eq h
  · exact writeInsertion_eq h

end Sketch

/-! ### Larger regions -/

/-- What can take the place of a region if at least `required` bytes are needed. -/
inductive Reserved (required : ℕ) : Option Backing → Option Backing → Prop where
  | none : Reserved required none none
  | kept {b : Backing} (h : required ≤ b.region.size) : Reserved required (some b) (some b)
  | replaced {b : Backing} {region answer : Bytes}
      (hanswer : b.server b.requests b.region required = .ok answer)
      (hsize : region.size = answer.size) (hshort : b.region.size < required)
      (hlong : required ≤ region.size) :
      Reserved required (some b) (some (b.asked.setRegion region))

/-- The region in use is long enough afterwards. -/
lemma Reserved.le_size {required : ℕ} {backing backing' : Option Backing}
    (h : Reserved required backing backing') {b : Backing} (hb : backing' = some b) :
    required ≤ b.region.size := by
  cases h with
  | none => cases hb
  | kept h =>
    cases hb
    exact h
  | replaced _ _ _ hlong =>
    cases hb
    exact hlong

end QuantileSketch
