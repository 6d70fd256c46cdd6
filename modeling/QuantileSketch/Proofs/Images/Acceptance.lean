import QuantileSketch.Proofs.Images.Encoding
import QuantileSketch.Proofs.Images.Opening

/-!
# The images that are accepted

Here the format is described once more, by what stands at which position: `SharedPreamble` for all
layouts, `LongPreamble` for the longer ones, and `Describes` for each layout with what an image of
this layout says. Validation accepts exactly the bytes that begin with such an image, and it never
aborts, whatever the bytes are (`ImageInfo.accepts_iff`).

That it never aborts rests on the order of the checks. No field is read before the length has been
checked, no boundary is subtracted from another one before all of them are known not to decrease,
and the number of levels is bounded before sizes are computed from it.
-/

namespace QuantileSketch

/-! ### Computations that never abort -/

namespace Failure

variable {α β : Type}

/-- A computation that has an answer or is refused. -/
def NeverAborts (x : Except Failure α) : Prop := ∀ abort, x ≠ .error (.aborted abort)

/-- An answer is no abort. -/
lemma neverAborts_of_eq_ok {x : Except Failure α} {a : α} (h : x = .ok a) : NeverAborts x := by
  intro abort habort
  rw [h] at habort
  cases habort

/-- A check refuses but does not abort. -/
lemma neverAborts_liftRefusal (x : Except Error α) : NeverAborts (liftM x) := by
  intro abort
  cases x <;> simp [liftM, monadLift, MonadLift.monadLift, ofRefusal]

/-- A computation in words that has an answer. -/
lemma neverAborts_liftAbort {x : Except Abort α} {a : α} (h : x = .ok a) :
    NeverAborts (liftM x) :=
  neverAborts_of_eq_ok (liftAbort_eq_ok_iff.mpr h)

/-- A computation in steps of which none aborts. -/
lemma NeverAborts.bind {x : Except Failure α} {f : α → Except Failure β} (hx : NeverAborts x)
    (hf : ∀ a, x = .ok a → NeverAborts (f a)) : NeverAborts (x >>= f) := by
  intro abort
  rcases x with failure | a
  · intro h
    exact hx abort (congrArg Except.error (Except.error.inj h))
  · exact hf a rfl abort

/-- After a computation in words that has an answer, the answer is known. -/
lemma neverAborts_liftAbort_bind {x : Except Abort α} {a : α} {f : α → Except Failure β}
    (hx : x = .ok a) (hf : NeverAborts (f a)) :
    NeverAborts ((liftM x : Except Failure α) >>= f) := by
  have hanswer : (liftM x : Except Failure α) = .ok a := liftAbort_eq_ok_iff.mpr hx
  rw [hanswer]
  exact hf

/-- After a check that succeeds, what was checked is known. -/
lemma neverAborts_check {x : Except Error Unit} {p : Prop} {f : Unit → Except Failure β}
    (hx : ∀ u, x = .ok u ↔ p) (hf : p → NeverAborts (f ())) :
    NeverAborts ((liftM x : Except Failure Unit) >>= f) := by
  apply (neverAborts_liftRefusal x).bind
  intro u hu
  exact hf ((hx u).mp (liftRefusal_eq_ok_iff.mp hu))

/-- A field that lies inside is read. -/
lemma neverAborts_number {bytes : Bytes} {pos width : ℕ} (h : pos + width ≤ bytes.size) :
    NeverAborts (liftM (bytes.number pos width)) :=
  neverAborts_liftAbort (Bytes.number_eq_ok_iff.mpr ⟨h, rfl⟩)

end Failure

open Failure

/-! ### Validation never aborts -/

/-- Reading the shared preamble never aborts. -/
lemma Header.neverAborts_read (bytes : Bytes) : NeverAborts (Header.read bytes) := by
  apply neverAborts_check (fun u => checkLength_eq_ok_iff)
  intro hlength
  have hnumber {pos width : ℕ} (h : pos + width ≤ Format.headerBytes) :
      NeverAborts (liftM (bytes.number pos width)) :=
    neverAborts_number (h.trans hlength)
  apply (hnumber (by decide)).bind
  intro words _
  apply (hnumber (by decide)).bind
  intro version _
  apply (hnumber (by decide)).bind
  intro family _
  apply (neverAborts_liftRefusal _).bind
  intro _ _
  apply (hnumber (by decide)).bind
  intro flags _
  apply (hnumber (by decide)).bind
  intro k _
  apply (hnumber (by decide)).bind
  intro m _
  apply (neverAborts_liftRefusal _).bind
  intro _ _
  apply (neverAborts_liftRefusal _).bind
  intro _ _
  exact neverAborts_of_eq_ok rfl

/-- Levels that do not decrease have a weight, so that weighing them never aborts. -/
lemma neverAborts_checkWeight {n numLevels : ℕ} {levels : List ℕ}
    (hlength : levels.length = numLevels + 1) (hmonotone : levels.Pairwise (· ≤ ·)) :
    NeverAborts (checkWeight n numLevels levels) := by
  obtain ⟨free, rest, rfl⟩ := List.exists_cons_of_length_eq_add_one hlength
  obtain ⟨populations, hlevels⟩ := exists_boundaries hmonotone
  rw [hlevels, length_boundaries, Nat.add_right_cancel_iff] at hlength
  rw [hlevels, ← hlength]
  apply neverAborts_liftAbort_bind (sampleWeight_boundaries free populations)
  exact neverAborts_liftRefusal _

namespace Contents

variable {h : Header} {bytes : Bytes} {itemSize : ℕ}

/-- Reading the fields behind the shared preamble never aborts. -/
lemma Extension.neverAborts_read (h : Header) (bytes : Bytes) :
    NeverAborts (Extension.read h bytes) := by
  apply neverAborts_check (fun u => checkLength_eq_ok_iff)
  intro hlength
  have hnumber {pos width : ℕ} (h : pos + width ≤ Format.dataAt) :
      NeverAborts (liftM (bytes.number pos width)) :=
    neverAborts_number (h.trans hlength)
  apply (hnumber (by decide)).bind
  intro n _
  apply (hnumber (by decide)).bind
  intro minK _
  apply (hnumber (by decide)).bind
  intro numLevels _
  apply (neverAborts_liftRefusal _).bind
  intro _ _
  apply (neverAborts_liftRefusal _).bind
  intro _ _
  exact neverAborts_of_eq_ok rfl

/-- Reading a single item image never aborts. -/
lemma neverAborts_readSingle (hsize : IsItemWidth itemSize) :
    NeverAborts (readSingle h itemSize) := by
  apply (neverAborts_liftRefusal _).bind
  intro _ _
  have hword : Format.singleDataAt + itemSize < wordBound 64 := by
    rcases hsize with rfl | rfl <;> decide
  apply neverAborts_liftAbort_bind (fitWord_eq_ok_iff.mpr ⟨hword, rfl⟩)
  exact neverAborts_of_eq_ok rfl

/-- The size of an image with as many levels and items as there can be is a word. -/
lemma neverAborts_fitWord {offsets items : ℕ} (hoffsets : offsets ≤ maxLevels + 1)
    (hitems : items ≤ slotLimit) (hsize : IsItemWidth itemSize) :
    NeverAborts (liftM (fitWord 64 (fullImageSize offsets items itemSize))) := by
  have hword := (Sketch.fullImageSize_lt hoffsets hitems hsize).trans
    (by decide : wordBound 32 < wordBound 64)
  exact neverAborts_liftAbort (fitWord_eq_ok_iff.mpr ⟨hword, rfl⟩)

/-- Reading a full compact image never aborts. -/
lemma neverAborts_readFull (hparameters : ParametersValid h.k h.m) (hsize : IsItemWidth itemSize) :
    NeverAborts (readFull h bytes itemSize) := by
  apply (neverAborts_liftRefusal _).bind
  intro _ _
  apply (neverAborts_liftRefusal _).bind
  intro _ _
  apply (Extension.neverAborts_read h bytes).bind
  intro extension hextension
  obtain ⟨-, -, hrange⟩ := Extension.read_eq_ok_iff.mp hextension
  apply neverAborts_check (fun u => checkLength_eq_ok_iff)
  intro hlength
  apply neverAborts_liftAbort_bind (Bytes.readOffsets_eq_ok hlength)
  apply neverAborts_liftAbort_bind (totalItemCapacity_eq_ok hparameters hrange.numLevels_le)
  apply neverAborts_check (fun u => checkMonotone_eq_ok_iff)
  intro hmonotone
  apply (neverAborts_checkWeight (by simp) hmonotone).bind
  intro _ _
  have hcapacity := totalCapacity_le_slotLimit hparameters hrange.numLevels_le
  have hoffsets' := hrange.numLevels_le.trans (Nat.le_succ maxLevels)
  apply (neverAborts_fitWord hoffsets' ((Nat.sub_le _ _).trans hcapacity) hsize).bind
  intro size _
  exact neverAborts_of_eq_ok rfl

/-- Reading an updatable image never aborts. -/
lemma neverAborts_readUpdatable (hparameters : ParametersValid h.k h.m)
    (hsize : IsItemWidth itemSize) : NeverAborts (readUpdatable h bytes itemSize) := by
  apply (neverAborts_liftRefusal _).bind
  intro _ _
  apply (Extension.neverAborts_read h bytes).bind
  intro extension hextension
  obtain ⟨-, -, hrange⟩ := Extension.read_eq_ok_iff.mp hextension
  apply neverAborts_check (fun u => checkLength_eq_ok_iff)
  intro hlength
  apply neverAborts_liftAbort_bind (Bytes.readOffsets_eq_ok hlength)
  apply neverAborts_check (fun u => checkMonotone_eq_ok_iff)
  intro hmonotone
  apply neverAborts_liftAbort_bind (totalItemCapacity_eq_ok hparameters hrange.numLevels_le)
  apply neverAborts_check (fun u => Cause.unless_eq_ok_iff)
  intro hcapacity
  apply (neverAborts_checkWeight (Bytes.length_offsets _ _ _) hmonotone).bind
  intro _ _
  have hitems := hcapacity.trans_le (totalCapacity_le_slotLimit hparameters hrange.numLevels_le)
  apply (neverAborts_fitWord (Nat.succ_le_succ hrange.numLevels_le) hitems hsize).bind
  intro size _
  exact neverAborts_of_eq_ok rfl

/-- Reading what follows the shared preamble of valid parameters never aborts. -/
lemma neverAborts_read (hparameters : ParametersValid h.k h.m) (hsize : IsItemWidth itemSize) :
    NeverAborts (Contents.read h bytes itemSize) := by
  unfold Contents.read
  split
  · exact neverAborts_readUpdatable hparameters hsize
  split
  · intro abort habort
    cases habort
  · exact neverAborts_readFull hparameters hsize
  · apply (neverAborts_liftRefusal _).bind
    intro _ _
    apply (neverAborts_liftRefusal _).bind
    intro _ _
    exact neverAborts_of_eq_ok rfl
  · exact neverAborts_readSingle hsize

end Contents

/-- Validation never aborts. -/
theorem ImageInfo.neverAborts_read (bytes : Bytes) {itemSize : ℕ} (hsize : IsItemWidth itemSize) :
    NeverAborts (ImageInfo.read bytes itemSize) := by
  apply (Header.neverAborts_read bytes).bind
  intro header hheader
  obtain ⟨-, -, -, hparameters⟩ := Header.read_eq_ok_iff.mp hheader
  apply (Contents.neverAborts_read hparameters hsize).bind
  intro contents _
  apply (neverAborts_liftRefusal _).bind
  intro _ _
  exact neverAborts_of_eq_ok rfl

/-! ### The format -/

namespace Format

/-- What every image begins with. -/
structure SharedPreamble (bytes : Bytes) : Prop where
  length_le : 8 ≤ bytes.size
  family_eq : bytes.field 2 1 = 15
  m_mem : bytes.field 6 1 ∈ [2, 4, 6, 8]
  m_le_k : bytes.field 6 1 ≤ bytes.field 4 2

/-- What images of the two longer layouts go on with. -/
structure LongPreamble (bytes : Bytes) : Prop where
  words_eq : bytes.field 0 1 = 5
  length_le : 20 ≤ bytes.size
  numLevels_pos : 1 ≤ bytes.field 18 1
  numLevels_le : bytes.field 18 1 ≤ 61
  m_le_minK : bytes.field 6 1 ≤ bytes.field 16 2
  minK_le_k : bytes.field 16 2 ≤ bytes.field 4 2

/-- The number of slots of the sketch in an image of one of the two longer layouts. -/
def slots (bytes : Bytes) : ℕ :=
  totalCapacity (bytes.field 4 2) (bytes.field 6 1) (bytes.field 18 1)

/-- Boundaries that go with the other fields of an image: none is below the one before it, and they
stand for as many items as the image says. -/
structure LevelsFit (bytes : Bytes) (levels : List ℕ) : Prop where
  monotone : levels.Pairwise (· ≤ ·)
  weight_eq : sampleWeight (bytes.field 18 1) levels = .ok (bytes.field 8 8)

/-- What some bytes say beyond the shared preamble if they begin with an image of one of the four
layouts. The flag of an empty sketch tells the compact layouts apart and may have any value in the
updatable one. -/
inductive Describes (bytes : Bytes) (itemSize : ℕ) : Contents → Prop
  | empty (words_eq : bytes.field 0 1 = 2) (version_eq : bytes.field 1 1 = 1)
      (flag_eq : bytes.field 3 1 % 2 = 1) :
      Describes bytes itemSize
        { layout := .emptyCompact, n := 0, minK := bytes.field 4 2
          levels := [bytes.field 4 2, bytes.field 4 2]
          size := 8 }
  | single (words_eq : bytes.field 0 1 = 2) (version_eq : bytes.field 1 1 = 2)
      (flag_eq : bytes.field 3 1 % 2 = 0) :
      Describes bytes itemSize
        { layout := .singleCompact, n := 1, minK := bytes.field 4 2
          levels := [bytes.field 4 2 - 1, bytes.field 4 2]
          size := 8 + itemSize }
  | full {levels : List ℕ} (preamble : LongPreamble bytes) (version_eq : bytes.field 1 1 = 1)
      (flag_eq : bytes.field 3 1 % 2 = 0)
      (levels_eq : levels = bytes.offsets (bytes.field 18 1) 20 ++ [slots bytes])
      (fit : LevelsFit bytes levels) :
      Describes bytes itemSize
        { layout := .fullCompact, n := bytes.field 8 8, minK := bytes.field 16 2, levels
          size := 20 + 4 * bytes.field 18 1 + 2 * itemSize +
            (slots bytes - levels.headD 0) * itemSize }
  | updatable {levels : List ℕ} (preamble : LongPreamble bytes)
      (version_eq : bytes.field 1 1 = 3)
      (levels_eq : levels = bytes.offsets (bytes.field 18 1 + 1) 20)
      (last_eq : levels.getLastD 0 = slots bytes) (fit : LevelsFit bytes levels) :
      Describes bytes itemSize
        { layout := .updatable, n := bytes.field 8 8, minK := bytes.field 16 2, levels
          size := 20 + 4 * (bytes.field 18 1 + 1) + 2 * itemSize + slots bytes * itemSize }

variable {bytes : Bytes} {itemSize : ℕ} {c : Contents}

/-- A field is a word of its width. -/
lemma field_lt (bytes : Bytes) (pos width : ℕ) : bytes.field pos width < wordBound (8 * width) := by
  have hlength := Bytes.length_window_le bytes pos width
  exact (ofLittleEndian_lt _).trans_le
    (Nat.pow_le_pow_right (by decide) (Nat.mul_le_mul_left 8 hlength))

/-- The shared preamble is read if it is one. -/
theorem read_header_eq_ok_iff {h : Header} :
    Header.read bytes = .ok h ↔ SharedPreamble bytes ∧ h = Header.of bytes := by
  have hk : bytes.field 4 2 ≤ greatestK := Nat.le_of_lt_succ (field_lt bytes 4 2)
  rw [Header.read_eq_ok_iff]
  constructor
  · rintro ⟨hlength, rfl, hfamily, hvalid⟩
    obtain ⟨hleast, hgreatest, heven, hmk, -⟩ := hvalid
    refine ⟨⟨hlength, hfamily, ?_, hmk⟩, rfl⟩
    change 2 ≤ bytes.field 6 1 at hleast
    change bytes.field 6 1 ≤ 8 at hgreatest
    change bytes.field 6 1 % 2 = 0 at heven
    simp only [List.mem_cons, List.not_mem_nil, or_false]
    omega
  · rintro ⟨⟨hlength, hfamily, hm, hmk⟩, rfl⟩
    simp only [List.mem_cons, List.not_mem_nil, or_false] at hm
    have hleast : 2 ≤ bytes.field 6 1 := by omega
    have hgreatest : bytes.field 6 1 ≤ 8 := by omega
    have heven : bytes.field 6 1 % 2 = 0 := by omega
    exact ⟨hlength, rfl, hfamily, hleast, hgreatest, heven, hmk, hk⟩

/-- The flag of an empty sketch. -/
lemma isEmpty_header_eq_true_iff : (Header.of bytes).isEmpty = true ↔ bytes.field 3 1 % 2 = 1 :=
  beq_iff_eq

/-- The flag of an empty sketch is not set. -/
lemma isEmpty_header_eq_false_iff :
    (Header.of bytes).isEmpty = false ↔ bytes.field 3 1 % 2 = 0 := by
  rw [← Bool.not_eq_true, isEmpty_header_eq_true_iff]
  omega

/-- The size of a full image in plain numbers. -/
lemma fullImageSize_eq (offsets items itemSize : ℕ) :
    fullImageSize offsets items itemSize =
      20 + 4 * offsets + 2 * itemSize + items * itemSize := by
  rw [fullImageSize, Nat.mul_comm offsets]
  rfl

/-- What a full compact image says. -/
lemma contents_full_eq :
    Contents.full (Header.of bytes) bytes itemSize =
      { layout := .fullCompact, n := bytes.field 8 8, minK := bytes.field 16 2
        levels := bytes.offsets (bytes.field 18 1) 20 ++ [slots bytes]
        size := 20 + 4 * bytes.field 18 1 + 2 * itemSize +
          (slots bytes - (bytes.offsets (bytes.field 18 1) 20 ++ [slots bytes]).headD 0) *
            itemSize } := by
  rw [← fullImageSize_eq]
  rfl

/-- What an updatable image says. -/
lemma contents_updatable_eq
    (hlast : (bytes.offsets (bytes.field 18 1 + 1) 20).getLastD 0 = slots bytes) :
    Contents.updatable bytes itemSize =
      { layout := .updatable, n := bytes.field 8 8, minK := bytes.field 16 2
        levels := bytes.offsets (bytes.field 18 1 + 1) 20
        size := 20 + 4 * (bytes.field 18 1 + 1) + 2 * itemSize + slots bytes * itemSize } := by
  rw [← fullImageSize_eq, ← hlast]
  rfl

/-- The longer preamble, as it is checked. -/
lemma LongPreamble.of_inRange (hwords : (Header.of bytes).words = Format.fullPreamble)
    (hlength : Format.dataAt ≤ bytes.size)
    (hrange : (Contents.Extension.of bytes).InRange (Header.of bytes)) : LongPreamble bytes :=
  ⟨hwords, hlength, hrange.numLevels_pos, hrange.numLevels_le, hrange.m_le_minK, hrange.minK_le_k⟩

/-- What is checked of the longer preamble. -/
lemma LongPreamble.inRange (h : LongPreamble bytes) :
    (Contents.Extension.of bytes).InRange (Header.of bytes) :=
  ⟨h.numLevels_pos, h.numLevels_le, h.m_le_minK, h.minK_le_k⟩

/-- What is read behind the shared preamble is what the format describes. -/
theorem Describes.of_read (hparameters : ParametersValid (bytes.field 4 2) (bytes.field 6 1))
    (h : Contents.read (Header.of bytes) bytes itemSize = .ok c) :
    Describes bytes itemSize c := by
  unfold Contents.read at h
  split at h
  · rename_i hversion
    obtain ⟨hwords, hrange, hlength, hmonotone, hlast, hweight, -, rfl⟩ :=
      (Contents.readUpdatable_eq_ok_iff hparameters).mp h
    rw [contents_updatable_eq hlast]
    exact .updatable (.of_inRange hwords ((Nat.le_add_right _ _).trans hlength) hrange) hversion
      rfl hlast ⟨hmonotone, hweight⟩
  split at h
  · cases h
  · rename_i hflag _
    obtain ⟨hwords, hversion, hrange, hlength, hmonotone, hweight, -, rfl⟩ :=
      (Contents.readFull_eq_ok_iff hparameters).mp h
    rw [contents_full_eq]
    exact .full (.of_inRange hwords ((Nat.le_add_right _ _).trans hlength) hrange) hversion
      (isEmpty_header_eq_false_iff.mp hflag) rfl ⟨hmonotone, hweight⟩
  · rename_i hflag _
    obtain ⟨hwords, hversion, rfl⟩ := Contents.readEmpty_eq_ok_iff.mp h
    exact .empty hwords hversion (isEmpty_header_eq_true_iff.mp hflag)
  · rename_i hflag hversion
    obtain ⟨hwords, -, rfl⟩ := Contents.readSingle_eq_ok_iff.mp h
    exact .single hwords (beq_iff_eq.mp hversion) (isEmpty_header_eq_false_iff.mp hflag)

/-- What the format describes is read behind the shared preamble. -/
theorem Describes.read_eq_ok (h : Describes bytes itemSize c)
    (hparameters : ParametersValid (bytes.field 4 2) (bytes.field 6 1))
    (hsize : IsItemWidth itemSize) (hlength : c.size ≤ bytes.size) :
    Contents.read (Header.of bytes) bytes itemSize = .ok c := by
  have hword {a : ℕ} (ha : a < wordBound 32) : a < wordBound 64 := ha.trans (by decide)
  unfold Contents.read
  cases h with
  | empty hwords hversion hflag =>
    have hversion' : (Header.of bytes).version = compactVersion := hversion
    rw [hversion', isEmpty_header_eq_true_iff.mpr hflag]
    exact Contents.readEmpty_eq_ok_iff.mpr ⟨hwords, hversion, rfl⟩
  | single hwords hversion hflag =>
    have hversion' : (Header.of bytes).version = singleVersion := hversion
    have hfits : singleDataAt + itemSize < wordBound 64 := by
      rcases hsize with rfl | rfl <;> decide
    rw [hversion', isEmpty_header_eq_false_iff.mpr hflag]
    exact Contents.readSingle_eq_ok_iff.mpr ⟨hwords, hfits, rfl⟩
  | full hpreamble hversion hflag hlevels hfit =>
    have hversion' : (Header.of bytes).version = compactVersion := hversion
    subst hlevels
    rw [← contents_full_eq] at hlength ⊢
    have hslots : slots bytes ≤ slotLimit :=
      totalCapacity_le_slotLimit hparameters hpreamble.numLevels_le
    have hfits : (Contents.full (Header.of bytes) bytes itemSize).size < wordBound 32 :=
      Sketch.fullImageSize_lt (hpreamble.numLevels_le.trans (Nat.le_succ maxLevels))
        ((Nat.sub_le _ _).trans hslots) hsize
    have hoffsets : dataAt + (Contents.Extension.of bytes).numLevels * offsetBytes ≤ bytes.size :=
      (Sketch.offsets_le_fullImageSize _ _ _).trans hlength
    rw [hversion', isEmpty_header_eq_false_iff.mpr hflag]
    exact (Contents.readFull_eq_ok_iff hparameters).mpr ⟨hpreamble.words_eq, hversion,
      hpreamble.inRange, hoffsets, hfit.monotone, hfit.weight_eq, hword hfits, rfl⟩
  | updatable hpreamble hversion hlevels hlast hfit =>
    have hversion' : (Header.of bytes).version = updatableVersion := hversion
    subst hlevels
    rw [← contents_updatable_eq hlast] at hlength ⊢
    have hslots : slots bytes ≤ slotLimit :=
      totalCapacity_le_slotLimit hparameters hpreamble.numLevels_le
    have hfits : (Contents.updatable bytes itemSize).size < wordBound 32 :=
      Sketch.fullImageSize_lt (Nat.succ_le_succ hpreamble.numLevels_le) (hlast.trans_le hslots)
        hsize
    have hoffsets :
        dataAt + ((Contents.Extension.of bytes).numLevels + 1) * offsetBytes ≤ bytes.size :=
      (Sketch.offsets_le_fullImageSize _ _ _).trans hlength
    rw [if_pos hversion']
    exact (Contents.readUpdatable_eq_ok_iff hparameters).mpr ⟨hpreamble.words_eq,
      hpreamble.inRange, hoffsets, hfit.monotone, hlast, hfit.weight_eq, hword hfits, rfl⟩

end Format

/-- Validation accepts some bytes if they begin with an image of the format, and then it reports
what the format says of the image. -/
theorem ImageInfo.read_eq_ok_iff_describes {bytes : Bytes} {itemSize : ℕ} {v : ImageInfo}
    (hsize : IsItemWidth itemSize) :
    ImageInfo.read bytes itemSize = .ok v ↔
      Format.SharedPreamble bytes ∧ v.toHeader = Header.of bytes ∧
        Format.Describes bytes itemSize v.toContents ∧ v.size ≤ bytes.size := by
  rw [ImageInfo.read_eq_ok_iff, Format.read_header_eq_ok_iff, and_assoc]
  refine and_congr_right fun hshared => and_congr_right fun hheader => ?_
  have hparameters : ParametersValid (bytes.field 4 2) (bytes.field 6 1) :=
    (Header.read_eq_ok_iff.mp (Format.read_header_eq_ok_iff.mpr ⟨hshared, rfl⟩)).2.2.2
  rw [hheader]
  refine and_congr_left fun hlength => ⟨Format.Describes.of_read hparameters, fun hdescribes => ?_⟩
  exact hdescribes.read_eq_ok hparameters hsize hlength

/-- Whatever the bytes are, validation does not abort. It succeeds exactly if the bytes begin with
an image, all of which is there: the shared preamble is one, and one of the four layouts describes
what follows. The header that is reported is the one in the bytes, and layout, length of the
stream, smallest accuracy parameter, boundaries and size are those of the layout. -/
theorem ImageInfo.accepts_iff (bytes : Bytes) {itemSize : ℕ} (hsize : IsItemWidth itemSize) :
    (∀ abort, ImageInfo.read bytes itemSize ≠ .error (.aborted abort)) ∧
      ∀ v, ImageInfo.read bytes itemSize = .ok v ↔
        Format.SharedPreamble bytes ∧ v.toHeader = Header.of bytes ∧
          Format.Describes bytes itemSize v.toContents ∧ v.size ≤ bytes.size := by
  refine ⟨ImageInfo.neverAborts_read bytes hsize, ?_⟩
  intro v
  exact ImageInfo.read_eq_ok_iff_describes hsize

/-- A full compact image of three items in two levels, with one byte behind it. -/
theorem ImageInfo.accepts_two_levels :
    ∃ (bytes : Bytes) (v : ImageInfo),
      bytes.size = 45 ∧ ImageInfo.read bytes 4 = .ok v ∧ v.layout = .fullCompact ∧ v.n = 3 ∧
        v.levels = [2, 3, 4] ∧ v.size = 44 ∧ Format.SharedPreamble bytes ∧
        Format.Describes bytes 4 v.toContents := by
  let bytes : Bytes := #[5, 1, 15, 0, 2, 0, 2, 0, 3, 0, 0, 0, 0, 0, 0, 0, 2, 0, 2, 0, 2, 0, 0, 0,
    3, 0, 0, 0, 5, 0, 0, 0, 7, 0, 0, 0, 6, 0, 0, 0, 5, 0, 0, 0, 255]
  have hinfo : (ImageInfo.read bytes 4).toOption.map (fun v => (v.layout, v.n, v.levels, v.size)) =
      some (.fullCompact, 3, [2, 3, 4], 44) := by decide +kernel
  obtain ⟨v, hv, hinfo⟩ := Option.map_eq_some_iff.mp hinfo
  rw [toOption_eq_some_iff] at hv
  simp only [Prod.mk.injEq] at hinfo
  obtain ⟨hlayout, hn, hlevels, hsize⟩ := hinfo
  obtain ⟨-, haccepts⟩ := ImageInfo.accepts_iff bytes isItemWidth_four
  obtain ⟨hshared, -, hdescribes, -⟩ := (haccepts v).mp hv
  exact ⟨bytes, v, rfl, hv, hlayout, hn, hlevels, hsize, hshared, hdescribes⟩

end QuantileSketch
