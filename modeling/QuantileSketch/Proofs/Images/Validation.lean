import QuantileSketch.Proofs.Images.Fields
import QuantileSketch.Proofs.Shape

/-!
# What validation finds out

The fields of an image stand at fixed positions, so that what a reader can find in them is known
beforehand: `Header.of` and `Extension.of`. Reading succeeds exactly if the fields pass the checks.
-/

namespace QuantileSketch

/-! ### Checks -/

/-- Bytes are long enough for a part of an image. -/
lemma checkLength_eq_ok_iff {bytes : Bytes} {required : ℕ} {part : ImagePart} {u : Unit} :
    checkLength bytes required part = .ok u ↔ required ≤ bytes.size := Cause.unless_eq_ok_iff

/-- A field of the preamble has the value expected. -/
lemma checkField_eq_ok_iff {fault : PreambleFault} {actual expected : ℕ} {u : Unit} :
    checkField fault actual expected = .ok u ↔ actual = expected := Cause.unless_eq_ok_iff

/-- The boundaries do not decrease. -/
lemma checkMonotone_eq_ok_iff {levels : List ℕ} {u : Unit} :
    checkMonotone levels = .ok u ↔ levels.Pairwise (· ≤ ·) :=
  Cause.unless_eq_ok_iff.trans isMonotone_iff_pairwise

/-- The levels stand for a stream of `n` items. -/
lemma checkWeight_eq_ok_iff {n numLevels : ℕ} {levels : List ℕ} {u : Unit} :
    checkWeight n numLevels levels = .ok u ↔ sampleWeight numLevels levels = .ok n := by
  unfold checkWeight
  rw [bind_eq_ok_iff]
  constructor
  · rintro ⟨weight, hweight, h⟩
    rw [liftAbort_eq_ok_iff] at hweight
    rw [liftRefusal_eq_ok_iff, Cause.unless_eq_ok_iff] at h
    rw [hweight, h]
  · intro h
    exact ⟨n, liftAbort_eq_ok_iff.mpr h,
      liftRefusal_eq_ok_iff.mpr (Cause.unless_eq_ok_iff.mpr rfl)⟩

/-! ### Fields at fixed positions -/

/-- What stands at the positions of the shared preamble. -/
def Header.of (bytes : Bytes) : Header where
  words := bytes.field Format.preambleWordsAt 1
  version := bytes.field Format.versionAt 1
  family := bytes.field Format.familyAt 1
  flags := bytes.field Format.flagsAt 1
  k := bytes.field Format.kAt 2
  m := bytes.field Format.mAt 1

/-- The shared preamble is read if it is there and its family and parameters are right. -/
theorem Header.read_eq_ok_iff {bytes : Bytes} {h : Header} :
    Header.read bytes = .ok h ↔
      Format.headerBytes ≤ bytes.size ∧ Header.of bytes = h ∧ h.family = Format.family ∧
        ParametersValid h.k h.m := by
  simp only [Header.read, bind_eq_ok_iff, liftRefusal_eq_ok_iff, liftAbort_eq_ok_iff,
    Cause.unless_eq_ok_iff, Bytes.number_eq_ok_iff, checkLength_eq_ok_iff, pure_eq_ok_iff]
  constructor
  · rintro ⟨-, hsize, _, ⟨-, rfl⟩, _, ⟨-, rfl⟩, _, ⟨-, rfl⟩, -, hfamily, _, ⟨-, rfl⟩, _, ⟨-, rfl⟩,
      _, ⟨-, rfl⟩, _, hm, _, hk, rfl⟩
    exact ⟨hsize, rfl, hfamily, parametersValid_iff.mpr ⟨hm, hk⟩⟩
  · rintro ⟨hsize, rfl, hfamily, hvalid⟩
    obtain ⟨hm, hk⟩ := parametersValid_iff (u := ()) (v := ()) |>.mp hvalid
    have hinside {pos : ℕ} (hpos : pos ≤ Format.headerBytes) : pos ≤ bytes.size := hpos.trans hsize
    exact ⟨(), hsize, _, ⟨hinside (by decide), rfl⟩, _, ⟨hinside (by decide), rfl⟩, _,
      ⟨hinside (by decide), rfl⟩, (), hfamily, _, ⟨hinside (by decide), rfl⟩, _,
      ⟨hinside (by decide), rfl⟩, _, ⟨hinside (by decide), rfl⟩, (), hm, (), hk, rfl⟩

namespace Contents

/-- What stands at the positions behind the shared preamble in the longer layouts. -/
def Extension.of (bytes : Bytes) : Extension where
  n := bytes.field Format.nAt 8
  minK := bytes.field Format.minKAt 2
  numLevels := bytes.field Format.numLevelsAt 1

/-- The fields behind the shared preamble are in range. -/
structure Extension.InRange (h : Header) (extension : Extension) : Prop where
  numLevels_pos : 1 ≤ extension.numLevels
  numLevels_le : extension.numLevels ≤ maxLevels
  m_le_minK : h.m ≤ extension.minK
  minK_le_k : extension.minK ≤ h.k

/-- The fields behind the shared preamble are read if they are there and in range. -/
theorem Extension.read_eq_ok_iff {h : Header} {bytes : Bytes} {extension : Extension} :
    Extension.read h bytes = .ok extension ↔
      Format.dataAt ≤ bytes.size ∧ Extension.of bytes = extension ∧ extension.InRange h := by
  simp only [Extension.read, bind_eq_ok_iff, liftRefusal_eq_ok_iff, liftAbort_eq_ok_iff,
    Cause.unless_eq_ok_iff, Bytes.number_eq_ok_iff, checkLength_eq_ok_iff, pure_eq_ok_iff]
  constructor
  · rintro ⟨-, hsize, _, ⟨-, rfl⟩, _, ⟨-, rfl⟩, _, ⟨-, rfl⟩, -, ⟨hpos, hle⟩, -, ⟨hm, hk⟩, rfl⟩
    exact ⟨hsize, rfl, ⟨hpos, hle, hm, hk⟩⟩
  · rintro ⟨hsize, rfl, hrange⟩
    have hinside {pos : ℕ} (hpos : pos ≤ Format.dataAt) : pos ≤ bytes.size := hpos.trans hsize
    exact ⟨(), hsize, _, ⟨hinside (by decide), rfl⟩, _, ⟨hinside (by decide), rfl⟩, _,
      ⟨hinside (by decide), rfl⟩, (), ⟨hrange.numLevels_pos, hrange.numLevels_le⟩, (),
      ⟨hrange.m_le_minK, hrange.minK_le_k⟩, rfl⟩

/-! ### Layouts -/

variable {h : Header} {bytes : Bytes} {itemSize : ℕ} {c : Contents}

/-- An empty image. -/
theorem readEmpty_eq_ok_iff :
    readEmpty h = .ok c ↔
      h.words = Format.shortPreamble ∧ h.version = Format.compactVersion ∧
        c = { layout := .emptyCompact, n := 0, minK := h.k, levels := [h.k, h.k],
              size := Format.emptyBytes } := by
  simp only [readEmpty, bind_eq_ok_iff, liftRefusal_eq_ok_iff, checkField_eq_ok_iff,
    pure_eq_ok_iff, exists_const]
  exact and_congr_right' (and_congr_right' eq_comm)

/-- A single item image. -/
theorem readSingle_eq_ok_iff :
    readSingle h itemSize = .ok c ↔
      h.words = Format.shortPreamble ∧ Format.singleDataAt + itemSize < wordBound 64 ∧
        c = { layout := .singleCompact, n := 1, minK := h.k, levels := [h.k - 1, h.k],
              size := Format.singleDataAt + itemSize } := by
  simp only [readSingle, bind_eq_ok_iff, liftRefusal_eq_ok_iff, liftAbort_eq_ok_iff,
    checkField_eq_ok_iff, fitWord_eq_ok_iff, pure_eq_ok_iff, exists_const]
  constructor
  · rintro ⟨hwords, _, ⟨hsize, rfl⟩, rfl⟩
    exact ⟨hwords, hsize, rfl⟩
  · rintro ⟨hwords, hsize, rfl⟩
    exact ⟨hwords, _, ⟨hsize, rfl⟩, rfl⟩

/-- The boundaries in a full compact image, with the total capacity behind them. -/
def fullLevels (h : Header) (bytes : Bytes) : List ℕ :=
  bytes.offsets (Extension.of bytes).numLevels Format.dataAt ++
    [totalCapacity h.k h.m (Extension.of bytes).numLevels]

/-- The boundaries in an updatable image. -/
def updatableLevels (bytes : Bytes) : List ℕ :=
  bytes.offsets ((Extension.of bytes).numLevels + 1) Format.dataAt

/-- What a full compact image says. -/
def full (h : Header) (bytes : Bytes) (itemSize : ℕ) : Contents where
  layout := .fullCompact
  n := (Extension.of bytes).n
  minK := (Extension.of bytes).minK
  levels := fullLevels h bytes
  size := fullImageSize (Extension.of bytes).numLevels
    (totalCapacity h.k h.m (Extension.of bytes).numLevels - (fullLevels h bytes).headD 0) itemSize

/-- What an updatable image says. -/
def updatable (bytes : Bytes) (itemSize : ℕ) : Contents where
  layout := .updatable
  n := (Extension.of bytes).n
  minK := (Extension.of bytes).minK
  levels := updatableLevels bytes
  size := updatableSize (Extension.of bytes).numLevels ((updatableLevels bytes).getLastD 0) itemSize

/-- A full compact image. -/
theorem readFull_eq_ok_iff (hparameters : ParametersValid h.k h.m) :
    readFull h bytes itemSize = .ok c ↔
      h.words = Format.fullPreamble ∧ h.version = Format.compactVersion ∧
        (Extension.of bytes).InRange h ∧
        Format.dataAt + (Extension.of bytes).numLevels * offsetBytes ≤ bytes.size ∧
        c.levels.Pairwise (· ≤ ·) ∧
        sampleWeight (Extension.of bytes).numLevels c.levels = .ok c.n ∧
        c.size < wordBound 64 ∧ c = full h bytes itemSize := by
  simp only [readFull, bind_eq_ok_iff, liftRefusal_eq_ok_iff, liftAbort_eq_ok_iff,
    Extension.read_eq_ok_iff, checkLength_eq_ok_iff, checkField_eq_ok_iff,
    checkMonotone_eq_ok_iff, checkWeight_eq_ok_iff, fitWord_eq_ok_iff, pure_eq_ok_iff, exists_const]
  constructor
  · rintro ⟨hwords, hversion, _, ⟨-, rfl, hrange⟩, hlength, offsets, hoffsets, capacity, hcapacity,
      hmonotone, hweight, _, ⟨hsize, rfl⟩, rfl⟩
    rw [Bytes.readOffsets_eq_ok hlength, Except.ok.injEq] at hoffsets
    rw [totalItemCapacity_eq_ok hparameters hrange.numLevels_le, Except.ok.injEq] at hcapacity
    subst hoffsets hcapacity
    exact ⟨hwords, hversion, hrange, hlength, hmonotone, hweight, hsize, rfl⟩
  · rintro ⟨hwords, hversion, hrange, hlength, hmonotone, hweight, hsize, rfl⟩
    have hdata : Format.dataAt ≤ bytes.size := (Nat.le_add_right _ _).trans hlength
    exact ⟨hwords, hversion, _, ⟨hdata, rfl, hrange⟩, hlength, _, Bytes.readOffsets_eq_ok hlength,
      _, totalItemCapacity_eq_ok hparameters hrange.numLevels_le, hmonotone, hweight, _,
      ⟨hsize, rfl⟩, rfl⟩

/-- An updatable image. -/
theorem readUpdatable_eq_ok_iff (hparameters : ParametersValid h.k h.m) :
    readUpdatable h bytes itemSize = .ok c ↔
      h.words = Format.fullPreamble ∧ (Extension.of bytes).InRange h ∧
        Format.dataAt + ((Extension.of bytes).numLevels + 1) * offsetBytes ≤ bytes.size ∧
        c.levels.Pairwise (· ≤ ·) ∧
        c.levels.getLastD 0 = totalCapacity h.k h.m (Extension.of bytes).numLevels ∧
        sampleWeight (Extension.of bytes).numLevels c.levels = .ok c.n ∧
        c.size < wordBound 64 ∧ c = updatable bytes itemSize := by
  simp only [readUpdatable, bind_eq_ok_iff, liftRefusal_eq_ok_iff, liftAbort_eq_ok_iff,
    Cause.unless_eq_ok_iff, Extension.read_eq_ok_iff, checkLength_eq_ok_iff, checkField_eq_ok_iff,
    checkMonotone_eq_ok_iff, checkWeight_eq_ok_iff, fitWord_eq_ok_iff, pure_eq_ok_iff, exists_const]
  constructor
  · rintro ⟨hwords, _, ⟨-, rfl, hrange⟩, hlength, levels, hlevels, hmonotone, expected, hexpected,
      hcapacity, hweight, _, ⟨hsize, rfl⟩, rfl⟩
    rw [Bytes.readOffsets_eq_ok hlength, Except.ok.injEq] at hlevels
    rw [totalItemCapacity_eq_ok hparameters hrange.numLevels_le, Except.ok.injEq] at hexpected
    subst hlevels hexpected
    exact ⟨hwords, hrange, hlength, hmonotone, hcapacity, hweight, hsize, rfl⟩
  · rintro ⟨hwords, hrange, hlength, hmonotone, hcapacity, hweight, hsize, rfl⟩
    have hdata : Format.dataAt ≤ bytes.size := (Nat.le_add_right _ _).trans hlength
    exact ⟨hwords, _, ⟨hdata, rfl, hrange⟩, hlength, _, Bytes.readOffsets_eq_ok hlength, hmonotone,
      _, totalItemCapacity_eq_ok hparameters hrange.numLevels_le, hcapacity, hweight, _,
      ⟨hsize, rfl⟩, rfl⟩

end Contents

end QuantileSketch
