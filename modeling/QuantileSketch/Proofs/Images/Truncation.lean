import QuantileSketch.Item.Integer
import QuantileSketch.Proofs.Images.Safety

/-!
# Images that are cut off

A prefix of some bytes is looked at in the same order as the bytes themselves, and each part only
after its length has been checked. So validating the prefix goes as validating the whole until a
part is missing, and then this is what it is refused for (`ImageInfo.cutShort_read`). The bytes need
not be valid for that.

An image that is valid can therefore be told from all its proper prefixes, and what follows it does
not matter (`ImageInfo.read_extended_or_cut`).
-/

namespace QuantileSketch

namespace Failure

variable {α β : Type} {length : ℕ}

/-- The answers to a string of bytes of some length that go with the answers to a longer one. Both
are the same, or the shorter one is refused because it ends before a part of the image does. -/
inductive CutShort (length : ℕ) : Except Failure α → Except Failure α → Prop
  | same (x : Except Failure α) : CutShort length x x
  | missing {required : ℕ} (part : ImagePart) (h : length < required) (x : Except Failure α) :
      CutShort length (.error (.refused (Cause.cutOff part length required).error)) x

/-- Equal computations have the same answers. -/
lemma CutShort.of_eq {x y : Except Failure α} (h : x = y) : CutShort length x y := by
  rw [h]
  exact .same y

/-- Computations in steps that go together. -/
lemma CutShort.bind {x y : Except Failure α} {f g : α → Except Failure β}
    (hxy : CutShort length x y) (hfg : ∀ a, x = .ok a → CutShort length (f a) (g a)) :
    CutShort length (x >>= f) (y >>= g) := by
  cases hxy with
  | same =>
    cases x with
    | error failure => exact .same _
    | ok a => exact hfg a rfl
  | missing part h => exact .missing part h _

/-- Computations that begin with the same step. -/
lemma CutShort.bind_same (x : Except Failure α) {f g : α → Except Failure β}
    (hfg : ∀ a, x = .ok a → CutShort length (f a) (g a)) :
    CutShort length (x >>= f) (x >>= g) :=
  (CutShort.same x).bind hfg

/-- Once a length check of the shorter bytes has succeeded, what it asks for is there. -/
lemma CutShort.checkLength_bind {bytes bytes' : Bytes} {required : ℕ} {part : ImagePart}
    {f g : Unit → Except Failure β} (hsize : bytes'.size ≤ bytes.size)
    (hfg : required ≤ bytes'.size → CutShort bytes'.size (f ()) (g ())) :
    CutShort bytes'.size
      ((liftM (checkLength bytes' required part) : Except Failure Unit) >>= f)
      ((liftM (checkLength bytes required part) : Except Failure Unit) >>= g) := by
  by_cases h : required ≤ bytes'.size
  · have hwhole : checkLength bytes required part = .ok () :=
      checkLength_eq_ok_iff.mpr (h.trans hsize)
    have hcut : checkLength bytes' required part = .ok () :=
      checkLength_eq_ok_iff.mpr h
    rw [hwhole, hcut]
    exact hfg h
  · have hcut : checkLength bytes' required part =
        .error (Cause.cutOff part bytes'.size required).error := by
      rw [checkLength, Cause.unless, if_neg h]
    rw [hcut]
    exact .missing part (not_le.mp h) _

end Failure

open Failure

/-! ### What stands in a prefix -/

namespace Bytes

variable {bytes : Bytes} {length pos width : ℕ}

/-- A prefix is not longer than the whole. -/
lemma size_extract_le (bytes : Bytes) (length : ℕ) :
    (bytes.extract 0 length).size ≤ bytes.size := by
  rw [Array.size_extract]
  omega

/-- A prefix begins with itself. -/
lemma extract_size_extract (bytes : Bytes) (length : ℕ) :
    (bytes.extract 0 length).extract 0 (bytes.extract 0 length).size =
      bytes.extract 0 (bytes.extract 0 length).size := by
  rw [Array.extract_extract, Array.size_extract]
  congr 1
  omega

/-- A number inside a prefix is read as in the whole. -/
lemma number_extract (h : pos + width ≤ (bytes.extract 0 length).size) :
    number (bytes.extract 0 length) pos width = bytes.number pos width := by
  have hfield := field_congr (extract_size_extract bytes length) h
  have hwhole : bytes.number pos width = .ok (bytes.field pos width) :=
    number_eq_ok_iff.mpr ⟨h.trans (size_extract_le bytes length), rfl⟩
  rw [hwhole]
  exact number_eq_ok_iff.mpr ⟨h, hfield⟩

/-- Reading a number of a part of which it is known that the prefix holds it. -/
lemma cutShort_number {limit : ℕ} (hlimit : limit ≤ (bytes.extract 0 length).size)
    (h : pos + width ≤ limit) :
    CutShort (bytes.extract 0 length).size (liftM (number (bytes.extract 0 length) pos width))
      (liftM (bytes.number pos width)) :=
  .of_eq (congrArg _ (number_extract (h.trans hlimit)))

/-- Boundaries inside a prefix are read as in the whole. -/
lemma readOffsets_extract {count : ℕ}
    (h : pos + count * offsetBytes ≤ (bytes.extract 0 length).size) :
    readOffsets (bytes.extract 0 length) count pos = readOffsets bytes count pos := by
  rw [readOffsets_eq_ok h, readOffsets_eq_ok (h.trans (size_extract_le bytes length)),
    offsets_congr (extract_size_extract bytes length) h]

end Bytes

/-! ### Validating a prefix -/

section

variable {bytes : Bytes} {length itemSize : ℕ} {h : Header}

/-- Reading the shared preamble of a prefix. -/
lemma Header.cutShort_read (bytes : Bytes) (length : ℕ) :
    CutShort (bytes.extract 0 length).size (Header.read (bytes.extract 0 length))
      (Header.read bytes) := by
  apply CutShort.checkLength_bind (Bytes.size_extract_le bytes length)
  intro hlength
  apply (Bytes.cutShort_number hlength (by decide)).bind
  intro words _
  apply (Bytes.cutShort_number hlength (by decide)).bind
  intro version _
  apply (Bytes.cutShort_number hlength (by decide)).bind
  intro family _
  apply CutShort.bind_same
  intro _ _
  apply (Bytes.cutShort_number hlength (by decide)).bind
  intro flags _
  apply (Bytes.cutShort_number hlength (by decide)).bind
  intro k _
  apply (Bytes.cutShort_number hlength (by decide)).bind
  intro m _
  exact .same _

namespace Contents

/-- Reading the fields behind the shared preamble of a prefix. -/
lemma Extension.cutShort_read (h : Header) (bytes : Bytes) (length : ℕ) :
    CutShort (bytes.extract 0 length).size (Extension.read h (bytes.extract 0 length))
      (Extension.read h bytes) := by
  apply CutShort.checkLength_bind (Bytes.size_extract_le bytes length)
  intro hlength
  apply (Bytes.cutShort_number hlength (by decide)).bind
  intro n _
  apply (Bytes.cutShort_number hlength (by decide)).bind
  intro minK _
  apply (Bytes.cutShort_number hlength (by decide)).bind
  intro numLevels _
  exact .same _

/-- Reading a full compact image from a prefix. -/
lemma cutShort_readFull :
    CutShort (bytes.extract 0 length).size (readFull h (bytes.extract 0 length) itemSize)
      (readFull h bytes itemSize) := by
  apply CutShort.bind_same
  intro _ _
  apply CutShort.bind_same
  intro _ _
  apply (Extension.cutShort_read h bytes length).bind
  intro extension _
  apply CutShort.checkLength_bind (Bytes.size_extract_le bytes length)
  intro hlength
  rw [Bytes.readOffsets_extract hlength]
  exact .same _

/-- Reading an updatable image from a prefix. -/
lemma cutShort_readUpdatable :
    CutShort (bytes.extract 0 length).size (readUpdatable h (bytes.extract 0 length) itemSize)
      (readUpdatable h bytes itemSize) := by
  apply CutShort.bind_same
  intro _ _
  apply (Extension.cutShort_read h bytes length).bind
  intro extension _
  apply CutShort.checkLength_bind (Bytes.size_extract_le bytes length)
  intro hlength
  rw [Bytes.readOffsets_extract hlength]
  exact .same _

/-- Reading what follows the shared preamble of a prefix. -/
lemma cutShort_read (h : Header) (bytes : Bytes) (length itemSize : ℕ) :
    CutShort (bytes.extract 0 length).size (Contents.read h (bytes.extract 0 length) itemSize)
      (Contents.read h bytes itemSize) := by
  unfold Contents.read
  split
  · exact cutShort_readUpdatable
  split
  · exact .same _
  · exact cutShort_readFull
  · exact .same _
  · exact .same _

end Contents

end

namespace ImageInfo

/-- Whatever the bytes are, a prefix of them is answered as they are, or refused because it ends
before a part of the image does. -/
theorem cutShort_read (bytes : Bytes) (length itemSize : ℕ) :
    CutShort (bytes.extract 0 length).size (ImageInfo.read (bytes.extract 0 length) itemSize)
      (ImageInfo.read bytes itemSize) := by
  apply (Header.cutShort_read bytes length).bind
  intro header _
  apply (Contents.cutShort_read header bytes length itemSize).bind
  intro contents _
  -- the whole image is a part like the others
  apply CutShort.checkLength_bind (Bytes.size_extract_le bytes length)
  intro _
  exact .same _

/-- A proper prefix of a valid image is refused because it ends before a part of the image does. -/
lemma read_prefix_eq_refused {bytes : Bytes} {length itemSize : ℕ} {v : ImageInfo}
    (hsize : IsItemWidth itemSize) (h : ImageInfo.read bytes itemSize = .ok v)
    (hlength : length < v.size) :
    ∃ part required, length < required ∧ ImageInfo.read (bytes.extract 0 length) itemSize =
      .error (.refused (Cause.cutOff part length required).error) := by
  have hwhole : v.size ≤ bytes.size := (layoutSize_le hsize h).2
  have hcut : (bytes.extract 0 length).size = length := by
    rw [Array.size_extract]
    omega
  have hshort := cutShort_read bytes length itemSize
  rw [hcut, h] at hshort
  generalize hread : ImageInfo.read (bytes.extract 0 length) itemSize = answer at hshort
  cases hshort with
  | same =>
    -- the same answer says that the image is all there
    have hfits := (layoutSize_le hsize hread).2
    omega
  | missing part hrequired => exact ⟨part, _, hrequired, rfl⟩

/-- What follows a valid image does not matter, and none of the image may be missing. Bytes that
begin with the same image are validated in the same way and opened as the same sketch. A proper
prefix of the image is refused, whether it is validated or opened, and the reason is that data are
missing. -/
theorem read_extended_or_cut {bytes : Bytes} {itemSize : ℕ} {v : ImageInfo}
    (hsize : IsItemWidth itemSize) (h : ImageInfo.read bytes itemSize = .ok v) :
    (∀ bytes' : Bytes, v.size ≤ bytes'.size →
      bytes'.extract 0 v.size = bytes.extract 0 v.size →
        ImageInfo.read bytes' itemSize = .ok v ∧
          ∀ (α : Type) [Item α], Item.width α = itemSize →
            ∃ s : Sketch α, Sketch.read bytes = .ok s ∧ Sketch.read bytes' = .ok s) ∧
    ∀ length < v.size, ∃ error : Error, error.kind = .insufficientData ∧
      ImageInfo.read (bytes.extract 0 length) itemSize = .error (.refused error) ∧
        ∀ (α : Type) [Item α], Item.width α = itemSize →
          (Sketch.read (bytes.extract 0 length) : Except Failure (Sketch α)) =
            .error (.refused error) := by
  constructor
  · intro bytes' _ hbytes
    have h' := read_congr hsize h hbytes
    refine ⟨h', ?_⟩
    rintro α _ rfl
    refine ⟨Sketch.sketchOf v bytes, Sketch.read_eq_ok h, ?_⟩
    rw [← Sketch.sketchOf_congr h hbytes]
    exact Sketch.read_eq_ok h'
  · intro length hlength
    obtain ⟨part, required, -, hcut⟩ := read_prefix_eq_refused hsize h hlength
    refine ⟨_, rfl, hcut, ?_⟩
    rintro α _ rfl
    rw [Sketch.read, hcut]
    rfl

/-- A full compact image of three items in two levels. Any two bytes may follow it, and none of its
44 bytes may be missing. -/
theorem read_extended_or_cut_two_levels :
    ∃ (image : Bytes) (v : ImageInfo), image.size = 44 ∧ ImageInfo.read image 4 = .ok v ∧
      v.levels = [2, 3, 4] ∧
      (∀ first second : UInt8, ImageInfo.read (image ++ #[first, second]) 4 = .ok v ∧
        ∃ s : Sketch Int32, Sketch.read image = .ok s ∧
          Sketch.read (image ++ #[first, second]) = .ok s) ∧
      ∀ length < 44, ∃ error : Error, error.kind = .insufficientData ∧
        ImageInfo.read (image.extract 0 length) 4 = .error (.refused error) := by
  let image : Bytes := #[5, 1, 15, 0, 2, 0, 2, 0, 3, 0, 0, 0, 0, 0, 0, 0, 2, 0, 2, 0, 2, 0, 0, 0,
    3, 0, 0, 0, 5, 0, 0, 0, 7, 0, 0, 0, 6, 0, 0, 0, 5, 0, 0, 0]
  have hinfo : (ImageInfo.read image 4).toOption.map (fun v => (v.levels, v.size)) =
      some ([2, 3, 4], 44) := by decide +kernel
  obtain ⟨v, hv, hinfo⟩ := Option.map_eq_some_iff.mp hinfo
  rw [toOption_eq_some_iff] at hv
  obtain ⟨hlevels, hsize⟩ := Prod.mk.inj hinfo
  obtain ⟨hextended, hcut⟩ := read_extended_or_cut isItemWidth_four hv
  rw [hsize] at hextended hcut
  refine ⟨image, v, rfl, hv, hlevels, ?_, ?_⟩
  · intro first second
    have hsame : (image ++ #[first, second]).extract 0 44 = image.extract 0 44 := by
      simp [image]
    obtain ⟨hread, hopened⟩ := hextended (image ++ #[first, second]) (by simp [image]) hsame
    exact ⟨hread, hopened Int32 rfl⟩
  · intro length hlength
    obtain ⟨error, hkind, hread, -⟩ := hcut length hlength
    exact ⟨error, hkind, hread⟩

end ImageInfo

end QuantileSketch
