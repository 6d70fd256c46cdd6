import QuantileSketch.Proofs.Images.Encoding
import QuantileSketch.Proofs.Regions

/-!
# Writing an insertion

An insertion into a free slot changes five fields of the updatable image, and all bytes between them
stay as they are. Writing these fields over the image from before the insertion therefore makes the
image from after it (`overwriteAll_insertionFields`), whatever follows the image.

A field that is written over another one of the same length is a `Patch`; its gap are the bytes
between the field and the one before.
-/

namespace QuantileSketch

/-! ### Patches -/

/-- A field that takes the place of an old one behind a gap that stays as it is. -/
structure Patch where
  gap : List UInt8
  old : List UInt8
  new : List UInt8
  length_eq : old.length = new.length

namespace Patch

/-- The bytes before some patches are applied. -/
def before : List Patch → List UInt8
  | [] => []
  | p :: patches => p.gap ++ p.old ++ before patches

/-- The bytes after some patches were applied. -/
def after : List Patch → List UInt8
  | [] => []
  | p :: patches => p.gap ++ p.new ++ after patches

/-- The new fields with their positions, if the first gap begins at `pos`. -/
def fields (pos : ℕ) : List Patch → List (ℕ × List UInt8)
  | [] => []
  | p :: patches =>
    (pos + p.gap.length, p.new) :: fields (pos + p.gap.length + p.new.length) patches

/-- Writing the new fields applies the patches. -/
theorem overwriteAll_fields (pre post : List UInt8) (patches : List Patch) :
    overwriteAll (fields pre.length patches) (pre ++ before patches ++ post).toArray =
      (pre ++ after patches ++ post).toArray := by
  induction patches generalizing pre with
  | nil => rfl
  | cons p patches ih =>
    have hfirst : overwrite (pre ++ before (p :: patches) ++ post).toArray
        (pre.length + p.gap.length) p.new =
          ((pre ++ p.gap ++ p.new) ++ before patches ++ post).toArray := by
      have hwrite : overwrite (pre ++ before (p :: patches) ++ post).toArray
          (pre.length + p.gap.length) p.new =
            ((pre ++ p.gap) ++ p.new ++ (before patches ++ post)).toArray :=
        overwrite_eq (by simp [before]) (List.length_append).symm p.length_eq
      rw [hwrite]
      simp
    have hlength : pre.length + p.gap.length + p.new.length = (pre ++ p.gap ++ p.new).length := by
      simp [Nat.add_assoc]
    rw [fields, overwriteAll, hfirst, hlength, ih, after]
    simp

end Patch

/-! ### The segments of the updatable image -/

namespace Sketch

variable {α : Type}

/-- The bytes before the flags. -/
def formatBytes : List UInt8 :=
  littleEndian 1 Format.fullPreamble ++ littleEndian 1 Format.updatableVersion ++
    littleEndian 1 Format.family

/-- The bytes between the flags and the length of the stream. -/
def parameterBytes (s : Sketch α) : List UInt8 := littleEndian 2 s.k ++ littleEndian 1 s.m ++ [0]

/-- The bytes between the length of the stream and the boundaries. -/
def levelBytes (s : Sketch α) : List UInt8 :=
  littleEndian 2 s.minK ++ littleEndian 1 s.numLevels ++ [0]

/-- The boundaries of an image, the lowest one apart. -/
lemma Represents.encodeNumbers_eq {s : Sketch α} {slack : List α} {runs : List (List α)}
    (h : s.Represents slack runs) :
    encodeNumbers offsetBytes s.levels =
      littleEndian offsetBytes s.free ++ encodeNumbers offsetBytes s.levels.tail := by
  obtain ⟨rest, hrest⟩ := boundaries_eq_cons slack.length (runs.map List.length)
  have hlevels : s.levels = s.free :: s.levels.tail := by
    rw [Sketch.free, h.levels_eq, hrest]
    rfl
  rw [hlevels]
  exact List.flatMap_cons

variable [Item α]

/-- The bytes of the extremes. -/
def extremeBytes (s : Sketch α) : List UInt8 :=
  Item.encode (Extremes.orFiller s.extremes).least ++
    Item.encode (Extremes.orFiller s.extremes).greatest

/-- The updatable image in segments. -/
lemma updatableBytes_eq (s : Sketch α) :
    s.updatableBytes =
      formatBytes ++ littleEndian 1 s.flags ++ s.parameterBytes ++ littleEndian 8 s.n ++
        s.levelBytes ++ encodeNumbers offsetBytes s.levels ++ s.extremeBytes ++
        s.items.toList.flatMap Item.encode := by
  simp [updatableBytes, header, body, formatBytes, parameterBytes, levelBytes, extremeBytes]

/-- The number of bytes of the extremes. -/
@[simp] lemma length_extremeBytes (s : Sketch α) : s.extremeBytes.length = 2 * Item.width α := by
  rw [extremeBytes, List.length_append, Item.length_encode, Item.length_encode]
  omega

/-- What an insertion of `x` over the item `y` in the slot behind `slack` changes in the image. -/
def insertionPatches (s : Sketch α) (x y : α) (slack : List α) : List Patch :=
  [⟨formatBytes, littleEndian 1 s.flags, littleEndian 1 (s.inserted x).flags, by simp⟩,
    ⟨s.parameterBytes, littleEndian 8 s.n, littleEndian 8 (s.inserted x).n, by simp⟩,
    ⟨s.levelBytes, littleEndian offsetBytes s.free, littleEndian offsetBytes (s.inserted x).free,
      by simp⟩,
    ⟨encodeNumbers offsetBytes s.levels.tail, s.extremeBytes, (s.inserted x).extremeBytes,
      by simp⟩,
    ⟨slack.flatMap Item.encode, Item.encode y, Item.encode x, by simp [Item.length_encode]⟩]

variable {s : Sketch α} {slack here : List α} {y : α} {upper : List (List α)}

/-- The image from before an insertion. -/
lemma updatableBytes_eq_before (x : α) (h : s.Represents (slack ++ [y]) (here :: upper)) :
    s.updatableBytes = Patch.before (s.insertionPatches x y slack) ++
      (here :: upper).flatten.flatMap Item.encode := by
  rw [updatableBytes_eq, h.encodeNumbers_eq, h.items_eq]
  simp [insertionPatches, Patch.before]

/-- The image from after an insertion. -/
lemma updatableBytes_inserted_eq_after (x : α) (h : s.Represents (slack ++ [y]) (here :: upper)) :
    (s.inserted x).updatableBytes = Patch.after (s.insertionPatches x y slack) ++
      (here :: upper).flatten.flatMap Item.encode := by
  have hinserted := inserted_represents x h
  have htail : (s.inserted x).levels.tail = s.levels.tail := rfl
  have hparameters : (s.inserted x).parameterBytes = s.parameterBytes := rfl
  have hlevels : (s.inserted x).levelBytes = s.levelBytes := by
    rw [levelBytes, levelBytes, h.numLevels_eq, hinserted.numLevels_eq]
    rfl
  rw [updatableBytes_eq, hinserted.encodeNumbers_eq, hinserted.items_eq, htail, hparameters,
    hlevels]
  simp [insertionPatches, Patch.after]

/-- The fields that an insertion writes are those of its patches. -/
lemma insertionFields_eq (x : α) (h : s.Represents (slack ++ [y]) (here :: upper)) :
    (s.inserted x).insertionFields (s.inserted x).free x =
      Patch.fields 0 (s.insertionPatches x y slack) := by
  have hinserted := inserted_represents x h
  have htail : s.levels.tail.length = (here :: upper).length := by
    rw [h.levels_eq, List.length_tail, length_boundaries, List.length_map, Nat.add_sub_cancel]
  have hnumLevels : (s.inserted x).numLevels = (here :: upper).length := hinserted.numLevels_eq
  simp only [insertionFields, insertionPatches, Patch.fields, hnumLevels, hinserted.free_eq,
    List.cons.injEq, Prod.mk.injEq, and_true, true_and, formatBytes, parameterBytes, levelBytes,
    List.length_append, length_littleEndian, length_encodeNumbers, htail, length_extremeBytes,
    Item.length_flatMap_encode, List.length_singleton, Format.flagsAt, Format.nAt, Format.dataAt,
    offsetBytes]
  exact ⟨⟨by omega, rfl⟩, by omega⟩

/-- Writing an insertion makes the image from after the insertion out of the one from before. -/
theorem overwriteAll_insertionFields (x : α) (h : s.Represents (slack ++ [y]) (here :: upper))
    (tail : List UInt8) :
    overwriteAll ((s.inserted x).insertionFields (s.inserted x).free x)
      (s.updatableBytes ++ tail).toArray = ((s.inserted x).updatableBytes ++ tail).toArray := by
  have hpatched := Patch.overwriteAll_fields []
    ((here :: upper).flatten.flatMap Item.encode ++ tail) (s.insertionPatches x y slack)
  rw [List.nil_append, List.nil_append, List.length_nil, ← List.append_assoc,
    ← List.append_assoc, ← updatableBytes_eq_before x h, ← updatableBytes_inserted_eq_after x h,
    ← insertionFields_eq x h] at hpatched
  exact hpatched

end Sketch

end QuantileSketch
