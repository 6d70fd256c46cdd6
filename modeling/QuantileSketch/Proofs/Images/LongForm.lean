import QuantileSketch.Proofs.Images.Insertions
import QuantileSketch.Proofs.Images.Opening

/-!
# Reading fields of an image back

All layouts begin with the same fields, and the two longer ones go on in the same way but for the
boundaries and the items that they hold (`longBytes`). What was written at these positions is read
back, whatever follows: the shared preamble (`header_of_header`), the fields behind it
(`extension_of_longBytes`), the boundaries, the extremes and the items.

Every field is found because the segments before it have a known number of bytes
(`Bytes.exists_eq_of_prefix`), and has the value that was written because it is a word of the width
of the field.
-/

namespace QuantileSketch

/-- Bytes that begin with a segment behind some others. -/
lemma Bytes.exists_eq_of_prefix {bytes : Bytes} {image tail : List UInt8} (pre mid : List UInt8)
    (hbytes : bytes = (image ++ tail).toArray) (h : pre ++ mid <+: image) :
    ∃ post, bytes = (pre ++ mid ++ post).toArray := by
  obtain ⟨rest, rfl⟩ := h
  exact ⟨rest ++ tail, by rw [hbytes, List.append_assoc (pre ++ mid)]⟩

/-- The number in a field of an image. -/
lemma Bytes.field_eq_of_prefix {bytes : Bytes} {image tail : List UInt8} {pos width n : ℕ}
    (pre : List UInt8) (hbytes : bytes = (image ++ tail).toArray)
    (h : pre ++ littleEndian width n <+: image) (hpos : pos = pre.length)
    (hn : n < wordBound (8 * width)) : bytes.field pos width = n := by
  obtain ⟨post, hpost⟩ := exists_eq_of_prefix _ _ hbytes h
  exact field_eq hpost hpos hn

namespace Sketch

variable {α : Type}

/-- Flags fit into a byte. -/
lemma flags_lt (s : Sketch α) : s.flags < wordBound 8 := by
  have hlimit : Format.emptyFlag + Format.sortedFlag < wordBound 8 := by decide
  unfold flags
  split <;> split <;> omega

/-- The header that is written to an image. -/
def headerOf (s : Sketch α) (words version : ℕ) : Header where
  words := words
  version := version
  family := Format.family
  flags := s.flags
  k := s.k
  m := s.m

/-- The flag of an empty sketch is read back. -/
lemma isEmpty_headerOf (s : Sketch α) (words version : ℕ) :
    (s.headerOf words version).isEmpty = s.isEmpty := by
  change (s.flags % 2 == 1) = s.isEmpty
  rw [flags, Format.emptyFlag, Format.sortedFlag]
  cases s.levelZeroSorted <;> cases s.isEmpty <;> rfl

/-- The flag of a sorted level 0 is read back. -/
lemma levelZeroSorted_headerOf (s : Sketch α) (words version : ℕ) :
    (s.headerOf words version).levelZeroSorted = s.levelZeroSorted := by
  change (s.flags / 2 % 2 == 1) = s.levelZeroSorted
  rw [flags, Format.emptyFlag, Format.sortedFlag]
  cases s.levelZeroSorted <;> cases s.isEmpty <;> rfl

section Header

variable {s : Sketch α} {free : ℕ} {populations : List ℕ} {words version : ℕ} {bytes : Bytes}
  {rest : List UInt8}

/-- The shared preamble of an image of any layout is read back. -/
lemma header_of_header (hs : s.HasShape free populations) (hwords : words < wordBound 8)
    (hversion : version < wordBound 8)
    (hbytes : bytes = (s.header words version ++ rest).toArray) :
    Header.of bytes = s.headerOf words version := by
  have hwords : bytes.field Format.preambleWordsAt 1 = words :=
    Bytes.field_eq_of_prefix [] hbytes (by simp [header]) rfl hwords
  have hversion : bytes.field Format.versionAt 1 = version :=
    Bytes.field_eq_of_prefix (littleEndian 1 words) hbytes (by simp [header]) rfl hversion
  have hfamily : bytes.field Format.familyAt 1 = Format.family :=
    Bytes.field_eq_of_prefix (littleEndian 1 words ++ littleEndian 1 version) hbytes
      (by simp [header]) rfl (by decide)
  have hflags : bytes.field Format.flagsAt 1 = s.flags :=
    Bytes.field_eq_of_prefix
      (littleEndian 1 words ++ littleEndian 1 version ++ littleEndian 1 Format.family) hbytes
      (by simp [header]) rfl s.flags_lt
  have hk : bytes.field Format.kAt 2 = s.k :=
    Bytes.field_eq_of_prefix (littleEndian 1 words ++ littleEndian 1 version ++
      littleEndian 1 Format.family ++ littleEndian 1 s.flags) hbytes (by simp [header]) rfl
      (hs.parameters.k_le.trans_lt (by decide))
  have hm : bytes.field Format.mAt 1 = s.m :=
    Bytes.field_eq_of_prefix (littleEndian 1 words ++ littleEndian 1 version ++
      littleEndian 1 Format.family ++ littleEndian 1 s.flags ++ littleEndian 2 s.k) hbytes
      (by simp [header]) rfl (hs.parameters.le_greatestM.trans_lt (by decide))
  rw [Header.of, hwords, hversion, hfamily, hflags, hk, hm]
  rfl

/-- The shared preamble of an image of any layout passes its checks. -/
lemma read_header (hs : s.HasShape free populations) (hwords : words < wordBound 8)
    (hversion : version < wordBound 8)
    (hbytes : bytes = (s.header words version ++ rest).toArray) :
    Header.read bytes = .ok (s.headerOf words version) := by
  have hlength : Format.headerBytes ≤ bytes.size := by
    rw [hbytes, List.size_toArray, List.length_append, length_header]
    exact Nat.le_add_right _ _
  exact Header.read_eq_ok_iff.mpr
    ⟨hlength, header_of_header hs hwords hversion hbytes, rfl, hs.parameters⟩

end Header

/-- The fields behind the shared preamble pass their checks. -/
lemma HasShape.inRange {s : Sketch α} {free : ℕ} {populations : List ℕ}
    (hs : s.HasShape free populations) {h : Header} (hk : h.k = s.k) (hm : h.m = s.m) :
    (⟨s.n, s.minK, s.numLevels⟩ : Contents.Extension).InRange h :=
  ⟨hs.numLevels_eq ▸ hs.length_pos, hs.numLevels_eq ▸ hs.length_le, hm.trans_le hs.m_le_minK,
    hs.minK_le_k.trans_eq hk.symm⟩

/-! ### The longer layouts -/

/-- The bytes before the boundaries of an image of one of the two longer layouts. -/
def longPreamble (s : Sketch α) (version : ℕ) : List UInt8 :=
  s.header Format.fullPreamble version ++ littleEndian 8 s.n ++ s.levelBytes

/-- The boundaries begin where they have to. -/
lemma length_longPreamble (s : Sketch α) (version : ℕ) :
    (s.longPreamble version).length = Format.dataAt := by
  simp [longPreamble, levelBytes, Format.headerBytes, Format.dataAt]

variable [Item α]

/-- An image of one of the two longer layouts. -/
def longBytes (s : Sketch α) (version : ℕ) (offsets : List ℕ) (items : Array α) : List UInt8 :=
  s.header Format.fullPreamble version ++ s.body offsets items

/-- An image of one of the two longer layouts in segments. -/
lemma longBytes_eq (s : Sketch α) (version : ℕ) (offsets : List ℕ) (items : Array α) :
    s.longBytes version offsets items =
      s.longPreamble version ++ encodeNumbers offsetBytes offsets ++ s.extremeBytes ++
        items.toList.flatMap Item.encode := by
  simp [longBytes, longPreamble, body, levelBytes, extremeBytes]

section

variable {s : Sketch α} {version : ℕ} {offsets : List ℕ} {items : Array α} {bytes : Bytes}
  {tail : List UInt8}
  (hbytes : bytes = (s.longBytes version offsets items ++ tail).toArray)
include hbytes

/-- The bytes are as long as the image. -/
lemma size_of_longBytes :
    fullImageSize offsets.length items.size (Item.width α) ≤ bytes.size := by
  have hlength : (s.longBytes version offsets items).length =
      fullImageSize offsets.length items.size (Item.width α) :=
    s.length_header_append_body Format.fullPreamble version offsets items
  rw [hbytes, ← hlength, List.size_toArray, List.length_append]
  exact Nat.le_add_right _ _

/-- The fields that follow the shared preamble. -/
lemma extension_of_longBytes {free : ℕ} {populations : List ℕ}
    (hs : s.HasShape free populations) :
    Contents.Extension.of bytes = ⟨s.n, s.minK, s.numLevels⟩ := by
  have hn : bytes.field Format.nAt 8 = s.n := by
    have hlt : s.n < wordBound (8 * 8) := by
      rw [← hs.saturate_eq]
      exact (saturate_le _).trans_lt (by decide)
    exact Bytes.field_eq_of_prefix (s.header Format.fullPreamble version) hbytes
      (by simp [longBytes_eq, longPreamble]) (s.length_header _ _).symm hlt
  have hminK : bytes.field Format.minKAt 2 = s.minK :=
    Bytes.field_eq_of_prefix (s.header Format.fullPreamble version ++ littleEndian 8 s.n) hbytes
      (by simp [longBytes_eq, longPreamble, levelBytes])
      (by rw [List.length_append, length_header, length_littleEndian]; rfl)
      ((hs.minK_le_k.trans hs.parameters.k_le).trans_lt (by decide))
  have hnumLevels : bytes.field Format.numLevelsAt 1 = s.numLevels := by
    have hlt : s.numLevels < wordBound (8 * 1) := by
      rw [hs.numLevels_eq]
      exact hs.length_le.trans_lt (by decide)
    exact Bytes.field_eq_of_prefix
      (s.header Format.fullPreamble version ++ littleEndian 8 s.n ++ littleEndian 2 s.minK) hbytes
      (by simp [longBytes_eq, longPreamble, levelBytes])
      (by rw [List.length_append, List.length_append, length_header, length_littleEndian,
        length_littleEndian]; rfl) hlt
  rw [Contents.Extension.of, hn, hminK, hnumLevels]

/-- The boundaries, if they are words. -/
lemma offsets_of_longBytes (hoffsets : ∀ b ∈ offsets, b < wordBound 32) :
    bytes.offsets offsets.length Format.dataAt = offsets := by
  obtain ⟨post, hpost⟩ := Bytes.exists_eq_of_prefix (s.longPreamble version)
    (encodeNumbers offsetBytes offsets) hbytes (by simp [longBytes_eq])
  exact Bytes.offsets_eq hpost (s.length_longPreamble version).symm hoffsets

/-- The extremes; those of an empty stream are fillers. -/
lemma extremesOf_longBytes :
    extremesOf bytes (Format.dataAt + offsets.length * offsetBytes) =
      Extremes.orFiller s.extremes := by
  obtain ⟨post, hpost⟩ := Bytes.exists_eq_of_prefix
    (s.longPreamble version ++ encodeNumbers offsetBytes offsets)
    (Item.encode (Extremes.orFiller s.extremes).least ++
      Item.encode (Extremes.orFiller s.extremes).greatest) hbytes
    (by simp [longBytes_eq, extremeBytes])
  refine extremesOf_eq hpost ?_
  rw [List.length_append, length_longPreamble, length_encodeNumbers]

/-- The items. -/
lemma itemList_longBytes :
    itemList bytes items.size
      (Format.dataAt + offsets.length * offsetBytes + 2 * Item.width α) = items.toList := by
  obtain ⟨post, hpost⟩ := Bytes.exists_eq_of_prefix
    (s.longPreamble version ++ encodeNumbers offsetBytes offsets ++ s.extremeBytes)
    (items.toList.flatMap Item.encode) hbytes (by simp [longBytes_eq])
  rw [← Array.length_toList]
  refine itemList_eq hpost ?_
  rw [List.length_append, List.length_append, length_longPreamble, length_encodeNumbers,
    length_extremeBytes]

end

/-- The extremes as they are read: those of an empty stream are left out. -/
lemma HasShape.extremes_eq {s : Sketch α} {free : ℕ} {populations : List ℕ}
    (hs : s.HasShape free populations) :
    (if s.n = 0 then none else some (Extremes.orFiller s.extremes)) = s.extremes := by
  have hsome := hs.isSome_extremes
  rcases he : s.extremes with _ | e
  · rw [he] at hsome
    have hn : s.n = 0 := by simpa using hsome
    rw [if_pos hn]
  · rw [he] at hsome
    have hn : s.n ≠ 0 := by simpa [Nat.pos_iff_ne_zero] using hsome
    rw [if_neg hn]
    rfl

end Sketch

end QuantileSketch
