import QuantileSketch.Item.Float
import QuantileSketch.Proofs.Images.CompactRoundTrip

/-!
# Canonical images

Reading an image passes over some of its bytes: two reserved ones, the flags without a meaning, and
the extremes of an empty stream. It also accepts the flag of an empty sketch next to any length, and
full compact images of streams that have a shorter form. An image without any of this is canonical
(`ImageInfo.IsCanonical`).

What is read from a canonical image is written back byte by byte, in the form of its layout
(`Sketch.image_of_canonical`). Every part is a window of the bytes again, the numbers
(`Bytes.littleEndian_field`), the boundaries, the extremes and the items, and the windows stand side
by side (`Bytes.window_append`).
-/

namespace QuantileSketch

/-! ### Writing back what was read -/

namespace Bytes

variable {bytes : Bytes} {pos width : ℕ}

/-- A number that is written back takes the bytes that it was read from. -/
lemma littleEndian_field (h : pos + width ≤ bytes.size) :
    littleEndian width (bytes.field pos width) = bytes.window pos width := by
  have hbytes := littleEndian_ofLittleEndian (bytes.window pos width)
  rw [length_window h] at hbytes
  exact hbytes

/-- A reserved byte that is not used. -/
lemma window_eq_zero (h : pos + 1 ≤ bytes.size) (hzero : bytes.field pos 1 = 0) :
    bytes.window pos 1 = [0] := by
  rw [← littleEndian_field h, hzero]
  rfl

/-- Boundaries that are written back take the bytes that they were read from. -/
lemma encodeNumbers_offsets {count : ℕ} (h : pos + count * offsetBytes ≤ bytes.size) :
    encodeNumbers offsetBytes (bytes.offsets count pos) =
      bytes.window pos (count * offsetBytes) := by
  induction count generalizing pos with
  | zero => simp [offsets, encodeNumbers, window]
  | succ count ih =>
    rw [Nat.succ_mul] at h
    have hfirst : littleEndian offsetBytes (bytes.field pos offsetBytes) =
        bytes.window pos offsetBytes := littleEndian_field (by omega)
    have hsplit : encodeNumbers offsetBytes (bytes.offsets (count + 1) pos) =
        littleEndian offsetBytes (bytes.field pos offsetBytes) ++
          encodeNumbers offsetBytes (bytes.offsets count (pos + offsetBytes)) := List.flatMap_cons
    rw [hsplit, hfirst, ih (by omega), window_append rfl, Nat.succ_mul, Nat.add_comm offsetBytes]

end Bytes

namespace Sketch

variable {α : Type} [Item α] {bytes : Bytes} {pos : ℕ}

/-- An item that is written back takes the bytes that it was read from. -/
lemma encode_window (h : pos + Item.width α ≤ bytes.size) :
    Item.encode (Item.decode (bytes.window pos (Item.width α)) : α) =
      bytes.window pos (Item.width α) :=
  Item.encode_decode _ (Bytes.length_window h)

/-- Extremes that are written back take the bytes that they were read from. -/
lemma encode_extremesOf (h : pos + 2 * Item.width α ≤ bytes.size) :
    Item.encode (extremesOf bytes pos : Extremes α).least ++
        Item.encode (extremesOf bytes pos : Extremes α).greatest =
      bytes.window pos (2 * Item.width α) := by
  rw [extremesOf, encode_window (by omega), encode_window (by omega), Bytes.window_append rfl,
    Nat.two_mul]

/-- Items that are written back take the bytes that they were read from. -/
lemma flatMap_encode_itemList {count : ℕ} (h : pos + count * Item.width α ≤ bytes.size) :
    (itemList bytes count pos : List α).flatMap Item.encode =
      bytes.window pos (count * Item.width α) := by
  induction count generalizing pos with
  | zero => simp [itemList, Bytes.window]
  | succ count ih =>
    rw [Nat.succ_mul] at h
    rw [itemList, List.flatMap_cons, encode_window (by omega), ih (by omega),
      Bytes.window_append rfl, Nat.succ_mul, Nat.add_comm (Item.width α)]

end Sketch

/-! ### Canonical images -/

/-- An image in which everything counts. -/
structure ImageInfo.IsCanonical (α : Type) [Item α] (v : ImageInfo) (bytes : Bytes) : Prop where
  reserved_eq : bytes.field 7 1 = 0
  /-- The longer layouts have another reserved byte. -/
  long_reserved_eq : v.layout = .fullCompact ∨ v.layout = .updatable → bytes.field 19 1 = 0
  /-- Only the flags of an empty sketch and of a sorted level 0 are set. -/
  flags_lt : v.flags < 4
  isEmpty_iff : v.isEmpty = true ↔ v.n = 0
  /-- Shorter streams have a layout of their own. -/
  two_le_n : v.layout = .fullCompact → 2 ≤ v.n
  /-- An empty stream has fillers in place of its extremes. -/
  extremes_eq : v.layout = .updatable → v.n = 0 →
    (Sketch.extremesOf bytes (20 + 4 * (v.numLevels + 1)) : Extremes α) =
      ⟨Item.filler, Item.filler⟩

namespace Sketch

variable {α : Type}

/-- The flags of a canonical image are those that the sketch in it is written with. -/
lemma flags_eq {s : Sketch α} {h : Header} (hlt : h.flags < 4)
    (hempty : h.isEmpty = true ↔ s.n = 0) (hsorted : s.levelZeroSorted = h.levelZeroSorted) :
    s.flags = h.flags := by
  have hempty' : s.isEmpty = h.isEmpty := Bool.eq_iff_iff.mpr (beq_iff_eq.trans hempty.symm)
  rw [flags, hempty', hsorted, Header.isEmpty, Header.levelZeroSorted, Format.emptyFlag,
    Format.sortedFlag]
  generalize h.flags = flags at hlt
  interval_cases flags <;> rfl

variable {s : Sketch α} {bytes : Bytes} {words version : ℕ}

/-- The shared preamble that is written back is the one that was read, if its reserved byte is not
used. -/
lemma header_eq_window (hheader : s.headerOf words version = Header.of bytes)
    (hlength : 8 ≤ bytes.size) (hreserved : bytes.field 7 1 = 0) :
    s.header words version = bytes.window 0 8 := by
  obtain ⟨hwords, hversion, hfamily, hflags, hk, hm⟩ := Header.mk.inj hheader
  have hfield {pos width : ℕ} (h : pos + width ≤ 8) :
      littleEndian width (bytes.field pos width) = bytes.window pos width :=
    Bytes.littleEndian_field (h.trans hlength)
  rw [header, hwords, hversion, hfamily, hflags, hk, hm, hfield (by decide), hfield (by decide),
    hfield (by decide), hfield (by decide), hfield (by decide), hfield (by decide),
    ← Bytes.window_eq_zero hlength hreserved, Bytes.window_append (by decide),
    Bytes.window_append (by decide), Bytes.window_append (by decide),
    Bytes.window_append (by decide), Bytes.window_append (by decide),
    Bytes.window_append (by decide)]
  rfl

variable [Item α] {offsets : List ℕ} {items : Array α} {count retained : ℕ}

/-- An image of one of the longer layouts that is written back is the one that was read, if its
reserved bytes are not used. -/
lemma longBytes_eq_window (hheader : s.headerOf Format.fullPreamble version = Header.of bytes)
    (hextension : ⟨s.n, s.minK, s.numLevels⟩ = Contents.Extension.of bytes)
    (hoffsets : offsets = bytes.offsets count 20)
    (hextremes : Extremes.orFiller s.extremes = extremesOf bytes (20 + count * offsetBytes))
    (hitems : items =
      (itemList bytes retained (20 + count * offsetBytes + 2 * Item.width α)).toArray)
    (hlength : fullImageSize count retained (Item.width α) ≤ bytes.size)
    (hreserved : bytes.field 7 1 = 0) (hreserved' : bytes.field 19 1 = 0) :
    s.longBytes version offsets items =
      bytes.window 0 (fullImageSize count retained (Item.width α)) := by
  obtain ⟨hn, hminK, hnumLevels⟩ := Contents.Extension.mk.inj hextension
  rw [fullImageSize, Format.dataAt] at hlength
  have hfield {pos width : ℕ} (h : pos + width ≤ 20) :
      littleEndian width (bytes.field pos width) = bytes.window pos width :=
    Bytes.littleEndian_field (by omega)
  have hpreamble : s.longPreamble version = bytes.window 0 20 := by
    rw [longPreamble, levelBytes, header_eq_window hheader (by omega) hreserved, hn, hminK,
      hnumLevels, hfield (by decide), hfield (by decide), hfield (by decide),
      ← Bytes.window_eq_zero (by omega) hreserved', Bytes.window_append (by decide),
      Bytes.window_append (by decide), Bytes.window_append (by decide),
      Bytes.window_append (by decide)]
  rw [longBytes_eq, hpreamble, hoffsets, Bytes.encodeNumbers_offsets (by omega), extremeBytes,
    hextremes, encode_extremesOf (by omega), hitems, flatMap_encode_itemList (by omega),
    Bytes.window_append rfl, Bytes.window_append (by omega), Bytes.window_append (by omega)]
  rfl

/-! ### Writing back canonical images -/

/-- A single item image that is written back is the one that was read, if its reserved byte is not
used. -/
lemma HasShape.compactBytes_eq_window_of_single {free k : ℕ} {populations : List ℕ}
    (hs : s.HasShape free populations) (hn : s.n = 1) (hk : 0 < k) (hlevels : s.levels = [k - 1, k])
    (hitems : s.items = (Array.replicate k Item.filler).setIfInBounds (k - 1)
      (Item.decode (bytes.window 8 (Item.width α))))
    (hheader :
      s.headerOf Format.shortPreamble Format.singleVersion = Header.of bytes)
    (hlength : 8 + Item.width α ≤ bytes.size) (hreserved : bytes.field 7 1 = 0) :
    s.compactBytes = bytes.window 0 (8 + Item.width α) := by
  obtain ⟨x, rest, hretained, himage⟩ := hs.compactBytes_of_single hn
  rw [retained_single hk _ s hlevels hitems] at hretained
  obtain ⟨rfl, -⟩ := List.cons.inj hretained
  rw [himage, header_eq_window hheader ((Nat.le_add_right _ _).trans hlength) hreserved,
    encode_window hlength, Bytes.window_append rfl]

/-- A full compact image that is written back is the one that was read, if its reserved bytes are
not used. -/
lemma HasShape.compactBytes_eq_window_of_several {free : ℕ} {populations : List ℕ}
    (hs : s.HasShape free populations) (hn : 2 ≤ s.n)
    (hoffsets : s.levels.dropLast = bytes.offsets s.numLevels 20)
    (hitems : s.items = Array.replicate s.free Item.filler ++
      (itemList bytes s.numRetained
        (20 + s.numLevels * offsetBytes + 2 * Item.width α)).toArray)
    (hheader : s.headerOf Format.fullPreamble Format.compactVersion = Header.of bytes)
    (hextension : ⟨s.n, s.minK, s.numLevels⟩ = Contents.Extension.of bytes)
    (hextremes : Extremes.orFiller s.extremes =
      extremesOf bytes (20 + s.numLevels * offsetBytes))
    (hlength : fullImageSize s.numLevels s.numRetained (Item.width α) ≤ bytes.size)
    (hreserved : bytes.field 7 1 = 0) (hreserved' : bytes.field 19 1 = 0) :
    s.compactBytes = bytes.window 0 (fullImageSize s.numLevels s.numRetained (Item.width α)) := by
  have hcapacity : s.capacity = s.free + s.numRetained := by
    rw [hs.numRetained_eq, hs.free_eq, hs.capacity_eq]
  have hretained := retained_of_fillers (by rw [length_itemList, hcapacity]) hitems
  rw [compactBytes_of_several hn]
  exact longBytes_eq_window hheader hextension hoffsets hextremes hretained hlength hreserved
    hreserved'

/-- The extremes that are written for those that were read. -/
lemma orFiller_of_ne_zero {n : ℕ} {e : Extremes α} (h : n = 0 → e = ⟨Item.filler, Item.filler⟩) :
    Extremes.orFiller (if n = 0 then none else some e) = e := by
  split
  · rename_i hn
    exact (h hn).symm
  · rfl

variable {v : ImageInfo}

/-- The shared preamble of the sketch in a canonical image. -/
lemma headerOf_sketchOf (hshared : Format.SharedPreamble bytes)
    (hheader : v.toHeader = Header.of bytes) (hc : v.IsCanonical α bytes) :
    (sketchOf v bytes : Sketch α).headerOf (bytes.field 0 1) (bytes.field 1 1) =
      Header.of bytes := by
  have hflags : (sketchOf v bytes : Sketch α).flags = v.flags :=
    flags_eq hc.flags_lt hc.isEmpty_iff rfl
  have hfamily : Format.family = bytes.field Format.familyAt 1 := hshared.family_eq.symm
  rw [headerOf, hflags, hfamily]
  change Header.mk _ _ _ v.toHeader.flags v.toHeader.k v.toHeader.m = _
  rw [hheader]
  rfl

/-- The sketch in a canonical image is written back byte by byte. -/
theorem image_sketchOf (hv : ImageInfo.read bytes (Item.width α) = .ok v)
    (hc : v.IsCanonical α bytes) :
    (sketchOf v bytes : Sketch α).image v.isUpdatable = bytes.extract 0 v.size := by
  obtain ⟨hshared, hheader, hdescribes, hin⟩ :=
    (ImageInfo.read_eq_ok_iff_describes Item.isItemWidth).mp hv
  have hheaderOf := headerOf_sketchOf (α := α) hshared hheader hc
  have hlength := hshared.length_le
  obtain ⟨hsize, -⟩ := ImageInfo.layoutSize_le Item.isItemWidth hv
  suffices hbytes : (sketchOf v bytes : Sketch α).image v.isUpdatable =
      (bytes.window 0 v.size).toArray by
    rw [hbytes, Bytes.window, Nat.zero_add, Array.toArray_toList]
  obtain ⟨free, populations, hshape⟩ := ImageInfo.exists_shape hv
  have hs : (sketchOf v bytes : Sketch α).HasShape free populations :=
    ofImage_shape hshape (ofImage_eq_ok hv)
  have hk : 0 < bytes.field 4 2 := by
    have hm := hshared.m_le_k
    have hmem := hshared.m_mem
    simp only [List.mem_cons, List.not_mem_nil, or_false] at hmem
    omega
  obtain ⟨header, contents⟩ := v
  cases hdescribes with
  | empty hwords hversion _ =>
    rw [hwords, hversion] at hheaderOf
    refine congrArg List.toArray ?_
    rw [compactBytes_of_empty rfl]
    exact header_eq_window hheaderOf hlength hc.reserved_eq
  | single hwords hversion _ =>
    rw [hwords, hversion] at hheaderOf
    exact congrArg List.toArray (hs.compactBytes_eq_window_of_single rfl hk rfl rfl hheaderOf hin
      hc.reserved_eq)
  | @full levels hlong hversion _ hlevels _ =>
    rw [hlong.words_eq, hversion] at hheaderOf
    have hnumLevels : levels.length - 1 = bytes.field 18 1 := by
      rw [hlevels, List.length_append, Bytes.length_offsets, List.length_singleton,
        Nat.add_sub_cancel]
    have hoffsets : levels.dropLast = bytes.offsets (levels.length - 1) 20 := by
      rw [hnumLevels, hlevels, List.dropLast_concat]
    have hn : 2 ≤ bytes.field 8 8 := hc.two_le_n rfl
    have hextremes := orFiller_of_ne_zero (n := bytes.field 8 8)
      (e := (extremesOf bytes (20 + (levels.length - 1) * offsetBytes) : Extremes α))
      fun hzero => absurd hzero (by omega)
    have himage := hs.compactBytes_eq_window_of_several hn hoffsets rfl hheaderOf
      (congrArg (Contents.Extension.mk _ _) hnumLevels) hextremes (hsize.symm.trans_le hin)
      hc.reserved_eq (hc.long_reserved_eq (.inl rfl))
    exact congrArg List.toArray (himage.trans (congrArg (bytes.window 0) hsize.symm))
  | @updatable levels hlong hversion hlevels _ _ =>
    rw [hlong.words_eq, hversion] at hheaderOf
    have hnumLevels : levels.length - 1 = bytes.field 18 1 := by
      rw [hlevels, Bytes.length_offsets, Nat.add_sub_cancel]
    have hoffsets : levels = bytes.offsets (levels.length - 1 + 1) 20 := by
      rw [hnumLevels]
      exact hlevels
    have hextremes := orFiller_of_ne_zero (n := bytes.field 8 8)
      (e := (extremesOf bytes (20 + (levels.length - 1 + 1) * offsetBytes) : Extremes α))
      fun hzero => by
        rw [Nat.mul_comm]
        exact hc.extremes_eq rfl hzero
    have himage := longBytes_eq_window hheaderOf (congrArg (Contents.Extension.mk _ _) hnumLevels)
      hoffsets hextremes rfl (hsize.symm.trans_le hin) hc.reserved_eq
      (hc.long_reserved_eq (.inr rfl))
    exact congrArg List.toArray (himage.trans (congrArg (bytes.window 0) hsize.symm))

/-- A canonical image of any layout is opened, and the sketch in it is written back byte by byte, in
the compact or in the updatable form as the layout says. So two canonical images of one layout that
hold the same sketch are the same, whatever follows them. -/
theorem image_of_canonical (hv : ImageInfo.read bytes (Item.width α) = .ok v)
    (hc : v.IsCanonical α bytes) :
    ∃ s : Sketch α, read bytes = .ok s ∧ s.image v.isUpdatable = bytes.extract 0 v.size ∧
      ∀ (bytes' : Bytes) (v' : ImageInfo), ImageInfo.read bytes' (Item.width α) = .ok v' →
        v'.IsCanonical α bytes' → v'.layout = v.layout → read bytes' = .ok s →
          bytes'.extract 0 v'.size = bytes.extract 0 v.size := by
  refine ⟨sketchOf v bytes, read_eq_ok hv, image_sketchOf hv hc, ?_⟩
  intro bytes' v' hv' hc' hlayout hread
  have hsame : (sketchOf v' bytes' : Sketch α) = sketchOf v bytes :=
    Except.ok.inj ((read_eq_ok hv').symm.trans hread)
  have hform : v'.isUpdatable = v.isUpdatable := by
    rw [ImageInfo.isUpdatable, hlayout, ImageInfo.isUpdatable]
  rw [← image_sketchOf hv hc, ← image_sketchOf hv' hc', hsame, hform]

/-- A full compact image of three items in two levels. Level 0 is said to be sorted, and its item is
no number. One byte follows the image. -/
theorem image_of_canonical_with_nan :
    ∃ (bytes : Bytes) (v : ImageInfo) (s : Sketch Binary32), bytes.size = 45 ∧
      ImageInfo.read bytes 4 = .ok v ∧ v.IsCanonical Binary32 bytes ∧ read bytes = .ok s ∧
        s.levelZeroSorted = true ∧ s.items.toList.any Item.isNaN = true ∧
        s.compactImage = bytes.extract 0 44 := by
  let bytes : Bytes := #[5, 1, 15, 2, 2, 0, 2, 0, 3, 0, 0, 0, 0, 0, 0, 0, 2, 0, 2, 0, 2, 0, 0, 0,
    3, 0, 0, 0, 0, 0, 128, 63, 0, 0, 0, 64, 1, 2, 192, 127, 0, 0, 0, 64, 255]
  have hinfo : (ImageInfo.read bytes (Item.width Binary32)).toOption.map
      (fun v => (v.layout, v.n, v.size, v.flags)) = some (.fullCompact, 3, 44, 2) := by
    decide +kernel
  have hsketch : (read bytes : Except Failure (Sketch Binary32)).toOption.map
      (fun s => (s.levelZeroSorted, s.items.toList.any Item.isNaN)) = some (true, true) := by
    decide +kernel
  obtain ⟨v, hv, hinfo⟩ := Option.map_eq_some_iff.mp hinfo
  simp only [Prod.mk.injEq] at hinfo
  obtain ⟨hlayout, hn, hsize, hflags⟩ := hinfo
  rw [toOption_eq_some_iff] at hv
  have hc : v.IsCanonical Binary32 bytes := by
    refine ⟨by decide +kernel, fun _ => by decide +kernel, ?_, ?_, ?_, ?_⟩
    · rw [hflags]
      decide
    · rw [Header.isEmpty, hflags, hn]
      decide
    · intro _
      rw [hn]
      decide
    · simp [hlayout]
  obtain ⟨s, hs, himage, -⟩ := image_of_canonical hv hc
  rw [hs] at hsketch
  obtain ⟨hsorted, hnan⟩ := Prod.mk.inj (Option.some.inj hsketch)
  rw [ImageInfo.isUpdatable, hlayout, hsize] at himage
  exact ⟨bytes, v, s, rfl, hv, hc, hs, hsorted, hnan, himage⟩

end Sketch

end QuantileSketch
