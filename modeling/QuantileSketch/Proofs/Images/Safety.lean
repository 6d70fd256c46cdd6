import QuantileSketch.Item.Float
import QuantileSketch.Proofs.Images.Acceptance

/-!
# Opening any bytes

Bytes may come from anywhere, and boundaries and sizes in them are not to be trusted. Once they have
been validated nothing can go wrong any more: all items lie inside (`readData_eq_ok`), so that
opening them fails only where validation does, and it never aborts (`opening_safe`).

What is read lies in the image itself. So two strings of bytes that begin with the same image make
the same sketch, whatever follows; the lemmas that end in `congr` say this of each field.
-/

namespace QuantileSketch

open Failure

/-! ### Bytes that begin in the same way -/

namespace Bytes

variable {bytes bytes' : Bytes} {size pos width : ℕ}

/-- A window inside the common part. -/
lemma window_congr (h : bytes'.extract 0 size = bytes.extract 0 size) (hin : pos + width ≤ size) :
    bytes'.window pos width = bytes.window pos width := by
  have hwindow (b : Bytes) :
      b.window pos width = ((b.extract 0 size).extract pos (pos + width)).toList := by
    rw [window, Array.extract_extract, Nat.zero_add, Nat.zero_add, Nat.min_eq_left hin]
  rw [hwindow, hwindow, h]

/-- A field inside the common part. -/
lemma field_congr (h : bytes'.extract 0 size = bytes.extract 0 size) (hin : pos + width ≤ size) :
    bytes'.field pos width = bytes.field pos width := by
  rw [field, field, window_congr h hin]

/-- All fields below a limit inside the common part. -/
lemma fields_congr {limit : ℕ} (h : bytes'.extract 0 size = bytes.extract 0 size)
    (hlimit : limit ≤ size) :
    ∀ ⦃pos width : ℕ⦄, pos + width ≤ limit → bytes'.field pos width = bytes.field pos width := by
  intro pos width hin
  exact field_congr h (hin.trans hlimit)

/-- Boundaries inside the common part. -/
lemma offsets_congr {count : ℕ} (h : bytes'.extract 0 size = bytes.extract 0 size)
    (hin : pos + count * offsetBytes ≤ size) :
    bytes'.offsets count pos = bytes.offsets count pos := by
  induction count generalizing pos with
  | zero => rfl
  | succ count ih =>
    rw [Nat.succ_mul] at hin
    rw [offsets, offsets, field_congr h (by omega), ih (by omega)]

/-- The common part lies in both. -/
lemma le_size_of_extract_eq (h : bytes'.extract 0 size = bytes.extract 0 size)
    (hsize : size ≤ bytes.size) : size ≤ bytes'.size := by
  have hsizes := congrArg Array.size h
  rw [Array.size_extract, Array.size_extract] at hsizes
  omega

end Bytes

/-! ### Validation -/

namespace Format

variable {bytes bytes' : Bytes} {size itemSize : ℕ} {c : Contents}

/-- The shared preamble of bytes that begin in the same way. -/
lemma header_congr (h : bytes'.extract 0 size = bytes.extract 0 size) (hsize : 8 ≤ size) :
    Header.of bytes' = Header.of bytes := by
  have hfield := Bytes.fields_congr h hsize
  simp only [Header.of, preambleWordsAt, versionAt, familyAt, flagsAt, kAt, mAt]
  rw [hfield (by decide), hfield (by decide), hfield (by decide), hfield (by decide),
    hfield (by decide), hfield (by decide)]

/-- Bytes that begin in the same way as others that begin with the shared preamble. -/
lemma SharedPreamble.congr (hshared : SharedPreamble bytes)
    (h : bytes'.extract 0 size = bytes.extract 0 size) (hsize : 8 ≤ size)
    (hin : size ≤ bytes'.size) : SharedPreamble bytes' := by
  have hfield := Bytes.fields_congr h hsize
  refine ⟨hsize.trans hin, ?_, ?_, ?_⟩
  · rw [hfield (by decide)]
    exact hshared.family_eq
  · rw [hfield (by decide)]
    exact hshared.m_mem
  · rw [hfield (by decide), hfield (by decide)]
    exact hshared.m_le_k

/-- What the longer layouts ask for, of bytes that begin in the same way. -/
lemma LongPreamble.congr (hlong : LongPreamble bytes)
    (h : bytes'.extract 0 size = bytes.extract 0 size) (hsize : 20 ≤ size)
    (hin : size ≤ bytes'.size) : LongPreamble bytes' := by
  have hfield := Bytes.fields_congr h hsize
  refine ⟨?_, hsize.trans hin, ?_, ?_, ?_, ?_⟩
  · rw [hfield (by decide)]
    exact hlong.words_eq
  · rw [hfield (by decide)]
    exact hlong.numLevels_pos
  · rw [hfield (by decide)]
    exact hlong.numLevels_le
  · rw [hfield (by decide), hfield (by decide)]
    exact hlong.m_le_minK
  · rw [hfield (by decide), hfield (by decide)]
    exact hlong.minK_le_k

/-- The number of slots of bytes that begin in the same way. -/
lemma slots_congr (h : bytes'.extract 0 size = bytes.extract 0 size) (hsize : 20 ≤ size) :
    slots bytes' = slots bytes := by
  have hfield := Bytes.fields_congr h hsize
  rw [slots, slots, hfield (by decide), hfield (by decide), hfield (by decide)]

/-- Boundaries that go with the other fields of bytes that begin in the same way. -/
lemma LevelsFit.congr {levels : List ℕ} (hfit : LevelsFit bytes levels)
    (h : bytes'.extract 0 size = bytes.extract 0 size) (hsize : 20 ≤ size) :
    LevelsFit bytes' levels := by
  have hfield := Bytes.fields_congr h hsize
  refine ⟨hfit.monotone, ?_⟩
  rw [hfield (by decide), hfield (by decide)]
  exact hfit.weight_eq

/-- The shared preamble lies in an image of any layout. -/
lemma Describes.le_size (hc : Describes bytes itemSize c) : 8 ≤ c.size := by
  cases hc <;> dsimp only <;> omega

/-- What is described lies in the image. -/
lemma Describes.congr (hc : Describes bytes itemSize c)
    (h : bytes'.extract 0 size = bytes.extract 0 size) (hsize : c.size ≤ size)
    (hin : size ≤ bytes'.size) : Describes bytes' itemSize c := by
  cases hc with
  | empty hwords hversion hflag =>
    have hshort : 8 ≤ size := hsize
    have hfield := Bytes.fields_congr h.symm hshort
    rw [hfield (by decide)] at hwords hversion hflag ⊢
    exact .empty hwords hversion hflag
  | single hwords hversion hflag =>
    have hfield := Bytes.fields_congr h.symm ((Nat.le_add_right 8 itemSize).trans hsize)
    rw [hfield (by decide)] at hwords hversion hflag ⊢
    exact .single hwords hversion hflag
  | full hlong hversion hflag hlevels hfit =>
    have hoffsetsIn : 20 + bytes.field 18 1 * offsetBytes ≤ size := by
      refine le_trans ?_ hsize
      rw [Nat.mul_comm]
      exact (Nat.le_add_right _ _).trans (Nat.le_add_right _ _)
    have hlongIn : 20 ≤ size := (Nat.le_add_right _ _).trans hoffsetsIn
    have hfield := Bytes.fields_congr h.symm hlongIn
    rw [← Bytes.offsets_congr h hoffsetsIn, ← slots_congr h hlongIn, hfield (by decide)] at hlevels
    rw [← slots_congr h hlongIn, hfield (by decide : 8 + 8 ≤ 20), hfield (by decide : 16 + 2 ≤ 20),
      hfield (by decide : 18 + 1 ≤ 20)]
    rw [hfield (by decide)] at hversion hflag
    exact .full (hlong.congr h hlongIn hin) hversion hflag hlevels (hfit.congr h hlongIn)
  | updatable hlong hversion hlevels hlast hfit =>
    have hoffsetsIn : 20 + (bytes.field 18 1 + 1) * offsetBytes ≤ size := by
      refine le_trans ?_ hsize
      rw [Nat.mul_comm]
      exact (Nat.le_add_right _ _).trans (Nat.le_add_right _ _)
    have hlongIn : 20 ≤ size := (Nat.le_add_right _ _).trans hoffsetsIn
    have hfield := Bytes.fields_congr h.symm hlongIn
    rw [← Bytes.offsets_congr h hoffsetsIn, hfield (by decide)] at hlevels
    rw [← slots_congr h hlongIn] at hlast
    rw [← slots_congr h hlongIn, hfield (by decide : 8 + 8 ≤ 20), hfield (by decide : 16 + 2 ≤ 20),
      hfield (by decide : 18 + 1 ≤ 20)]
    rw [hfield (by decide)] at hversion
    exact .updatable (hlong.congr h hlongIn hin) hversion hlevels hlast (hfit.congr h hlongIn)

end Format

namespace ImageInfo

variable {bytes bytes' : Bytes} {itemSize : ℕ} {v : ImageInfo}

/-- Bytes that begin with the same image are validated in the same way. -/
theorem read_congr (hsize : IsItemWidth itemSize) (h : ImageInfo.read bytes itemSize = .ok v)
    (hbytes : bytes'.extract 0 v.size = bytes.extract 0 v.size) :
    ImageInfo.read bytes' itemSize = .ok v := by
  obtain ⟨hshared, hheader, hdescribes, hin⟩ := (read_eq_ok_iff_describes hsize).mp h
  have hin' : v.size ≤ bytes'.size := Bytes.le_size_of_extract_eq hbytes hin
  have hshort : 8 ≤ v.size := hdescribes.le_size
  refine (read_eq_ok_iff_describes hsize).mpr ⟨?_, ?_, hdescribes.congr hbytes le_rfl hin', hin'⟩
  · exact hshared.congr hbytes hshort hin'
  · rw [Format.header_congr hbytes hshort, hheader]

/-- The size of an image, told by its layout. -/
def layoutSize (v : ImageInfo) (itemSize : ℕ) : ℕ :=
  match v.layout with
  | .emptyCompact => Format.emptyBytes
  | .singleCompact => Format.singleDataAt + itemSize
  | .fullCompact => fullImageSize v.numLevels (v.levels.getLastD 0 - v.levels.headD 0) itemSize
  | .updatable => fullImageSize (v.numLevels + 1) (v.levels.getLastD 0) itemSize

/-- A valid image has the size of its layout, and all of it is there. -/
lemma layoutSize_le (hsize : IsItemWidth itemSize) (h : ImageInfo.read bytes itemSize = .ok v) :
    v.size = v.layoutSize itemSize ∧ v.size ≤ bytes.size := by
  obtain ⟨-, -, hdescribes, hin⟩ := (read_eq_ok_iff_describes hsize).mp h
  refine ⟨?_, hin⟩
  obtain ⟨header, contents⟩ := v
  change Format.Describes bytes itemSize contents at hdescribes
  change contents.size = _
  cases hdescribes with
  | empty => rfl
  | single => rfl
  | full _ _ _ hlevels _ =>
    have hlength := congrArg List.length hlevels
    rw [List.length_append, Bytes.length_offsets, List.length_singleton] at hlength
    have hlast := congrArg (List.getLastD · 0) hlevels
    rw [List.getLastD_concat] at hlast
    dsimp only [layoutSize, numLevels]
    rw [hlast, hlength, Nat.add_sub_cancel, Format.fullImageSize_eq]
  | updatable _ _ hlevels hlast _ =>
    have hlength := congrArg List.length hlevels
    rw [Bytes.length_offsets] at hlength
    dsimp only [layoutSize, numLevels]
    rw [hlast, hlength, Nat.add_sub_cancel, Format.fullImageSize_eq]

namespace HasShape

variable {free : ℕ} {populations : List ℕ}

/-- The last boundary of an image is the total capacity. -/
lemma totalItemCapacity_eq (h : v.HasShape free populations) :
    totalItemCapacity v.k v.m v.numLevels = .ok (v.levels.getLastD 0) := by
  rw [numLevels, h.levels_eq, length_boundaries, Nat.add_sub_cancel, getLastD_boundaries,
    h.room_eq]
  exact totalItemCapacity_eq_ok h.parameters h.length_le

/-- The sketch in an image has slots. -/
lemma one_le_capacity (h : v.HasShape free populations) : 1 ≤ v.levels.getLastD 0 := by
  obtain ⟨numLevels, hlength⟩ := Nat.exists_eq_add_one_of_ne_zero
    (Nat.one_le_iff_ne_zero.mp h.length_pos)
  have hm := h.parameters.leastM_le.trans (le_capacityAt v.k v.m numLevels)
  rw [h.levels_eq, getLastD_boundaries, h.room_eq, hlength, totalCapacity]
  exact (by decide : 1 ≤ leastM).trans (hm.trans (Nat.le_add_left _ _))

/-- No more slots are free than there are. -/
lemma free_le_capacity (h : v.HasShape free populations) :
    v.levels.headD 0 ≤ v.levels.getLastD 0 := by
  rw [h.levels_eq, headD_boundaries, getLastD_boundaries]
  exact Nat.le_add_right _ _

end HasShape

end ImageInfo

/-! ### The data of an image -/

namespace Sketch

variable {α : Type} [Item α]

/-- The items at a position inside the common part of two strings of bytes. -/
lemma itemList_congr {bytes bytes' : Bytes} {size pos count : ℕ}
    (h : bytes'.extract 0 size = bytes.extract 0 size) (hin : pos + count * Item.width α ≤ size) :
    (itemList bytes' count pos : List α) = itemList bytes count pos := by
  induction count generalizing pos with
  | zero => rfl
  | succ count ih =>
    rw [Nat.succ_mul] at hin
    rw [itemList, itemList, Bytes.window_congr h (by omega), ih (by omega)]

/-- The extremes at a position inside the common part of two strings of bytes. -/
lemma extremesOf_congr {bytes bytes' : Bytes} {size pos : ℕ}
    (h : bytes'.extract 0 size = bytes.extract 0 size) (hin : pos + 2 * Item.width α ≤ size) :
    (extremesOf bytes' pos : Extremes α) = extremesOf bytes pos := by
  rw [extremesOf, extremesOf, Bytes.window_congr h (by omega), Bytes.window_congr h (by omega)]

/-- The extremes and the slots that stand in an image that is all there. -/
def dataOf (v : ImageInfo) (bytes : Bytes) : Option (Extremes α) × Array α :=
  let capacity := v.levels.getLastD 0
  let free := v.levels.headD 0
  match v.layout with
  | .emptyCompact => (none, Array.replicate capacity Item.filler)
  | .singleCompact =>
    let x := Item.decode (bytes.window Format.singleDataAt (Item.width α))
    (some ⟨x, x⟩, (Array.replicate capacity Item.filler).setIfInBounds (capacity - 1) x)
  | .fullCompact =>
    let pos := Format.dataAt + v.numLevels * offsetBytes
    (if v.n = 0 then none else some (extremesOf bytes pos),
      Array.replicate free Item.filler ++
        (itemList bytes (capacity - free) (pos + 2 * Item.width α)).toArray)
  | .updatable =>
    let pos := Format.dataAt + (v.numLevels + 1) * offsetBytes
    (if v.n = 0 then none else some (extremesOf bytes pos),
      (itemList bytes capacity (pos + 2 * Item.width α)).toArray)

/-- Once an image has been validated, its extremes and its slots are read. -/
theorem readData_eq_ok {v : ImageInfo} {bytes : Bytes}
    (hv : ImageInfo.read bytes (Item.width α) = .ok v) :
    readData v bytes = .ok (dataOf v bytes : Option (Extremes α) × Array α) := by
  obtain ⟨hsize, hin⟩ := ImageInfo.layoutSize_le Item.isItemWidth hv
  obtain ⟨free, populations, hshape⟩ := ImageInfo.exists_shape hv
  rw [hsize, ImageInfo.layoutSize] at hin
  unfold readData dataOf
  dsimp only
  cases hlayout : v.layout with
  | emptyCompact => rfl
  | singleCompact =>
    rw [hlayout] at hin
    exact bind_eq_ok_iff.mpr ⟨_, liftRefusal_eq_ok_iff.mpr (readItem_eq_ok_iff.mpr ⟨hin, rfl⟩),
      bind_eq_ok_iff.mpr ⟨_, liftAbort_eq_ok_iff.mpr
        (subWord_eq_ok_iff.mpr ⟨hshape.one_le_capacity, rfl⟩), rfl⟩⟩
  | fullCompact =>
    rw [hlayout] at hin
    dsimp only at hin
    rw [fullImageSize] at hin
    have hfirst : Format.dataAt + v.numLevels * offsetBytes + 2 * Item.width α ≤ bytes.size :=
      (Nat.le_add_right _ _).trans hin
    have hextremes : readExtremes bytes _ = .ok (_ : Extremes α) := readExtremes_eq_ok hfirst
    have hitems := readItems_eq_ok (Array.replicate (v.levels.headD 0) (Item.filler : α)) hin
    exact bind_eq_ok_iff.mpr ⟨_, liftRefusal_eq_ok_iff.mpr hextremes, bind_eq_ok_iff.mpr
      ⟨_, liftAbort_eq_ok_iff.mpr (subWord_eq_ok_iff.mpr ⟨hshape.free_le_capacity, rfl⟩),
        bind_eq_ok_iff.mpr ⟨_, liftRefusal_eq_ok_iff.mpr hitems, rfl⟩⟩⟩
  | updatable =>
    rw [hlayout] at hin
    dsimp only at hin
    rw [fullImageSize] at hin
    have hfirst : Format.dataAt + (v.numLevels + 1) * offsetBytes + 2 * Item.width α ≤
        bytes.size := (Nat.le_add_right _ _).trans hin
    have hextremes : readExtremes bytes _ = .ok (_ : Extremes α) := readExtremes_eq_ok hfirst
    have hitems := readItems_eq_ok (#[] : Array α) hin
    rw [Array.empty_append] at hitems
    exact bind_eq_ok_iff.mpr ⟨_, liftRefusal_eq_ok_iff.mpr hextremes,
      bind_eq_ok_iff.mpr ⟨_, liftRefusal_eq_ok_iff.mpr hitems, rfl⟩⟩

/-- The data of an image lie in the image. -/
lemma dataOf_congr {v : ImageInfo} {bytes bytes' : Bytes}
    (hv : ImageInfo.read bytes (Item.width α) = .ok v)
    (h : bytes'.extract 0 v.size = bytes.extract 0 v.size) :
    (dataOf v bytes' : Option (Extremes α) × Array α) = dataOf v bytes := by
  obtain ⟨hsize, -⟩ := ImageInfo.layoutSize_le Item.isItemWidth hv
  rw [ImageInfo.layoutSize] at hsize
  unfold dataOf
  dsimp only
  cases hlayout : v.layout with
  | emptyCompact => rfl
  | singleCompact =>
    rw [hlayout] at hsize
    dsimp only
    rw [Bytes.window_congr h hsize.ge]
  | fullCompact =>
    rw [hlayout] at hsize
    dsimp only at hsize ⊢
    rw [fullImageSize] at hsize
    rw [extremesOf_congr h (by omega), itemList_congr h hsize.ge]
  | updatable =>
    rw [hlayout] at hsize
    dsimp only at hsize ⊢
    rw [fullImageSize] at hsize
    rw [extremesOf_congr h (by omega), itemList_congr h hsize.ge]

/-! ### Opening -/

/-- The sketch in an image that is all there. -/
def sketchOf (v : ImageInfo) (bytes : Bytes) : Sketch α :=
  ofData v (dataOf v bytes).1 (dataOf v bytes).2

variable {v : ImageInfo} {bytes bytes' : Bytes}

/-- Once an image has been validated, the sketch in it is made. -/
lemma ofImage_eq_ok (hv : ImageInfo.read bytes (Item.width α) = .ok v) :
    ofImage v bytes = .ok (sketchOf v bytes : Sketch α) := by
  obtain ⟨free, populations, hshape⟩ := ImageInfo.exists_shape hv
  exact ofImage_eq_ok_iff.mpr ⟨_, _, readData_eq_ok hv, hshape.totalItemCapacity_eq, rfl⟩

/-- Once an image has been validated, the sketch in it is opened for changes. -/
lemma read_eq_ok (hv : ImageInfo.read bytes (Item.width α) = .ok v) :
    read bytes = .ok (sketchOf v bytes : Sketch α) := by
  rw [read, hv]
  exact ofImage_eq_ok hv

/-- Once an image has been validated, the sketch in it is opened for reading. -/
lemma wrap_eq_ok (hv : ImageInfo.read bytes (Item.width α) = .ok v) :
    wrap bytes = .ok { (sketchOf v bytes : Sketch α) with readOnly := true } := by
  rw [wrap, read_eq_ok hv]
  rfl

/-- Once an updatable image has been validated, the sketch in it is opened for working there. -/
lemma wrapInRegion_eq_ok (hv : ImageInfo.read bytes (Item.width α) = .ok v)
    (hlayout : v.layout = .updatable) (server : RegionServer) :
    wrapInRegion bytes server =
      .ok { (sketchOf v bytes : Sketch α) with backing := some { region := bytes, server } } :=
  wrapInRegion_eq_ok_iff.mpr ⟨v, _, hv, hlayout, ofImage_eq_ok hv, rfl⟩

/-- The sketch lies in the image. -/
lemma sketchOf_congr (hv : ImageInfo.read bytes (Item.width α) = .ok v)
    (h : bytes'.extract 0 v.size = bytes.extract 0 v.size) :
    (sketchOf v bytes' : Sketch α) = sketchOf v bytes := by
  rw [sketchOf, sketchOf, dataOf_congr hv h]

/-- Opening any bytes never aborts, whatever they are opened for. -/
lemma neverAborts_opening (bytes : Bytes) (server : RegionServer) :
    NeverAborts (read bytes : Except Failure (Sketch α)) ∧
      NeverAborts (wrap bytes : Except Failure (Sketch α)) ∧
      NeverAborts (wrapInRegion bytes server : Except Failure (Sketch α)) := by
  have hvalidate := ImageInfo.neverAborts_read bytes (Item.isItemWidth (α := α))
  have hread : NeverAborts (read bytes : Except Failure (Sketch α)) := by
    apply hvalidate.bind
    intro v hv
    exact neverAborts_of_eq_ok (ofImage_eq_ok hv)
  refine ⟨hread, ?_, ?_⟩
  · apply hread.bind
    intro s _
    exact neverAborts_of_eq_ok rfl
  · apply hvalidate.bind
    intro v hv
    apply (neverAborts_liftRefusal _).bind
    intro _ _
    apply (neverAborts_of_eq_ok (ofImage_eq_ok hv)).bind
    intro s _
    exact neverAborts_of_eq_ok rfl

/-- Whatever the bytes are and however the server behaves, no way of opening them aborts. Opening
for changes and for reading succeed exactly if the bytes are valid, and opening for working in the
region exactly if they are valid and the image is updatable. After validation all extremes and items
can be read. The sketch that is opened lies in the image: bytes that begin with the same image make
the same sketch, up to the region that is handed over with them. -/
theorem opening_safe (bytes : Bytes) (server : RegionServer) :
    (NeverAborts (read bytes : Except Failure (Sketch α)) ∧
      NeverAborts (wrap bytes : Except Failure (Sketch α)) ∧
      NeverAborts (wrapInRegion bytes server : Except Failure (Sketch α))) ∧
    ((∃ s : Sketch α, read bytes = .ok s) ↔
      ∃ v, ImageInfo.read bytes (Item.width α) = .ok v) ∧
    ((∃ s : Sketch α, wrap bytes = .ok s) ↔
      ∃ v, ImageInfo.read bytes (Item.width α) = .ok v) ∧
    ((∃ s : Sketch α, wrapInRegion bytes server = .ok s) ↔
      ∃ v, ImageInfo.read bytes (Item.width α) = .ok v ∧ v.layout = .updatable) ∧
    ∀ v, ImageInfo.read bytes (Item.width α) = .ok v →
      (∃ data : Option (Extremes α) × Array α, readData v bytes = .ok data) ∧
        ∃ s : Sketch α, ∀ bytes' : Bytes, bytes'.extract 0 v.size = bytes.extract 0 v.size →
          read bytes' = .ok s ∧ wrap bytes' = .ok { s with readOnly := true } ∧
            (v.layout = .updatable → ∀ server', wrapInRegion bytes' server' =
              .ok { s with backing := some { region := bytes', server := server' } }) := by
  have hvalid {s : Sketch α} (h : read bytes = .ok s) :
      ∃ v, ImageInfo.read bytes (Item.width α) = .ok v := by
    obtain ⟨v, hv, -⟩ := bind_eq_ok_iff.mp h
    exact ⟨v, hv⟩
  refine ⟨neverAborts_opening bytes server, ?_, ?_, ?_, ?_⟩
  · constructor
    · rintro ⟨s, hs⟩
      exact hvalid hs
    · rintro ⟨v, hv⟩
      exact ⟨_, read_eq_ok hv⟩
  · constructor
    · rintro ⟨s, hs⟩
      obtain ⟨s', hs', -⟩ := bind_eq_ok_iff.mp hs
      exact hvalid hs'
    · rintro ⟨v, hv⟩
      exact ⟨_, wrap_eq_ok hv⟩
  · constructor
    · rintro ⟨s, hs⟩
      obtain ⟨v, s', hv, hlayout, -⟩ := wrapInRegion_eq_ok_iff.mp hs
      exact ⟨v, hv, hlayout⟩
    · rintro ⟨v, hv, hlayout⟩
      exact ⟨_, wrapInRegion_eq_ok hv hlayout server⟩
  · intro v hv
    refine ⟨⟨_, readData_eq_ok hv⟩, sketchOf v bytes, ?_⟩
    intro bytes' hbytes
    have hv' := ImageInfo.read_congr Item.isItemWidth hv hbytes
    rw [← sketchOf_congr hv hbytes]
    exact ⟨read_eq_ok hv', wrap_eq_ok hv', wrapInRegion_eq_ok hv'⟩

/-- An updatable image with two slots, one of them free, is opened for working in its region. Any
four bytes may follow, and any server may serve. -/
theorem opening_safe_of_two_slots :
    ∃ (image : Bytes) (s : Sketch Binary32), image.size = 44 ∧ s.n = 1 ∧ s.levels = [1, 2] ∧
      ∀ (tail : Bytes) (server : RegionServer), wrapInRegion (image ++ tail) server =
        .ok { s with backing := some { region := image ++ tail, server } } := by
  let image : Bytes := #[5, 3, 15, 0, 2, 0, 2, 0, 1, 0, 0, 0, 0, 0, 0, 0, 2, 0, 1, 0,
    1, 0, 0, 0, 2, 0, 0, 0, 5, 0, 0, 0, 5, 0, 0, 0, 0, 0, 0, 0, 5, 0, 0, 0]
  have hinfo : (ImageInfo.read image (Item.width Binary32)).toOption.map
      (fun v => (v.layout, v.size)) = some (.updatable, 44) := by decide +kernel
  have hsketch : (read image : Except Failure (Sketch Binary32)).toOption.map
      (fun s => (s.n, s.levels)) = some (1, [1, 2]) := by decide +kernel
  obtain ⟨v, hv, hinfo⟩ := Option.map_eq_some_iff.mp hinfo
  obtain ⟨hlayout, hsize⟩ := Prod.mk.inj hinfo
  obtain ⟨-, -, -, -, hopened⟩ :=
    opening_safe (α := Binary32) image RegionServer.exact
  obtain ⟨-, s, hs⟩ := hopened v (toOption_eq_some_iff.mp hv)
  have hwhole := (hs image rfl).1
  rw [hwhole] at hsketch
  obtain ⟨hn, hlevels⟩ := Prod.mk.inj (Option.some.inj hsketch)
  refine ⟨image, s, rfl, hn, hlevels, ?_⟩
  intro tail server
  have hsame : (image ++ tail).extract 0 v.size = image.extract 0 v.size := by
    rw [hsize]
    simp [image]
  exact (hs (image ++ tail) hsame).2.2 hlayout server

end Sketch

end QuantileSketch
