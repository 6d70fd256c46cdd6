import QuantileSketch.Proofs.Room

/-!
# Servers and requests

Writing to the region leaves the rest of the backing alone, the server and the count of requests
(`Backing.IgnoresRegion`). So no command ever changes the server (`Run.server_eq`), and feeding an
item makes a request only if the sketch grows and its region has no room for the larger image
(`update_requests`).
-/

namespace QuantileSketch

namespace Backing

/-- A part of a backing that does not depend on the region. -/
def IgnoresRegion {β : Type} (f : Backing → β) : Prop :=
  ∀ (region : Bytes) (b : Backing), f (b.setRegion region) = f b

/-- The server does not depend on the region. -/
lemma ignoresRegion_server : IgnoresRegion Backing.server := fun _ _ => rfl

/-- The count of requests does not depend on the region. -/
lemma ignoresRegion_requests : IgnoresRegion Backing.requests := fun _ _ => rfl

end Backing

/-- The server stays the same whatever region is reserved. -/
lemma Reserved.server_eq {required : ℕ} {backing backing' : Option Backing}
    (h : Reserved required backing backing') :
    backing'.map Backing.server = backing.map Backing.server := by
  cases h <;> rfl

/-- No request is made if the region is long enough. -/
lemma Reserved.requests_eq {required : ℕ} {backing backing' : Option Backing}
    (h : Reserved required backing backing')
    (hroom : ∀ b, backing = some b → required ≤ b.region.size) :
    backing'.map Backing.requests = backing.map Backing.requests := by
  cases h with
  | none => rfl
  | kept _ => rfl
  | replaced _ _ hshort _ => exact absurd (hroom _ rfl) (not_le.mpr hshort)

open Backing

/-- A refused command does not change the server. -/
lemma Session.Unchanged.server_eq {γ α : Type} {r r' : Session γ α} (h : r.Unchanged r') :
    r'.sketch.backing.map Backing.server = r.sketch.backing.map Backing.server := by
  rcases h.sketch_eq with hsketch | ⟨b, hb, hsketch⟩
  · rw [hsketch]
  · rw [hsketch, hb]
    rfl

variable {α β : Type} [Item α] {f : Backing → β}

namespace Sketch

variable {s s' : Sketch α}

/-- Writing the whole image touches the region only. -/
lemma sync_backing (hf : IgnoresRegion f) (h : s.sync = .ok s') :
    s'.backing.map f = s.backing.map f := by
  obtain ⟨-, rfl⟩ | ⟨b, hb, -, -, rfl⟩ := sync_eq_ok_iff.mp h
  · rfl
  · rw [hb, Option.map_some, Option.map_some, hf]

/-- Writing an insertion touches the region only. -/
lemma writeInsertion_backing {x : α} (hf : IgnoresRegion f) (h : s.writeInsertion x = .ok s') :
    s'.backing.map f = s.backing.map f := by
  obtain ⟨-, rfl⟩ | ⟨b, hb, -, -, rfl⟩ := writeInsertion_eq_ok_iff.mp h
  · rfl
  · rw [hb, Option.map_some, Option.map_some, hf]

/-- An insertion does not touch the backing. -/
lemma insert_backing {x : α} (h : s.insert x = .ok s') : s'.backing = s.backing := by
  obtain ⟨-, -, -, -, rfl⟩ := insert_eq_ok_iff.mp h
  rfl

end Sketch

namespace Session

variable {γ : Type} {r₀ r r' : Session γ α} {free : ℕ} {populations : List ℕ}

/-- After growth the backing is the one that was reserved, up to the bytes in its region. -/
lemma grow_backing (hf : IgnoresRegion f) (hs : r.sketch.HasShape free populations)
    (h : r.grow = .done r') :
    ∃ backing, Reserved r.sketch.enlargedSize r.sketch.backing backing ∧
      r'.sketch.backing.map f = backing.map f := by
  have hbelow := (grow_shape hs h).1
  obtain ⟨backing, hreserved, hsync⟩ := grow_eq_done_growth hs h
  have hsize : (r.sketch.grown r.growth).imageSize true = r.sketch.enlargedSize := by
    rw [growth, hs.numLevels_eq]
    exact hs.imageSize_grown hbelow
  rw [Sketch.imageSize_true] at hsize
  rw [hsize] at hreserved
  exact ⟨backing, hreserved, Sketch.sync_backing hf hsync⟩

/-- Growth keeps the server. -/
lemma grow_server (hs : r.sketch.HasShape free populations) (h : r.grow = .done r') :
    r'.sketch.backing.map Backing.server = r.sketch.backing.map Backing.server := by
  obtain ⟨backing, hreserved, hbacking⟩ := grow_backing ignoresRegion_server hs h
  exact hbacking.trans hreserved.server_eq

/-- Growth makes no request if there is room. -/
lemma grow_requests (hs : r.sketch.HasShape free populations)
    (hroom : ∀ b, r.sketch.backing = some b → r.sketch.enlargedSize ≤ b.region.size)
    (h : r.grow = .done r') :
    r'.sketch.backing.map Backing.requests = r.sketch.backing.map Backing.requests := by
  obtain ⟨backing, hreserved, hbacking⟩ := grow_backing ignoresRegion_requests hs h
  exact hbacking.trans (hreserved.requests_eq hroom)

variable [Coin γ]

/-- What growth keeps of the backing, freeing slots keeps. The sketch grows only if it has to. -/
lemma compress_backing (hfree : r.sketch.free = 0)
    (hgrow : r.sketch.MustGrow → ∀ grown, r.grow = .done grown →
      grown.sketch.backing.map f = r.sketch.backing.map f)
    (h : r.compress = .done r') : r'.sketch.backing.map f = r.sketch.backing.map f := by
  obtain ⟨level, grown, hlevel, hgrown, hcompact⟩ := compress_eq_done_iff.mp h
  obtain ⟨span, -, hcompacted, -, -⟩ := compact_eq_done hcompact
  obtain ⟨levels, items, hsketch⟩ := Sketch.compact_eq hcompacted
  have hkept : r'.sketch.backing = grown.sketch.backing := by rw [hsketch]
  rw [hkept]
  split at hgrown
  · rename_i htop
    refine hgrow ⟨hfree, ?_⟩ grown hgrown
    rw [hlevel, ← htop, Nat.add_sub_cancel]
  · rw [hgrown]

/-- What growth and writing keep of the backing, feeding an item keeps. -/
lemma update_backing {x : α} (hf : IgnoresRegion f)
    (hgrow : r.sketch.MustGrow → ∀ grown, r.grow = .done grown →
      grown.sketch.backing.map f = r.sketch.backing.map f)
    (h : r.update x = .done r') : r'.sketch.backing.map f = r.sketch.backing.map f := by
  rcases (update_eq_done h).2 with ⟨-, rfl⟩ | ⟨-, between, s, hbetween, hinsert, hwrite, -, -⟩
  · rfl
  have hcompress : between.sketch.backing.map f = r.sketch.backing.map f := by
    split at hbetween
    · rename_i hfree
      exact compress_backing hfree hgrow hbetween
    · rw [hbetween]
  rw [← hcompress, ← Sketch.insert_backing hinsert]
  split at hwrite
  · exact Sketch.sync_backing hf hwrite
  · exact Sketch.writeInsertion_backing hf hwrite

/-- Feeding an item makes no request if there is room for growth, should it come to that. -/
theorem update_requests {x : α} (hs : r.sketch.HasShape free populations)
    (hroom : r.sketch.MustGrow → ∀ b, r.sketch.backing = some b →
      r.sketch.enlargedSize ≤ b.region.size)
    (h : r.update x = .done r') :
    r'.sketch.backing.map Backing.requests = r.sketch.backing.map Backing.requests := by
  refine update_backing ignoresRegion_requests ?_ h
  intro hmust grown hgrow
  exact grow_requests hs (hroom hmust) hgrow

/-- No command changes the server. -/
lemma perform_server {c : Command α} (hs : r.sketch.HasShape free populations)
    (h : r.perform c = .done r') :
    r'.sketch.backing.map Backing.server = r.sketch.backing.map Backing.server := by
  cases c with
  | update x => exact update_backing ignoresRegion_server (fun _ _ hgrow => grow_server hs hgrow) h
  | addEmptyTopLevel => exact grow_server hs (addEmptyTopLevel_eq_done_iff.mp h).2

/-- A run keeps the server. -/
theorem Run.server_eq {taken : List (Command α)} (h : r₀.Run taken r)
    (hwf : r₀.sketch.WellFormed) :
    r.sketch.backing.map Backing.server = r₀.sketch.backing.map Backing.server := by
  induction h with
  | start => rfl
  | done run step ih =>
    obtain ⟨free, populations, hs⟩ := run.wellFormed hwf
    exact (perform_server hs step).trans ih
  | refused run step ih => exact (perform_eq_refused step).server_eq.trans ih

/-- What holds of the server in the beginning holds of it after a run. -/
lemma Run.forall_server {p : RegionServer → Prop} {taken : List (Command α)} (h : r₀.Run taken r)
    (hwf : r₀.sketch.WellFormed) (hp : ∀ b, r₀.sketch.backing = some b → p b.server) :
    ∀ b, r.sketch.backing = some b → p b.server := by
  intro b hb
  have hsame := h.server_eq hwf
  rw [hb, Option.map_some] at hsame
  obtain ⟨b₀, hb₀, hserver⟩ := Option.map_eq_some_iff.mp hsame.symm
  rw [← hserver]
  exact hp b₀ hb₀

end Session

end QuantileSketch
