import QuantileSketch.Proofs.Progress
import QuantileSketch.Proofs.Refusals
import QuantileSketch.Proofs.SameShape

/-!
# The same commands are done

Whether a command is done or refused depends on the shape of the sketch, on whether it may change,
and on whether room for growth can be had. So if two sketches have the same shape, and one of them
is never denied room, this one refuses nothing that the other one does
(`exists_refused_of_sameShape`, `exists_done_of_sameShape`). What the sketches hold does not matter
as long as it is numbers.
-/

namespace QuantileSketch

namespace Session

variable {γ α : Type} [Coin γ] [Item α] {h r r' : Session γ α} {free : ℕ} {populations : List ℕ}
  {c : Command α}

/-- What a session refuses that is denied no room is refused by every session of the same shape. -/
lemma exists_refused_of_sameShape (hshape : h.sketch.SameShape r.sketch)
    (hreadOnly : h.sketch.readOnly = r.sketch.readOnly)
    (hroom : h.sketch.RequestFails → h.sketch.numLevels = maxLevels)
    (hh : h.sketch.HasShape free populations) (hr : r.sketch.HasShape free populations)
    (hrefused : ∃ error h', h.perform c = .refused error h') :
    ∃ error r', r.perform c = .refused error r' := by
  have htop (h' : h.sketch.numLevels = maxLevels ∨ h.sketch.RequestFails) :
      r.sketch.numLevels = maxLevels := by
    rw [← hshape.numLevels_eq]
    exact h'.elim id hroom
  cases c with
  | update x =>
    refine (update_eq_refused_iff x hr).mpr ?_
    rcases (update_eq_refused_iff x hh).mp hrefused with hno | ⟨hnumber, hmust, hlimit⟩
    · exact .inl (hreadOnly ▸ hno)
    · exact .inr ⟨hnumber, hshape.mustGrow_iff.mp hmust, .inl (htop hlimit)⟩
  | addEmptyTopLevel =>
    refine (addEmptyTopLevel_eq_refused_iff hr).mpr ?_
    rcases (addEmptyTopLevel_eq_refused_iff hh).mp hrefused with hno | hfree | hlimit
    · exact .inl (hreadOnly ▸ hno)
    · exact .inr (.inl (hshape.free_eq ▸ hfree))
    · exact .inr (.inr (.inl (htop hlimit)))

/-- What is done in some session is done in every session of the same shape that is denied no
room. -/
theorem exists_done_of_sameShape (hshape : h.sketch.SameShape r.sketch)
    (hreadOnly : h.sketch.readOnly = r.sketch.readOnly)
    (hroom : h.sketch.RequestFails → h.sketch.numLevels = maxLevels)
    (hh : h.sketch.HasShape free populations) (hr : r.sketch.HasShape free populations)
    (hfits : h.sketch.Fits) (hreserve : h.sketch.CanReserve) (hnumbers : h.sketch.HoldsNumbers)
    (hdone : r.perform c = .done r') : ∃ h', h.perform c = .done h' := by
  have hcompletes : (h.perform c).Completes := by
    cases c with
    | addEmptyTopLevel => exact addEmptyTopLevel_completes hh hfits hreserve
    | update x =>
      have hn : Item.isNaN x = false → h.sketch.n < maxWord64 := by
        intro hnumber
        rw [hshape.n_eq]
        exact (update_n ⟨free, populations, hr⟩ hnumber hdone).2
      exact update_completes x hh hfits hn hnumbers fun _ => hreserve
  rcases hcompletes with hh' | hrefused
  · exact hh'
  · obtain ⟨error, r'', hr'⟩ :=
      exists_refused_of_sameShape hshape hreadOnly hroom hh hr hrefused
    rw [hdone] at hr'
    cases hr'

end Session

end QuantileSketch
