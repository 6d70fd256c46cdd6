import QuantileSketch.Item.Integer
import QuantileSketch.Proofs.DataIndependence

/-!
# The generator of bits

The state of the generator is a word of 64 bits. A step adds a shift of the word to the word three
times, where bits are added without a carry. The shift drops bits, but the sum does not lose any:
two words with the same sum differ by a word that is its own shift, and only zero is, because
shifting again and again drops all bits in the end (`IsShift.injective_xor`). So a step never brings
two states together, and it leads to zero from zero only.

A compaction takes one step. So a generator that begins at another state than zero never comes to
zero, and two generators that begin differently still differ after the same number of compactions
(`Session.generator_never_degenerates`).
-/

namespace QuantileSketch

/-! ### Words and their shifts -/

/-- A way to shift words by any number of bits. Shifts one after the other make a longer one, the
shift of a sum is the sum of the shifts, and a shift by all bits leaves nothing. -/
structure IsShift {width : ℕ} (shift : BitVec width → ℕ → BitVec width) : Prop where
  zero : ∀ x, shift x 0 = x
  add : ∀ x m n, shift x (m + n) = shift (shift x m) n
  xor : ∀ x y n, shift (x ^^^ y) n = shift x n ^^^ shift y n
  drop : ∀ x n, width ≤ n → shift x n = 0

/-- Shifts to the left. -/
lemma isShift_shiftLeft (width : ℕ) : IsShift fun (x : BitVec width) n => x <<< n :=
  ⟨BitVec.shiftLeft_zero, BitVec.shiftLeft_add, BitVec.shiftLeft_xor_distrib,
    fun _ _ => BitVec.shiftLeft_eq_zero⟩

/-- Shifts to the right. -/
lemma isShift_shiftRight (width : ℕ) : IsShift fun (x : BitVec width) n => x >>> n :=
  ⟨BitVec.ushiftRight_zero, BitVec.shiftRight_add, BitVec.ushiftRight_xor_distrib,
    fun _ _ => BitVec.ushiftRight_eq_zero⟩

namespace IsShift

variable {width count : ℕ} {shift : BitVec width → ℕ → BitVec width}

/-- No word but zero is its own shift. -/
lemma eq_zero_of_fixed (h : IsShift shift) (hcount : 0 < count) {x : BitVec width}
    (hx : shift x count = x) : x = 0 := by
  have hrepeated (n : ℕ) : shift x (n * count) = x := by
    induction n with
    | zero => rw [Nat.zero_mul, h.zero]
    | succ n ih => rw [Nat.succ_mul, h.add, ih, hx]
  rw [← hrepeated width]
  exact h.drop x _ (Nat.le_mul_of_pos_right width hcount)

/-- Adding its shift to a word is injective. -/
theorem injective_xor (h : IsShift shift) (hcount : 0 < count) :
    Function.Injective fun x => x ^^^ shift x count := by
  intro x y hxy
  have hzero : (x ^^^ y) ^^^ shift (x ^^^ y) count = 0 := by
    calc (x ^^^ y) ^^^ shift (x ^^^ y) count
        = (x ^^^ shift x count) ^^^ (y ^^^ shift y count) := by
          rw [h.xor]
          ac_rfl
      _ = 0 := BitVec.xor_eq_zero_iff.mpr hxy
  have hfixed := BitVec.xor_eq_zero_iff.mp hzero
  exact BitVec.xor_eq_zero_iff.mp (h.eq_zero_of_fixed hcount hfixed.symm)

end IsShift

/-! ### The generator -/

namespace Xorshift

/-- A step of the generator, told by the bits of the state. -/
lemma toBitVec_step (x : UInt64) :
    (step x).toBitVec =
      let y := x.toBitVec ^^^ x.toBitVec <<< 13
      let z := y ^^^ y >>> 7
      z ^^^ z <<< 17 := rfl

/-- A step never brings two states together. -/
theorem step_injective : Function.Injective step := by
  intro x y h
  have hbits := congrArg UInt64.toBitVec h
  rw [toBitVec_step, toBitVec_step] at hbits
  -- the three sums are undone one after the other, the last one first
  have hsecond := (isShift_shiftLeft 64).injective_xor (by decide : 0 < 17) hbits
  have hfirst := (isShift_shiftRight 64).injective_xor (by decide : 0 < 7) hsecond
  exact UInt64.toBitVec_inj.mp ((isShift_shiftLeft 64).injective_xor (by decide : 0 < 13) hfirst)

/-- A step leads to zero from zero only. -/
theorem step_eq_zero_iff {x : UInt64} : step x = 0 ↔ x = 0 := by
  have hzero : step 0 = 0 := rfl
  constructor
  · intro h
    exact step_injective (h.trans hzero.symm)
  · rintro rfl
    exact hzero

/-- No seed makes the generator begin at zero. -/
lemma ofSeed_ne_zero (seed : UInt64) : (ofSeed seed).state ≠ 0 := by
  unfold ofSeed
  split
  · decide
  · assumption

/-- The state after some tosses. -/
lemma state_after (tosses : ℕ) (coin : Xorshift) :
    (Coin.after tosses coin).state = step^[tosses] coin.state := by
  induction tosses with
  | zero => rfl
  | succ tosses ih =>
    rw [Coin.after, Function.iterate_succ_apply', Function.iterate_succ_apply', ← ih]
    rfl

/-- Tossing as often from two states never brings them together. -/
theorem after_injective (tosses : ℕ) :
    Function.Injective (Coin.after tosses : Xorshift → Xorshift) := by
  rintro ⟨x⟩ ⟨y⟩ h
  have hstate := congrArg state h
  rw [state_after, state_after] at hstate
  exact congrArg Xorshift.mk (step_injective.iterate tosses hstate)

/-- Tossing from a state that is not zero never leads to zero. -/
theorem after_ne_zero (tosses : ℕ) {coin : Xorshift} (h : coin.state ≠ 0) :
    (Coin.after tosses coin).state ≠ 0 := by
  induction tosses with
  | zero => exact h
  | succ tosses ih =>
    rw [state_after] at ih ⊢
    rw [Function.iterate_succ_apply']
    exact step_eq_zero_iff.not.mpr ih

end Xorshift

namespace Session

/-- A step of the generator never brings two states together and leads to zero from zero only, and
no generator begins at zero. Therefore two generators that begin differently differ after any number
of tosses, and the generator of a session that does not begin at zero is never zero, in any run of
any sketch and after any number of compactions, each of which takes one step. -/
theorem generator_never_degenerates :
    Function.Injective Xorshift.step ∧ (∀ x, Xorshift.step x = 0 ↔ x = 0) ∧
      (∀ seed, (Xorshift.ofSeed seed).state ≠ 0) ∧
      (∀ tosses (coin coin' : Xorshift), coin ≠ coin' →
        Coin.after tosses coin ≠ Coin.after tosses coin') ∧
      ∀ {α : Type} [Item α] {s : Sketch α} {coin : Xorshift} {taken : List (Command α)}
        {r : Session Xorshift α}, s.Opened → (begin s coin).Run taken r →
        r.coin.state = Xorshift.step^[r.compactions.length] coin.state ∧
          (coin.state ≠ 0 → r.coin.state ≠ 0) := by
  refine ⟨Xorshift.step_injective, fun _ => Xorshift.step_eq_zero_iff, Xorshift.ofSeed_ne_zero,
    fun tosses _ _ => (Xorshift.after_injective tosses).ne, ?_⟩
  intro α _ s coin taken r hs hrun
  have hcoin := hrun.coin_eq hs.wellFormed
  refine ⟨?_, ?_⟩
  · rw [hcoin, Xorshift.state_after]
  · intro hstart
    rw [hcoin]
    exact Xorshift.after_ne_zero _ hstart

/-- Three items in two slots, with the generator that the seed zero makes. The one compaction takes
one step of it. -/
theorem generator_of_three_items :
    ∃ r : Session Xorshift Int32,
      (begin (Sketch.empty 2 2) (Xorshift.ofSeed 0)).Run [.update 5, .update 7, .update 6] r ∧
      r.compactions = [0] ∧ r.coin.state = Xorshift.step Xorshift.fallback ∧
      r.coin.state ≠ 0 := by
  have hcompactions : (performAll [.update 5, .update 7, .update 6]
      (begin (Sketch.empty 2 2 : Sketch Int32) (Xorshift.ofSeed 0))).map compactions =
        some [0] := by decide +kernel
  obtain ⟨r, hr, hcompactions⟩ := Option.map_eq_some_iff.mp hcompactions
  have hmade : Sketch.withM 2 2 = .ok (Sketch.empty 2 2 : Sketch Int32) :=
    Sketch.withM_eq_ok_iff.mpr ⟨by decide, rfl⟩
  have hrun := run_of_performAll hr
  obtain ⟨-, -, hseed, -, hruns⟩ := generator_never_degenerates
  obtain ⟨hstate, hzero⟩ := hruns (.constructed (.withM hmade)) hrun
  rw [hcompactions] at hstate
  exact ⟨r, hrun, hcompactions, hstate, hzero (hseed 0)⟩

end Session

end QuantileSketch
