/-!
# Coins

Every compaction tosses a coin to choose which half of the items survives. A coin is any state from
which bits can be drawn one after the other.
-/
namespace QuantileSketch

/-- States from which bits can be drawn. -/
class Coin (γ : Type) where
  /-- The next bit and the state after it. -/
  toss : γ → Bool × γ

/-- A generator of 64 bits, each state made from the one before by three shifts. -/
structure Xorshift where
  state : UInt64
  deriving DecidableEq, Repr

namespace Xorshift

/-- The next state. -/
def step (x : UInt64) : UInt64 :=
  let x := x ^^^ (x <<< 13)
  let x := x ^^^ (x >>> 7)
  x ^^^ (x <<< 17)

/-- The state that takes the place of zero, which would stay zero for ever. -/
def fallback : UInt64 := 0x9e3779b97f4a7c15

/-- The generator that starts at a seed. -/
def ofSeed (seed : UInt64) : Xorshift :=
  ⟨if seed = 0 then fallback else seed⟩

/-- Each draw takes the lowest bit of the new state. -/
instance : Coin Xorshift where
  toss x := (step x.state % 2 == 1, ⟨step x.state⟩)

end Xorshift

end QuantileSketch
