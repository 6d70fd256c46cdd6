import QuantileSketch.Limits

/-!
# Rank error

The normalized rank error of a sketch falls with a power of its accuracy parameter. The
coefficients were fitted to measurements, one curve for queries with two ends (probability masses)
and one for queries with a single end (ranks, quantiles, cumulative distributions).
-/
namespace QuantileSketch

/-- An error curve `coefficient / k ^ exponent`. -/
structure ErrorCurve where
  coefficient : Float
  exponent : Float

/-- The curve of queries with two ends. -/
def ErrorCurve.mass : ErrorCurve := ⟨2.446, 0.9433⟩

/-- The curve of queries with a single end. -/
def ErrorCurve.rank : ErrorCurve := ⟨2.296, 0.9723⟩

/-- The curve for queries with two ends or with a single one. -/
def ErrorCurve.forQuery (twoEnded : Bool) : ErrorCurve :=
  if twoEnded then .mass else .rank

/-- How far from a whole number an accuracy parameter may be and still be rounded to it. -/
def roundingSlack : Float := 1e-6

/-- The smallest error for which an accuracy parameter is looked for. -/
def leastRankError : Float := 4.7634e-5

/-- The normalized rank error of a sketch with accuracy parameter `k`. -/
def rankError (k : Nat) (twoEnded : Bool) : Float :=
  let curve := ErrorCurve.forQuery twoEnded
  curve.coefficient / Float.pow (Float.ofNat k) curve.exponent

/-- The smallest accuracy parameter whose rank error is not above `epsilon`. -/
def accuracyFor (epsilon : Float) (twoEnded : Bool) : Nat :=
  let curve := ErrorCurve.forQuery twoEnded
  let error := if epsilon > leastRankError then epsilon else leastRankError
  let exact := Float.exp (Float.log (curve.coefficient / error) / curve.exponent)
  let nearest := exact.round
  let k := if (nearest - exact).abs < roundingSlack then nearest else exact.ceil
  if k < Float.ofNat leastM then leastM
  else if k > Float.ofNat greatestK then greatestK
  else k.toUInt64.toNat

end QuantileSketch
