/-!
# Limits of the parameters

A sketch has an accuracy parameter `k`, the width of its top level, and a least width `m` of all
its levels.
-/
namespace QuantileSketch

/-- The accuracy parameter of a sketch for which none is chosen. -/
def defaultK : Nat := 200

/-- The least width of levels for which none is chosen. -/
def defaultM : Nat := 8

/-- The smallest least width of levels. -/
def leastM : Nat := 2

/-- The largest least width of levels. -/
def greatestM : Nat := 8

/-- The smallest accuracy parameter of a sketch with the default least width. -/
def leastK : Nat := defaultM

/-- The largest accuracy parameter. -/
def greatestK : Nat := 65535

/-- The largest number of levels. -/
def maxLevels : Nat := 61

end QuantileSketch
