/-!
# Events

What the library reports about its work while it is at it. An event has a severity, a message and
named numbers.
-/
namespace QuantileSketch

/-- The severities of events. -/
inductive Severity where
  | debug
  | trace
  deriving DecidableEq, Repr

/-- The name of a severity. -/
def Severity.name : Severity → String
  | .debug => "DEBUG"
  | .trace => "TRACE"

/-- What is reported. -/
inductive Event where
  /-- A level of a sketch whose levels are all full, and the totals up to it. -/
  | levelStructure (level items cumItems n cumN : Nat)
  /-- The totals and sizes of a sketch whose levels are all full. -/
  | growthScheme (numLevels maxItems maxN compactBytes updatableBytes : Nat)
  /-- A larger region is asked for. -/
  | regionRequest (current required : Nat)
  /-- A sketch has grown by a level. -/
  | newTopLevel (k numLevels deltaCap totalCap : Nat)
  /-- A level is about to be compacted. -/
  | compacting (level rawPop popAbove : Nat)
  deriving DecidableEq, Repr

namespace Event

/-- How important an event is. -/
def severity : Event → Severity
  | .levelStructure .. | .compacting .. => .trace
  | .growthScheme .. | .regionRequest .. | .newTopLevel .. => .debug

/-- The message of an event. -/
def message : Event → String
  | .levelStructure .. => "sketch structure"
  | .growthScheme .. => "growth scheme"
  | .regionRequest .. => "requesting larger sketch memory"
  | .newTopLevel .. => "added empty top level"
  | .compacting .. => "compacting level"

/-- The named numbers of an event. -/
def fields : Event → List (String × Nat)
  | .levelStructure level items cumItems n cumN =>
    [("level", level), ("items", items), ("cum_items", cumItems), ("n", n), ("cum_n", cumN)]
  | .growthScheme numLevels maxItems maxN compactBytes updatableBytes =>
    [("num_levels", numLevels), ("max_items", maxItems), ("max_n", maxN),
      ("compact_bytes", compactBytes), ("updatable_bytes", updatableBytes)]
  | .regionRequest current required => [("current", current), ("required", required)]
  | .newTopLevel k numLevels deltaCap totalCap =>
    [("k", k), ("num_levels", numLevels), ("delta_cap", deltaCap), ("total_cap", totalCap)]
  | .compacting level rawPop popAbove =>
    [("level", level), ("raw_pop", rawPop), ("pop_above", popAbove)]

end Event

end QuantileSketch
