import QuantileSketch.Error
import QuantileSketch.Image.Layout
import QuantileSketch.Limits

/-!
# What can go wrong

The reasons for which the library itself refuses a call, and the error that each is reported as.
All wording stands in `Cause.error`.
-/
namespace QuantileSketch

/-- The operations that change a sketch. -/
inductive Operation where
  | update
  | addEmptyTopLevel
  deriving DecidableEq, Repr

/-- The name of an operation. -/
def Operation.name : Operation → String
  | .update => "update"
  | .addEmptyTopLevel => "add_empty_top_level"

/-- The reasons for which a call is refused. -/
inductive Cause where
  /-- The least width of a level is odd or out of range. -/
  | invalidM (m : Nat)
  /-- The top level would be narrower than the least width, or too wide. -/
  | invalidK (k m : Nat)
  /-- No sketch takes a stream of this length. -/
  | streamTooLong (k m n : Nat)
  /-- The sketch has not seen exactly one item. -/
  | notSingle (n : Nat)
  /-- There are free slots, so there is no need for another level. -/
  | notFull (free : Nat)
  /-- There is no level above the highest possible one. -/
  | tooManyLevels
  /-- The sketch may only be read. -/
  | readOnly (operation : Operation)
  /-- The image belongs to another family. -/
  | wrongFamily (id : Nat)
  /-- A field of the preamble does not have the value that the others ask for. -/
  | preamble (fault : PreambleFault) (actual : Nat)
  /-- An image, or a part of it, is cut off. -/
  | cutOff (part : ImagePart) (length required : Nat)
  /-- An item of the type with this name is cut off. -/
  | itemCutOff (typeName : String)
  /-- The number of levels is out of range. -/
  | levelCount (numLevels : Nat)
  /-- The smallest accuracy parameter of the merged sketches is out of range. -/
  | mergedK (m k minK : Nat)
  /-- A level ends before it begins. -/
  | decreasingLevels
  /-- The levels do not end at the total capacity. -/
  | wrongCapacity (expected actual : Nat)
  /-- The levels do not represent a stream of the stated length. -/
  | wrongWeight (n weight : Nat)
  /-- Only an updatable image can be kept current in its region. -/
  | notUpdatable (layout : Layout)
  /-- A region or buffer is too short. -/
  | shortBuffer (required actual : Nat)
  /-- A server of regions does not hand out this much in reserve. -/
  | overAllocation (required : Nat)
  /-- A server of regions refused a request. -/
  | requestFailed (required : Nat) (reason : Error)

/-- The value that a faulty preamble field ought to have. -/
def PreambleFault.expectation : PreambleFault → String
  | .emptyBitAndPreInts => "PreInts: 2"
  | .emptyBitAndSerVer => "SerVer: 1"
  | .singleBitAndSerVer => "SerVer: 2"
  | .singleBitAndPreInts => "PreInts: 2"
  | .invalidPreInts => "PreInts must be: 5"
  | .emptyBitAndSingleFormat => "Flags: empty bit and single item format are exclusive"

/-- The error that a cause is reported as. -/
def Cause.error : Cause → Error
  | .invalidM m =>
    { kind := .invalidArgument
      message := s!"M must be >= {leastM}, <= {greatestM} and even: {m}"
      context := [("m", toString m)] }
  | .invalidK k m =>
    { kind := .invalidArgument
      message := s!"K must be >= {m} and <= {greatestK}: {k}"
      context := [("k", toString k)] }
  | .streamTooLong k m n =>
    { kind := .invalidArgument
      message := s!"stream length {n} exceeds the capacity of {maxLevels} levels"
      context := [("k", toString k), ("m", toString m)] }
  | .notSingle n =>
    { kind := .invalidArgument
      message := s!"sketch does not have exactly one item, n = {n}" }
  | .notFull free =>
    { kind := .invalidArgument
      message := s!"sketch is not completely full, levels[0] = {free}" }
  | .tooManyLevels =>
    { kind := .invalidArgument
      message := s!"sketch already has the maximum of {maxLevels} levels" }
  | .readOnly operation =>
    { kind := .readOnly
      message := "sketch is read only"
      context := [("operation", operation.name)] }
  | .wrongFamily id =>
    { kind := .invalidFamily
      message := s!"FamilyID Field must be: 15 (KLL), NOT: {id}"
      context := [("expected", "15"), ("actual", toString id)] }
  | .preamble fault actual =>
    { kind := .malformedPreamble fault
      message := s!"{fault.name} -> {fault.expectation}, NOT: {actual}"
      context := [("actual", toString actual)] }
  | .cutOff part length required =>
    { kind := .insufficientData
      message := s!"insufficient data while reading {part.name}"
      context := [("length", toString length), ("required", toString required)] }
  | .itemCutOff typeName =>
    { kind := .insufficientData
      message := s!"insufficient data while reading {typeName}" }
  | .levelCount numLevels =>
    { kind := .malformedDeserializeData
      message := s!"num_levels must be in [1, {maxLevels}], got {numLevels}" }
  | .mergedK m k minK =>
    { kind := .malformedDeserializeData
      message := s!"min_k must be in [{m}, {k}], got {minK}" }
  | .decreasingLevels =>
    { kind := .malformedDeserializeData
      message := "levels array must be non-decreasing" }
  | .wrongCapacity expected actual =>
    { kind := .malformedDeserializeData
      message := s!"levels last offset must equal capacity: expected {expected}, got {actual}" }
  | .wrongWeight n weight =>
    { kind := .malformedDeserializeData
      message := s!"n must equal the total weight of the levels: n = {n}, weight = {weight}"
      context := [("n", toString n), ("weight", toString weight)] }
  | .notUpdatable layout =>
    { kind := .malformedDeserializeData
      message := s!"writable wrap requires the updatable layout, got {layout.name}" }
  | .shortBuffer required actual =>
    { kind := .bufferTooSmall
      message := s!"buffer must hold at least {required} bytes, got {actual}"
      context := [("required", toString required), ("actual", toString actual)] }
  | .overAllocation required =>
    { kind := .reallocationFailed
      message := s!"cannot over-allocate {required} bytes" }
  | .requestFailed required reason =>
    { kind := .reallocationFailed
      message := s!"memory request for {required} bytes failed"
      context := [("required", toString required)]
      causes := reason.toReport :: reason.causes }

/-- Refuses a call unless a condition holds. -/
def Cause.unless (cause : Cause) (p : Prop) [Decidable p] : Except Error Unit :=
  if p then .ok () else .error cause.error

theorem Cause.unless_eq_ok_iff {cause : Cause} {p : Prop} [Decidable p] {u : Unit} :
    cause.unless p = .ok u ↔ p := by
  by_cases h : p <;> simp [Cause.unless, h]

end QuantileSketch
