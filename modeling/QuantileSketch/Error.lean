import QuantileSketch.Abort

/-!
# Errors

An error is a report (its kind, a message and named details) together with the reports of its
causes, nearest cause first. Two causes cannot stand side by side: an error that has a cause
accepts no second one.
-/
namespace QuantileSketch

/-- Which fields of an image's preamble contradict each other. -/
inductive PreambleFault where
  /-- An empty image has the wrong number of preamble words. -/
  | emptyBitAndPreInts
  /-- An empty or full image has the wrong serial version. -/
  | emptyBitAndSerVer
  /-- A single item image has the wrong serial version. -/
  | singleBitAndSerVer
  /-- A single item image has the wrong number of preamble words. -/
  | singleBitAndPreInts
  /-- A full or updatable image has the wrong number of preamble words. -/
  | invalidPreInts
  /-- An image claims to be empty and to hold a single item. -/
  | emptyBitAndSingleFormat
  deriving DecidableEq, Repr

/-- The name under which a fault is reported. -/
def PreambleFault.name : PreambleFault → String
  | .emptyBitAndPreInts => "EmptyBitAndPreInts"
  | .emptyBitAndSerVer => "EmptyBitAndSerVer"
  | .singleBitAndSerVer => "SingleBitAndSerVer"
  | .singleBitAndPreInts => "SingleBitAndPreInts"
  | .invalidPreInts => "InvalidPreInts"
  | .emptyBitAndSingleFormat => "EmptyBitAndSingleFormat"

/-- The kinds of errors. -/
inductive ErrorKind where
  /-- A parameter is out of range, or an operation does not fit the sketch. -/
  | invalidArgument
  /-- The image belongs to another family of sketches. -/
  | invalidFamily
  /-- Fields of the preamble contradict each other. -/
  | malformedPreamble (fault : PreambleFault)
  /-- The body of an image contradicts its preamble. -/
  | malformedDeserializeData
  /-- An image is shorter than its preamble says. -/
  | insufficientData
  /-- A region or buffer is too short for what has to be written into it. -/
  | bufferTooSmall
  /-- No larger region could be had. -/
  | reallocationFailed
  /-- The sketch may only be read. -/
  | readOnly
  deriving DecidableEq, Repr

/-- The name of a kind, without the fault of a preamble. -/
def ErrorKind.name : ErrorKind → String
  | .invalidArgument => "InvalidArgument"
  | .invalidFamily => "InvalidFamily"
  | .malformedPreamble _ => "MalformedPreamble"
  | .malformedDeserializeData => "MalformedDeserializeData"
  | .insufficientData => "InsufficientData"
  | .bufferTooSmall => "BufferTooSmall"
  | .reallocationFailed => "ReallocationFailed"
  | .readOnly => "ReadOnly"

/-- The name of a kind, with the fault of a preamble in parentheses. -/
def ErrorKind.fullName : ErrorKind → String
  | .malformedPreamble fault => s!"MalformedPreamble({fault.name})"
  | kind => kind.name

/-- What is said about one failure. -/
structure Report where
  kind : ErrorKind
  message : String
  /-- Named details, in the order in which they were added. -/
  context : List (String × String) := []
  deriving DecidableEq, Repr

/-- A report and the reports of its causes, nearest cause first. -/
structure Error extends Report where
  causes : List Report := []
  deriving DecidableEq, Repr

namespace Error

/-- An error without details or causes. -/
def ofMessage (kind : ErrorKind) (message : String) : Error :=
  { kind, message }

/-- Adds a named detail after those already there. -/
def withContext (e : Error) (key value : String) : Error :=
  { e with context := e.context ++ [(key, value)] }

/-- Gives an error its cause. An error has at most one. -/
def withCause (e cause : Error) : Except Abort Error :=
  if e.causes.isEmpty then .ok { e with causes := cause.toReport :: cause.causes }
  else .error (.check "the source error has been set")

/-- The first detail recorded under a name. -/
def detail? (e : Error) (key : String) : Option String :=
  (e.context.find? fun detail => detail.1 == key).map (·.2)

theorem kind_ofMessage (kind : ErrorKind) (message : String) :
    (ofMessage kind message).kind = kind := rfl

theorem kind_withContext (e : Error) (key value : String) :
    (e.withContext key value).kind = e.kind := rfl

end Error

/-! ### The two ways to fail -/

/-- A call fails either by refusing its input or by aborting. -/
inductive Failure where
  | refused (error : Error)
  | aborted (abort : Abort)
  deriving DecidableEq, Repr

/-- Refusals as failures. -/
def Failure.ofRefusal {α : Type} : Except Error α → Except Failure α
  | .ok a => .ok a
  | .error e => .error (.refused e)

/-- Aborts as failures. -/
def Failure.ofAbort {α : Type} : Except Abort α → Except Failure α
  | .ok a => .ok a
  | .error e => .error (.aborted e)

instance : MonadLift (Except Error) (Except Failure) := ⟨Failure.ofRefusal⟩

instance : MonadLift (Except Abort) (Except Failure) := ⟨Failure.ofAbort⟩

theorem liftRefusal_eq_ok_iff {α : Type} {x : Except Error α} {a : α} :
    (liftM x : Except Failure α) = .ok a ↔ x = .ok a := by
  cases x <;> simp [liftM, monadLift, MonadLift.monadLift, Failure.ofRefusal]

theorem liftAbort_eq_ok_iff {α : Type} {x : Except Abort α} {a : α} :
    (liftM x : Except Failure α) = .ok a ↔ x = .ok a := by
  cases x <;> simp [liftM, monadLift, MonadLift.monadLift, Failure.ofAbort]

end QuantileSketch
