import QuantileSketch.Coin
import QuantileSketch.Event
import QuantileSketch.Sketch.Basic

/-!
# Sessions

Changing a sketch needs a coin, and it is reported by events. A session puts the three together. A
step of a session is done, or refused, or it aborts. After a refusal the session goes on with the
state that comes with it. After an abort there is no state left, only the record of what happened
before.
-/
namespace QuantileSketch

/-- A sketch at work. -/
structure Session (γ α : Type) where
  sketch : Sketch α
  /-- Where the next bit comes from. -/
  coin : γ
  /-- The events so far, in order. -/
  log : Array Event := #[]

/-- How a step of a session ends. -/
inductive Outcome (σ : Type) where
  | done (state : σ)
  | refused (error : Error) (state : σ)
  | aborted (abort : Abort) (log : Array Event)

namespace Outcome

variable {σ : Type}

/-- Goes on with another step if the first one is done. -/
def andThen (outcome : Outcome σ) (next : σ → Outcome σ) : Outcome σ :=
  match outcome with
  | .done state => next state
  | .refused error state => .refused error state
  | .aborted abort log => .aborted abort log

@[simp] theorem done_andThen (state : σ) (next : σ → Outcome σ) :
    (done state).andThen next = next state := rfl

@[simp] theorem refused_andThen (error : Error) (state : σ) (next : σ → Outcome σ) :
    (refused error state).andThen next = .refused error state := rfl

@[simp] theorem aborted_andThen (abort : Abort) (log : Array Event) (next : σ → Outcome σ) :
    (aborted abort log).andThen next = .aborted abort log := rfl

end Outcome

namespace Session

variable {γ α : Type}

/-- Adds an event to the record. -/
def record (event : Event) (r : Session γ α) : Session γ α :=
  { r with log := r.log.push event }

/-- Replaces the sketch by what a computation makes of it. -/
def change (f : Sketch α → Except Abort (Sketch α)) : Session γ α → Outcome (Session γ α)
  | ⟨sketch, coin, log⟩ =>
    match f sketch with
    | .ok sketch => .done ⟨sketch, coin, log⟩
    | .error abort => .aborted abort log

end Session

end QuantileSketch
