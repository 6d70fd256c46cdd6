/-!
# Aborted computations

Numbers of the library have a fixed width and arrays are read at computed positions. A computation
that leaves a width, a position outside an array, and a condition that the code relies on and does
not find, end the whole computation: there is no value to go on with. This is an `Abort`, in
contrast to a refusal, which leaves everything in working order.
-/
namespace QuantileSketch

/-- Why a computation ends without an answer. -/
inductive Abort where
  /-- A number leaves the range of its width. -/
  | overflow
  /-- A position lies outside an array. -/
  | index
  /-- A condition that the code relies on does not hold. -/
  | check (text : String)
  deriving DecidableEq, Repr

/-- The text that describes an abort. -/
def Abort.message : Abort → String
  | .overflow => "overflow"
  | .index => "index"
  | .check text => text

/-- The entry of a list at a position that has to exist. -/
def entry (xs : List Nat) (i : Nat) : Except Abort Nat :=
  match xs[i]? with
  | some x => .ok x
  | none => .error .index

/-- A condition that the code relies on. -/
def require (p : Prop) [Decidable p] (text : String) : Except Abort Unit :=
  if p then .ok () else .error (.check text)

/-! ### When a computation succeeds

Each computation has an answer under one condition, and a computation in steps has an answer if
every step has one. -/

theorem ok_bind {ε α β : Type} (a : α) (f : α → Except ε β) : (Except.ok a >>= f) = f a := rfl

theorem error_bind {ε α β : Type} (e : ε) (f : α → Except ε β) :
    (Except.error e >>= f) = .error e := rfl

theorem bind_eq_ok_iff {ε α β : Type} {x : Except ε α} {f : α → Except ε β} {b : β} :
    (x >>= f) = .ok b ↔ ∃ a, x = .ok a ∧ f a = .ok b := by
  cases x with
  | error e => simp [bind, Except.bind]
  | ok a => simp [bind, Except.bind]

theorem pure_eq_ok_iff {ε α : Type} {a b : α} : (pure a : Except ε α) = .ok b ↔ a = b := by
  simp [pure, Except.pure]

theorem toOption_eq_some_iff {ε α : Type} {x : Except ε α} {a : α} :
    x.toOption = some a ↔ x = .ok a := by
  cases x <;> simp [Except.toOption]

theorem entry_eq_ok_iff {xs : List Nat} {i x : Nat} : entry xs i = .ok x ↔ xs[i]? = some x := by
  unfold entry
  split <;> simp_all

theorem require_eq_ok_iff {p : Prop} [Decidable p] {text : String} {u : Unit} :
    require p text = .ok u ↔ p := by
  by_cases h : p <;> simp [require, h]

end QuantileSketch
