/-!
# Sorting by insertion

Items come one by one from the left, and each goes back past the items that stand after it. Items
that do not stand before one another stay in their order.
-/
namespace QuantileSketch.Sorting

variable {α : Type} (less : α → α → Bool)

/-- Puts an item at the end of a run and moves it towards the front past the items that it stands
before. The run is given from its end to its front. -/
def insertLast (x : α) : List α → List α
  | [] => [x]
  | y :: ys => if less x y then y :: insertLast x ys else x :: y :: ys

/-- Inserts the items of a list one after the other into a run that is given backwards. -/
def insertAll (run : List α) : List α → List α
  | [] => run
  | x :: xs => insertAll (insertLast less x run) xs

/-- Inserts the items of a list one after the other into a run. -/
def extend (run xs : List α) : List α := (insertAll less run.reverse xs).reverse

theorem insertLast_perm (x : α) (run : List α) : (insertLast less x run).Perm (x :: run) := by
  induction run with
  | nil => exact .refl _
  | cons y ys ih =>
    unfold insertLast
    split
    · exact (ih.cons y).trans (.swap x y ys)
    · exact .refl _

theorem insertAll_perm (run xs : List α) : (insertAll less run xs).Perm (run ++ xs) := by
  induction xs generalizing run with
  | nil => simp [insertAll]
  | cons x xs ih =>
    exact (ih _).trans (((insertLast_perm less x run).append_right xs).trans List.perm_middle.symm)

/-- Insertion neither loses nor doubles items. -/
theorem extend_perm (run xs : List α) : (extend less run xs).Perm (run ++ xs) :=
  (List.reverse_perm _).trans
    ((insertAll_perm less _ xs).trans ((List.reverse_perm run).append_right xs))

end QuantileSketch.Sorting
