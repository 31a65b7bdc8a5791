import Mathlib

/-! # Logs of steps and their undo

`Trace R x l y` says that the steps of the log `l`, taken in order by the step
relation `R`, lead from `x` to `y`. When an undo relation reverses every single
step, the whole log is undone by its steps taken last first; a step function
that agrees with `R` replays the log.
-/

namespace UndoLog
set_option autoImplicit false

variable {σ α : Type}

/-- The steps of a log, one after the other. -/
inductive Trace (R : σ → α → σ → Prop) : σ → List α → σ → Prop
  | nil (x : σ) : Trace R x [] x
  | cons {x y z : σ} {a : α} {l : List α} : R x a y → Trace R y l z → Trace R x (a :: l) z

namespace Trace

variable {R S : σ → α → σ → Prop} {x y z : σ} {a : α} {l l' : List α}

theorem append (h : Trace R x l y) (h' : Trace R y l' z) : Trace R x (l ++ l') z := by
  induction h with
  | nil => exact h'
  | cons hStep _ ih => exact .cons hStep (ih h')

theorem snoc (h : Trace R x l y) (hStep : R y a z) : Trace R x (l ++ [a]) z :=
  h.append (.cons hStep (.nil z))

theorem single (hStep : R x a y) : Trace R x [a] y :=
  .cons hStep (.nil y)

theorem reverse_of_inverse (hInv : ∀ x a y, R x a y → S y a x) (h : Trace R x l y) :
    Trace S y l.reverse x := by
  induction h with
  | nil x => exact .nil x
  | cons hStep _ ih =>
    rw [List.reverse_cons]
    exact ih.snoc (hInv _ _ _ hStep)

theorem foldl_eq (f : σ → α → σ) (hf : ∀ x a y, R x a y → f x a = y) (h : Trace R x l y) :
    l.foldl f x = y := by
  induction h with
  | nil => rfl
  | cons hStep _ ih =>
    rw [List.foldl_cons, hf _ _ _ hStep]
    exact ih

theorem invariant (P : σ → Prop) (hStep : ∀ x a y, P x → R x a y → P y) (h : Trace R x l y)
    (hx : P x) : P y := by
  induction h with
  | nil => exact hx
  | cons hR _ ih => exact ih (hStep _ _ _ hx hR)

end Trace

end UndoLog
