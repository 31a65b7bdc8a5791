import Mathlib

/-! # Deduplication by sequence number

Items arrive with an originator and a sequence number. The reference
semantics (`accept`, `accepted`) accepts an item when its sequence is above
that of every item of its originator accepted before it. An implementation
keeps only the last accepted sequence of each originator (`step`); it agrees
with the reference as long as the map holds, for every originator, the largest
sequence accepted so far (`IsMaxMap`), and `step` keeps that.
-/

namespace Dedup
set_option autoImplicit false

variable {O Q α : Type} [DecidableEq O] [LinearOrder Q]

def accept (acc : List (O × Q)) (o : O) (q : Q) : Bool :=
  acc.all fun p => decide (p.1 ≠ o) || decide (p.2 < q)

/-- The items of `xs` the reference accepts after `acc`, in order; `f` gives
an item's originator and sequence. -/
def accepted (f : α → O × Q) : List (O × Q) → List α → List α
  | _, [] => []
  | acc, x :: xs =>
    if accept acc (f x).1 (f x).2 then x :: accepted f (acc ++ [f x]) xs else accepted f acc xs

/-- The implementation: a duplicate when the originator's last sequence is at
least `q`; otherwise `q` becomes its last sequence. Returns whether to ignore. -/
def step (m : O → Option Q) (o : O) (q : Q) : Bool × (O → Option Q) :=
  match m o with
  | some prev => if prev ≥ q then (true, m) else (false, Function.update m o (some q))
  | none => (false, Function.update m o (some q))

/-- `m` holds, for every originator, the largest sequence of it in `acc`. -/
def IsMaxMap (m : O → Option Q) (acc : List (O × Q)) : Prop :=
  ∀ o, match m o with
    | none => ∀ p ∈ acc, p.1 ≠ o
    | some v => (o, v) ∈ acc ∧ ∀ p ∈ acc, p.1 = o → p.2 ≤ v

omit [DecidableEq O] in
theorem isMaxMap_nil : IsMaxMap (fun _ : O => (none : Option Q)) [] := by
  intro o
  simp

theorem accept_iff (acc : List (O × Q)) (o : O) (q : Q) :
    accept acc o q = true ↔ ∀ p ∈ acc, p.1 = o → p.2 < q := by
  simp only [accept, List.all_eq_true, Bool.or_eq_true, decide_eq_true_eq]
  refine forall₂_congr fun p _ => ?_
  by_cases h : p.1 = o <;> simp [h]

theorem isMaxMap_update {m : O → Option Q} {acc : List (O × Q)} (h : IsMaxMap m acc) {o : O}
    {q : Q} (hAbove : ∀ p ∈ acc, p.1 = o → p.2 < q) :
    IsMaxMap (Function.update m o (some q)) (acc ++ [(o, q)]) := by
  intro o'
  by_cases hEq : o' = o
  · subst hEq
    simp only [Function.update_self]
    refine ⟨List.mem_append_right _ (List.mem_singleton_self _), ?_⟩
    rintro p hp hp'
    rcases List.mem_append.mp hp with hp | hp
    · exact le_of_lt (hAbove p hp hp')
    · rw [List.mem_singleton.mp hp]
  · have hOld := h o'
    rw [Function.update_of_ne hEq]
    revert hOld
    cases m o' with
    | none =>
      intro hOld p hp
      rcases List.mem_append.mp hp with hp | hp
      · exact hOld p hp
      · simp only [List.mem_singleton] at hp
        subst hp
        exact Ne.symm hEq
    | some v =>
      rintro ⟨hMem, hMax⟩
      refine ⟨List.mem_append_left _ hMem, fun p hp hp' => ?_⟩
      rcases List.mem_append.mp hp with hp | hp
      · exact hMax p hp hp'
      · simp only [List.mem_singleton] at hp
        subst hp
        exact absurd hp'.symm hEq

theorem step_spec {m : O → Option Q} {acc : List (O × Q)} (h : IsMaxMap m acc) (o : O) (q : Q) :
    (step m o q).1 = !accept acc o q ∧
      IsMaxMap (step m o q).2 (if accept acc o q then acc ++ [(o, q)] else acc) := by
  have hAt := h o
  unfold step
  revert hAt
  cases hm : m o with
  | none =>
    intro hNone
    have hAcc : accept acc o q = true :=
      (accept_iff acc o q).mpr fun p hp hp' => absurd hp' (hNone p hp)
    rw [hAcc]
    exact ⟨rfl, isMaxMap_update h fun p hp hp' => absurd hp' (hNone p hp)⟩
  | some v =>
    rintro ⟨hMem, hMax⟩
    by_cases hDup : v ≥ q
    · -- the largest accepted sequence of `o` is at least `q`: a duplicate
      have hAcc : accept acc o q = false := by
        rw [← Bool.not_eq_true, accept_iff]
        intro hAll
        exact absurd (hAll (o, v) hMem rfl) (not_lt.mpr hDup)
      simp only [if_pos hDup, hAcc]
      exact ⟨rfl, h⟩
    · have hAbove : ∀ p ∈ acc, p.1 = o → p.2 < q :=
        fun p hp hp' => lt_of_le_of_lt (hMax p hp hp') (not_le.mp hDup)
      have hAcc : accept acc o q = true := (accept_iff acc o q).mpr hAbove
      simp only [if_neg hDup, hAcc]
      exact ⟨rfl, isMaxMap_update h hAbove⟩

@[simp] theorem accepted_nil (f : α → O × Q) (acc : List (O × Q)) : accepted f acc [] = [] := rfl

theorem accepted_cons (f : α → O × Q) (acc : List (O × Q)) (x : α) (xs : List α) :
    accepted f acc (x :: xs) =
      if accept acc (f x).1 (f x).2 then x :: accepted f (acc ++ [f x]) xs else accepted f acc xs :=
  rfl

theorem accepted_repeat (f : α → O × Q) (acc : List (O × Q)) {x y : α} (hxy : f y = f x)
    (hx : accept acc (f x).1 (f x).2 = true) (ys : List α) :
    accepted f acc (x :: y :: ys) = x :: accepted f (acc ++ [f x]) ys := by
  have hy : accept (acc ++ [f x]) (f y).1 (f y).2 = false := by
    rw [← Bool.not_eq_true, accept_iff, hxy]
    intro hAll
    exact lt_irrefl _ (hAll (f x) (List.mem_append_right _ (List.mem_singleton_self _)) rfl)
  rw [accepted_cons, if_pos hx, accepted_cons, hy, if_neg Bool.false_ne_true]

theorem accepted_append (f : α → O × Q) :
    ∀ (acc : List (O × Q)) (xs ys : List α),
      accepted f acc (xs ++ ys) = accepted f acc xs ++ accepted f (acc ++ (accepted f acc xs).map f) ys := by
  intro acc xs ys
  induction xs generalizing acc with
  | nil => simp
  | cons x xs ih =>
    by_cases hx : accept acc (f x).1 (f x).2
    · rw [List.cons_append, accepted_cons, if_pos hx, accepted_cons, if_pos hx, ih]
      simp
    · rw [List.cons_append, accepted_cons, if_neg hx, accepted_cons, if_neg hx, ih]

theorem accepted_above (f : α → O × Q) :
    ∀ (acc : List (O × Q)) (xs : List α), ∀ y ∈ accepted f acc xs,
      ∀ p ∈ acc, p.1 = (f y).1 → p.2 < (f y).2 := by
  intro acc xs
  induction xs generalizing acc with
  | nil => simp
  | cons x xs ih =>
    intro y hy p hp hSame
    by_cases hx : accept acc (f x).1 (f x).2
    · rw [accepted_cons, if_pos hx, List.mem_cons] at hy
      rcases hy with rfl | hy
      · exact (accept_iff acc _ _).mp hx p hp hSame
      · exact ih _ y hy p (List.mem_append_left _ hp) hSame
    · rw [accepted_cons, if_neg hx] at hy
      exact ih acc y hy p hp hSame

theorem accepted_sequences_increase (f : α → O × Q) :
    ∀ (acc : List (O × Q)) (xs : List α),
      (accepted f acc xs).Pairwise fun x y => (f x).1 = (f y).1 → (f x).2 < (f y).2 := by
  intro acc xs
  induction xs generalizing acc with
  | nil => simp
  | cons x xs ih =>
    by_cases hx : accept acc (f x).1 (f x).2
    · rw [accepted_cons, if_pos hx, List.pairwise_cons]
      refine ⟨fun y hy hSame => ?_, ih _⟩
      exact accepted_above f (acc ++ [f x]) xs y hy (f x)
        (List.mem_append_right _ (List.mem_singleton_self _)) hSame
    · rw [accepted_cons, if_neg hx]
      exact ih acc

end Dedup
