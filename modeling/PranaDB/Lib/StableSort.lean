import Mathlib

/-! # Stable sorting by a comparison

Go's `sort.SliceStable(x, less)` sorts `x` by the strict order `less` and keeps
elements that neither precedes in their order. Its result is taken here to be
Lean's merge sort with `a ≤ b` read as `¬ less b a`.

When `less a b` is `cmp a b = .lt` for a comparison `cmp` that is a total
preorder (`Std.TransCmp`), that list is sorted by `cmp`, and each class of
elements `cmp` cannot tell apart keeps its order (`ties_sliceStable`). A list
with these two properties is unique (`eq_of_sorted_of_ties`), so every stable
sort gives the same list as the merge sort. Comparisons are combined
lexicographically by `lexCmp`, which stays a total preorder.
-/

namespace StableSort
set_option autoImplicit false

variable {α β : Type}

/-- `sort.SliceStable` by `less`, as a stable merge sort. -/
def sliceStable (less : α → α → Bool) (xs : List α) : List α :=
  xs.mergeSort fun a b => !less b a

def lessOf (cmp : α → α → Ordering) (a b : α) : Bool := cmp a b == .lt

def ties (cmp : α → α → Ordering) (k : α) (xs : List α) : List α :=
  xs.filter fun x => cmp x k == .eq

def Sorted (cmp : α → α → Ordering) (xs : List α) : Prop :=
  xs.Pairwise fun a b => cmp a b ≠ .gt

/-- The comparisons `cmps` one after another: the first that tells two
elements apart decides. -/
def lexCmp : List (α → α → Ordering) → α → α → Ordering
  | [] => fun _ _ => .eq
  | cmp :: cmps => compareLex cmp (lexCmp cmps)

theorem perm_sliceStable (less : α → α → Bool) (xs : List α) : (sliceStable less xs).Perm xs :=
  List.mergeSort_perm xs _

theorem map_sliceStable (less : α → α → Bool) (f : β → α) (xs : List β) :
    (sliceStable (fun i j => less (f i) (f j)) xs).map f = sliceStable less (xs.map f) :=
  List.map_mergeSort fun _ _ _ _ => rfl

@[simp] theorem ties_nil (cmp : α → α → Ordering) (k : α) : ties cmp k [] = [] := rfl

theorem ties_cons (cmp : α → α → Ordering) (k x : α) (xs : List α) :
    ties cmp k (x :: xs) = if cmp x k = .eq then x :: ties cmp k xs else ties cmp k xs := by
  by_cases h : cmp x k = .eq <;> simp [ties, h]

section TotalPreorder

variable {cmp : α → α → Ordering} [Std.TransCmp cmp]

theorem not_lessOf_iff {a b : α} : (!lessOf cmp b a) = true ↔ cmp a b ≠ .gt := by
  rw [Bool.not_eq_true', lessOf, beq_eq_false_iff_ne, ne_eq, ne_eq, Std.OrientedCmp.gt_iff_lt]

theorem eq_of_not_gt {a b : α} (hab : cmp a b ≠ .gt) (hba : cmp b a ≠ .gt) : cmp a b = .eq := by
  rw [ne_eq, Std.OrientedCmp.gt_iff_lt] at hba
  cases h : cmp a b
  · exact absurd h hba
  · rfl
  · exact absurd h hab

theorem sliceLe_trans (a b c : α) (hab : (!lessOf cmp b a) = true) (hbc : (!lessOf cmp c b) = true) :
    (!lessOf cmp c a) = true := by
  rw [not_lessOf_iff] at *
  exact Std.TransCmp.le_trans hab hbc

theorem sliceLe_total (a b : α) : ((!lessOf cmp b a) || !lessOf cmp a b) = true := by
  rw [Bool.or_eq_true, not_lessOf_iff, not_lessOf_iff]
  by_cases h : cmp a b = .gt
  · right
    rw [Std.OrientedCmp.gt_iff_lt] at h
    rw [h]
    exact Ordering.noConfusion
  · exact Or.inl h

theorem sorted_sliceStable (xs : List α) : Sorted cmp (sliceStable (lessOf cmp) xs) :=
  (List.pairwise_mergeSort sliceLe_trans sliceLe_total xs).imp not_lessOf_iff.mp

theorem sorted_ties (k : α) (xs : List α) : Sorted cmp (ties cmp k xs) := by
  apply List.Pairwise.imp_of_mem _ (List.pairwise_of_forall fun _ _ => trivial)
  intro a b ha hb _
  have hak : cmp a k = .eq := beq_iff_eq.mp (List.mem_filter.mp ha).2
  have hbk : cmp b k = .eq := beq_iff_eq.mp (List.mem_filter.mp hb).2
  rw [Std.TransCmp.eq_trans hak (Std.OrientedCmp.eq_comm.mp hbk)]
  exact Ordering.noConfusion

theorem mem_ties_self {k : α} {xs : List α} (hk : k ∈ xs) : k ∈ ties cmp k xs :=
  List.mem_filter.mpr ⟨hk, beq_iff_eq.mpr Std.ReflCmp.compare_self⟩

theorem ties_sliceStable (k : α) (xs : List α) :
    ties cmp k (sliceStable (lessOf cmp) xs) = ties cmp k xs := by
  have hSub : List.Sublist (ties cmp k xs) (sliceStable (lessOf cmp) xs) :=
    List.sublist_mergeSort sliceLe_trans sliceLe_total
      ((sorted_ties k xs).imp not_lessOf_iff.mpr) List.filter_sublist
  have hSubTies : List.Sublist (ties cmp k xs) (ties cmp k (sliceStable (lessOf cmp) xs)) := by
    have h := hSub.filter fun x => cmp x k == .eq
    simpa only [ties, List.filter_filter, Bool.and_self] using h
  have hLen : (ties cmp k (sliceStable (lessOf cmp) xs)).length = (ties cmp k xs).length :=
    ((perm_sliceStable _ xs).filter _).length_eq
  exact (hSubTies.eq_of_length hLen.symm).symm

theorem head_eq_of_ties {a b : α} {xs ys : List α} (hxs : Sorted cmp (a :: xs)) (hys : Sorted cmp (b :: ys))
    (hTies : ∀ k, ties cmp k (a :: xs) = ties cmp k (b :: ys)) : a = b := by
  have hMem : ∀ {x y : α} {xs ys : List α}, (∀ k, ties cmp k (x :: xs) = ties cmp k (y :: ys)) →
      x ∈ y :: ys := by
    intro x y xs ys h
    have hx : x ∈ ties cmp x (y :: ys) := h x ▸ mem_ties_self List.mem_cons_self
    exact List.mem_of_mem_filter hx
  have hHead : ∀ {x y : α} {ys : List α}, Sorted cmp (y :: ys) → x ∈ y :: ys → cmp y x ≠ .gt := by
    intro x y ys h hx
    rcases List.mem_cons.mp hx with rfl | hx
    · have hRefl : cmp x x = .eq := Std.ReflCmp.compare_self
      rw [hRefl]
      exact Ordering.noConfusion
    · exact List.rel_of_pairwise_cons h hx
  have hba : cmp b a = .eq :=
    eq_of_not_gt (hHead hys (hMem hTies)) (hHead hxs (hMem fun k => (hTies k).symm))
  have h := hTies a
  rw [ties_cons, ties_cons, if_pos Std.ReflCmp.compare_self, if_pos hba] at h
  exact List.cons.inj h |>.1

theorem eq_of_sorted_of_ties {xs ys : List α} (hxs : Sorted cmp xs) (hys : Sorted cmp ys)
    (hTies : ∀ k, ties cmp k xs = ties cmp k ys) : xs = ys := by
  induction xs generalizing ys with
  | nil =>
    cases ys with
    | nil => rfl
    | cons b ys =>
      have h : b ∈ ties cmp b (b :: ys) := mem_ties_self List.mem_cons_self
      rw [← hTies b] at h
      simp at h
  | cons a xs ih =>
    cases ys with
    | nil =>
      have h : a ∈ ties cmp a (a :: xs) := mem_ties_self List.mem_cons_self
      rw [hTies a] at h
      simp at h
    | cons b ys =>
      obtain rfl := head_eq_of_ties hxs hys hTies
      have hTail : ∀ k, ties cmp k xs = ties cmp k ys := by
        intro k
        have h := hTies k
        rw [ties_cons, ties_cons] at h
        split at h
        · exact List.cons.inj h |>.2
        · exact h
      rw [ih hxs.of_cons hys.of_cons hTail]

theorem eq_sliceStable {xs ys : List α} (hSorted : Sorted cmp ys) (hTies : ∀ k, ties cmp k ys = ties cmp k xs) :
    ys = sliceStable (lessOf cmp) xs :=
  eq_of_sorted_of_ties hSorted (sorted_sliceStable xs) fun k => (hTies k).trans (ties_sliceStable k xs).symm

end TotalPreorder

theorem transCmp_lexCmp : ∀ (cmps : List (α → α → Ordering)), (∀ cmp ∈ cmps, Std.TransCmp cmp) →
    Std.TransCmp (lexCmp cmps)
  | [], _ =>
    { eq_swap := rfl
      isLE_trans := fun _ _ => rfl }
  | cmp :: cmps, h =>
    have := h cmp List.mem_cons_self
    have := transCmp_lexCmp cmps fun c hc => h c (List.mem_cons_of_mem cmp hc)
    inferInstanceAs (Std.TransCmp (compareLex cmp (lexCmp cmps)))

end StableSort
