import Mathlib

/-! # Go's `container/heap` on a slice

The binary heap of Go's `container/heap` package, on a list for the slice:
`Push` appends and sifts the new element up, `Pop` swaps the first element
with the last, sifts the new first element down over the others and removes
the last. `less` is the `Less` of the heap's `Interface`.

The operations only swap elements, so a heap is a permutation of what was
pushed, and `Pop` returns what was first. When `less` compares by a key,
`Push` and `Pop` keep the heap order, no element below its parent, so the
first element has the least key.
-/

namespace BinaryHeap

variable {α : Type} (less : α → α → Bool)

def lessAt (l : List α) (i j : Nat) : Bool :=
  match l[i]?, l[j]? with
  | some a, some b => less a b
  | _, _ => false

/-- `up(h, j)`: the element at `j` goes up while it is less than its parent. -/
def up (l : List α) (j : Nat) : List α :=
  if h : j = 0 then l
  else if lessAt less l j ((j - 1) / 2) then up (l.swap ((j - 1) / 2) j) ((j - 1) / 2) else l
termination_by j
decreasing_by omega

/-- `down(h, i, n)`: the element at `i` goes down while a child below `n` is
less, the right child taken if it is less than the left. -/
def down (n : Nat) (l : List α) (i : Nat) : List α :=
  if h : 2 * i + 1 < n then
    let j := if decide (2 * i + 2 < n) && lessAt less l (2 * i + 2) (2 * i + 1) then 2 * i + 2 else 2 * i + 1
    if lessAt less l j i then down n (l.swap i j) j else l
  else l
termination_by n - i
decreasing_by all_goals (split <;> omega)

def push (l : List α) (x : α) : List α := up less (l ++ [x]) l.length

/-- `heap.Pop(h)`; `none` is the panic of an empty heap. -/
def pop (l : List α) : Option (α × List α) :=
  match l.length with
  | 0 => none
  | n + 1 =>
    let l := down less n (l.swap 0 n) 0
    l.getLast?.map fun top => (top, l.dropLast)

@[simp] theorem up_zero (l : List α) : up less l 0 = l := by
  rw [up]
  rfl

theorem down_of_le {n : Nat} (l : List α) {i : Nat} (h : n ≤ 2 * i + 1) : down less n l i = l := by
  rw [down, dif_neg (by omega)]

@[simp] theorem push_nil (x : α) : push less [] x = [x] := up_zero less [x]

@[simp] theorem pop_singleton (x : α) : pop less [x] = some (x, []) := by
  simp only [pop, List.length_singleton, down_of_le less _ (Nat.zero_le _), List.swap_self]
  rfl

theorem up_perm (l : List α) (j : Nat) : (up less l j).Perm l := by
  fun_induction up less l j with
  | case1 l => exact List.Perm.refl l
  | case2 l j _ _ ih => exact ih.trans (List.swap_perm _ _ _)
  | case3 l j _ _ => exact List.Perm.refl l

theorem down_perm (n : Nat) (l : List α) (i : Nat) : (down less n l i).Perm l := by
  fun_induction down less n l i with
  | case1 l i _ _ _ ih => exact ih.trans (List.swap_perm _ _ _)
  | case2 l i _ _ _ => exact List.Perm.refl l
  | case3 l i _ => exact List.Perm.refl l

theorem getElem?_swap_of_ne {l : List α} {i j k : Nat} (hi : k ≠ i) (hj : k ≠ j) :
    (l.swap i j)[k]? = l[k]? := by
  by_cases hk : k < l.length
  · have hk' : k < (l.swap i j).length := by simpa using hk
    rw [List.getElem?_eq_getElem hk', List.getElem?_eq_getElem hk, List.getElem_swap_of_ne hi hj]
  · rw [List.getElem?_eq_none (by simpa using hk), List.getElem?_eq_none (by omega)]

theorem getElem?_down_of_le (n : Nat) (l : List α) (i : Nat) {k : Nat} (hk : n ≤ k) :
    (down less n l i)[k]? = l[k]? := by
  fun_induction down less n l i with
  | case1 l i hChild j _ ih =>
    have hj : j < n := by
      simp only [j]
      split
      · rename_i hRight
        simp only [Bool.and_eq_true, decide_eq_true_eq] at hRight
        exact hRight.1
      · exact hChild
    rw [ih, getElem?_swap_of_ne (by omega) (by omega)]
  | case2 l i _ _ _ => rfl
  | case3 l i _ => rfl

theorem push_perm (l : List α) (x : α) : (push less l x).Perm (x :: l) :=
  (up_perm less _ _).trans (List.perm_append_singleton x l)

theorem pop_eq_some {l l' : List α} {top : α} (h : pop less l = some (top, l')) :
    l.head? = some top ∧ l.Perm (top :: l') := by
  unfold pop at h
  split at h
  · cases h
  · rename_i n hLen
    simp only at h
    generalize hd : down less n (l.swap 0 n) 0 = d at h
    have hPerm : d.Perm l := hd ▸ (down_perm less _ _ _).trans (List.swap_perm _ _ _)
    have hLast : d.getLast? = l.head? := by
      rw [List.getLast?_eq_getElem?, hPerm.length_eq, hLen, Nat.succ_sub_one, ← hd,
        getElem?_down_of_le less _ _ _ (Nat.le_refl n), List.head?_eq_getElem?]
      have hn : n < l.length := by omega
      rw [List.getElem?_eq_getElem (by simpa using hn), List.getElem_swap_right_of_lt (by omega),
        List.getElem?_eq_getElem (by omega)]
    obtain ⟨top', hTop, hEq⟩ := Option.map_eq_some_iff.mp h
    simp only [Prod.mk.injEq] at hEq
    obtain ⟨rfl, rfl⟩ := hEq
    refine ⟨hLast ▸ hTop, ?_⟩
    obtain ⟨ys, rfl⟩ := List.getLast?_eq_some_iff.mp hTop
    rw [List.dropLast_concat]
    exact hPerm.symm.trans (List.perm_append_singleton top' ys)

theorem getElem?_swap_left {l : List α} {i j : Nat} (hi : i < l.length) (hj : j < l.length) :
    (l.swap i j)[i]? = l[j]? := by
  rw [List.getElem?_eq_getElem (by simpa using hi), List.getElem_swap_left, dif_pos hj,
    List.getElem?_eq_getElem hj]

theorem getElem?_swap_right {l : List α} {i j : Nat} (hi : i < l.length) (hj : j < l.length) :
    (l.swap i j)[j]? = l[i]? := by
  rw [List.getElem?_eq_getElem (by simpa using hj), List.getElem_swap_right, dif_pos hi,
    List.getElem?_eq_getElem hi]

theorem length_up (l : List α) (j : Nat) : (up less l j).length = l.length := (up_perm less l j).length_eq

theorem length_down (n : Nat) (l : List α) (i : Nat) : (down less n l i).length = l.length :=
  (down_perm less n l i).length_eq

theorem pop_isSome {l : List α} (h : l ≠ []) : ∃ top l', pop less l = some (top, l') := by
  unfold pop
  split
  · rename_i hLen
    exact absurd (List.length_eq_zero_iff.mp hLen) h
  · rename_i n hLen
    have hNe : down less n (l.swap 0 n) 0 ≠ [] := by
      rw [← List.length_pos_iff, length_down, List.length_swap, hLen]
      omega
    obtain ⟨top, hTop⟩ := Option.isSome_iff_exists.mp (List.getLast?_isSome.mpr hNe)
    exact ⟨top, (down less n (l.swap 0 n) 0).dropLast, by simp only [hTop, Option.map_some]⟩

/-! ## The heap order -/

section Order

variable {β : Type} [LinearOrder β] (key : α → β)

/-- `c` is a child of `p`; position 0 is no position's child. -/
def IsChild (c p : Nat) : Prop := 0 < c ∧ (c - 1) / 2 = p

theorem IsChild.lt {c p : Nat} (h : IsChild c p) : p < c := by
  unfold IsChild at h
  omega

theorem isChild_iff {c p : Nat} : IsChild c p ↔ c = 2 * p + 1 ∨ c = 2 * p + 2 := by
  unfold IsChild
  omega

def HeapOrder (n : Nat) (l : List α) : Prop :=
  ∀ c p, IsChild c p → c < n → ∀ a b, l[p]? = some a → l[c]? = some b → key a ≤ key b

theorem HeapOrder.head_le {l : List α} (h : HeapOrder key l.length l) {a : α} (ha : l.head? = some a) :
    ∀ b ∈ l, key a ≤ key b := by
  have hAt : ∀ (i : Nat) (b : α), l[i]? = some b → key a ≤ key b := by
    intro i
    induction i using Nat.strong_induction_on with
    | _ i ih =>
      intro b hb
      rcases Nat.eq_zero_or_pos i with rfl | hi
      · rw [← List.head?_eq_getElem?, ha, Option.some.injEq] at hb
        exact hb ▸ le_refl _
      · have hLen : i < l.length := (List.getElem?_eq_some_iff.mp hb).1
        have hChild : IsChild i ((i - 1) / 2) := ⟨hi, rfl⟩
        obtain ⟨c, hc⟩ : ∃ c, l[(i - 1) / 2]? = some c := ⟨_, List.getElem?_eq_getElem (by omega)⟩
        exact (ih _ hChild.lt c hc).trans (h i _ hChild hLen c b hc hb)
  intro b hb
  obtain ⟨i, hi, rfl⟩ := List.getElem_of_mem hb
  exact hAt i _ (List.getElem?_eq_getElem hi)

/-- What `up` needs at `j`: every edge off `j` is in order, and the parent of
`j` is at or below the children of `j`. -/
structure UpOrder (l : List α) (j : Nat) : Prop where
  except : ∀ c p, IsChild c p → c < l.length → c ≠ j → ∀ a b, l[p]? = some a → l[c]? = some b → key a ≤ key b
  grand : ∀ g, IsChild j g → ∀ c, IsChild c j → c < l.length →
    ∀ a b, l[g]? = some a → l[c]? = some b → key a ≤ key b

theorem UpOrder.move {l : List α} {j p : Nat} (o : UpOrder key l j) (hjp : IsChild j p) (hj : j < l.length)
    {x y : α} (hx : l[j]? = some x) (hy : l[p]? = some y) (hxy : key x < key y) :
    UpOrder key (l.swap p j) p := by
  have hpj := hjp.lt
  constructor
  · intro c q hcq hc hcp a b ha hb
    rw [List.length_swap] at hc
    by_cases hcj : c = j
    · -- the swapped edge: `x` is now the parent of `y`
      subst hcj
      have hq : q = p := by unfold IsChild at hcq hjp; omega
      subst hq
      rw [getElem?_swap_left (by omega) hj, hx, Option.some.injEq] at ha
      rw [getElem?_swap_right (by omega) hj, hy, Option.some.injEq] at hb
      subst ha hb
      exact le_of_lt hxy
    · rw [getElem?_swap_of_ne hcp hcj] at hb
      by_cases hqp : q = p
      · subst hqp
        rw [getElem?_swap_left (by omega) hj, hx, Option.some.injEq] at ha
        subst ha
        exact le_of_lt (lt_of_lt_of_le hxy (o.except c q hcq hc hcj y b hy hb))
      · by_cases hqj : q = j
        · subst hqj
          rw [getElem?_swap_right (by omega) hj, hy, Option.some.injEq] at ha
          subst ha
          exact o.grand p hjp c hcq hc y b hy hb
        · rw [getElem?_swap_of_ne hqp hqj] at ha
          exact o.except c q hcq hc hcj a b ha hb
  · intro g hpg c hcp hc a b ha hb
    rw [List.length_swap] at hc
    have hgp := hpg.lt
    have hpc := hcp.lt
    rw [getElem?_swap_of_ne (by omega) (by omega)] at ha
    have hgy : key a ≤ key y := o.except p g hpg (by omega) (by omega) a y ha hy
    by_cases hcj : c = j
    · subst hcj
      rw [getElem?_swap_right (by omega) hj, hy, Option.some.injEq] at hb
      exact hb ▸ hgy
    · rw [getElem?_swap_of_ne (by omega) hcj] at hb
      exact hgy.trans (o.except c p hcp hc hcj y b hy hb)

theorem UpOrder.finish {l : List α} {j : Nat} (o : UpOrder key l j)
    (hStop : ∀ p, IsChild j p → ∀ a b, l[p]? = some a → l[j]? = some b → key a ≤ key b) :
    HeapOrder key l.length l := by
  intro c p hcp hc a b ha hb
  by_cases hcj : c = j
  · subst hcj
    exact hStop p hcp a b ha hb
  · exact o.except c p hcp hc hcj a b ha hb

variable {less}

theorem lessAt_eq_true {l : List α} {i j : Nat} (h : lessAt less l i j = true) :
    ∃ a b, l[i]? = some a ∧ l[j]? = some b ∧ less a b = true := by
  unfold lessAt at h
  split at h
  · exact ⟨_, _, ‹_›, ‹_›, h⟩
  · cases h

theorem lessAt_eq_false {l : List α} {i j : Nat} (h : lessAt less l i j = false) {a b : α}
    (ha : l[i]? = some a) (hb : l[j]? = some b) : less a b = false := by
  simpa [lessAt, ha, hb] using h

theorem up_heapOrder (hLess : ∀ a b, less a b = decide (key a < key b)) (l : List α) (j : Nat) :
    j < l.length → UpOrder key l j → HeapOrder key l.length (up less l j) := by
  fun_induction up less l j with
  | case1 l =>
    intro _ o
    exact o.finish key (fun p hjp => absurd hjp.1 (by omega))
  | case2 l j hj0 hLt ih =>
    intro hj o
    obtain ⟨x, y, hx, hy, hxy⟩ := lessAt_eq_true hLt
    rw [hLess, decide_eq_true_eq] at hxy
    have hMove := o.move key ⟨Nat.pos_of_ne_zero hj0, rfl⟩ hj hx hy hxy
    have hRest := ih (by rw [List.length_swap]; omega) hMove
    rwa [List.length_swap] at hRest
  | case3 l j hj0 hNot =>
    intro _ o
    refine o.finish key (fun p hjp a b ha hb => ?_)
    have hp : p = (j - 1) / 2 := hjp.2.symm
    subst hp
    have hba := lessAt_eq_false (Bool.not_eq_true _ ▸ hNot) hb ha
    rw [hLess, decide_eq_false_iff_not] at hba
    exact le_of_not_gt hba

theorem push_heapOrder (hLess : ∀ a b, less a b = decide (key a < key b)) {l : List α}
    (h : HeapOrder key l.length l) (x : α) : HeapOrder key (push less l x).length (push less l x) := by
  have hSame : ∀ k, k < l.length → (l ++ [x])[k]? = l[k]? := fun k hk => List.getElem?_append_left hk
  have o : UpOrder key (l ++ [x]) l.length := by
    constructor
    · intro c p hcp hc hne a b ha hb
      simp only [List.length_append, List.length_singleton] at hc
      have hpc := hcp.lt
      rw [hSame c (by omega)] at hb
      rw [hSame p (by omega)] at ha
      exact h c p hcp (by omega) a b ha hb
    · intro g _ c hcl hc
      have := hcl.lt
      simp only [List.length_append, List.length_singleton] at hc
      omega
  have hUp := up_heapOrder key hLess (l ++ [x]) l.length (by simp) o
  rwa [push, length_up]

/-- What `down` needs at `i` below `n`: every edge not from `i` is in order, and
the parent of `i` is at or below the children of `i`. -/
structure DownOrder (n : Nat) (l : List α) (i : Nat) : Prop where
  except : ∀ c p, IsChild c p → c < n → p ≠ i → ∀ a b, l[p]? = some a → l[c]? = some b → key a ≤ key b
  grand : ∀ g, IsChild i g → ∀ c, IsChild c i → c < n →
    ∀ a b, l[g]? = some a → l[c]? = some b → key a ≤ key b

theorem DownOrder.move {n : Nat} {l : List α} {i j : Nat} (o : DownOrder key n l i) (hji : IsChild j i)
    (hj : j < n) (hn : n ≤ l.length)
    (hMin : ∀ c, IsChild c i → c < n → ∀ a b, l[j]? = some a → l[c]? = some b → key a ≤ key b)
    {x y : α} (hx : l[i]? = some x) (hy : l[j]? = some y) (hyx : key y < key x) :
    DownOrder key n (l.swap i j) j := by
  have hij := hji.lt
  constructor
  · intro c q hcq hc hqj a b ha hb
    by_cases hcj : c = j
    · -- the swapped edge: `y` is now the parent of `x`
      subst hcj
      have hq : q = i := by unfold IsChild at hcq hji; omega
      subst hq
      rw [getElem?_swap_left (by omega) (by omega), hy, Option.some.injEq] at ha
      rw [getElem?_swap_right (by omega) (by omega), hx, Option.some.injEq] at hb
      subst ha hb
      exact le_of_lt hyx
    · by_cases hci : c = i
      · -- the edge into `i`, whose element is now `y`
        subst hci
        have hqc := hcq.lt
        rw [getElem?_swap_of_ne (by omega) (by omega)] at ha
        rw [getElem?_swap_left (by omega) (by omega), hy, Option.some.injEq] at hb
        subst hb
        exact o.grand q hcq j hji hj a y ha hy
      · rw [getElem?_swap_of_ne hci hcj] at hb
        by_cases hqi : q = i
        · subst hqi
          rw [getElem?_swap_left (by omega) (by omega), hy, Option.some.injEq] at ha
          subst ha
          exact hMin c hcq hc y b hy hb
        · rw [getElem?_swap_of_ne hqi hqj] at ha
          exact o.except c q hcq hc hqi a b ha hb
  · intro g hjg c hcj hc a b ha hb
    have hg : g = i := by unfold IsChild at hjg hji; omega
    subst hg
    have hjc := hcj.lt
    rw [getElem?_swap_left (by omega) (by omega), hy, Option.some.injEq] at ha
    rw [getElem?_swap_of_ne (by omega) (by omega)] at hb
    subst ha
    exact o.except c j hcj hc (by omega) y b hy hb

theorem DownOrder.finish {n : Nat} {l : List α} {i : Nat} (o : DownOrder key n l i)
    (hStop : ∀ c, IsChild c i → c < n → ∀ a b, l[i]? = some a → l[c]? = some b → key a ≤ key b) :
    HeapOrder key n l := by
  intro c p hcp hc a b ha hb
  by_cases hpi : p = i
  · subst hpi
    exact hStop c hcp hc a b ha hb
  · exact o.except c p hcp hc hpi a b ha hb

theorem down_child (hLess : ∀ a b, less a b = decide (key a < key b)) {n : Nat} {l : List α} {i j : Nat}
    (hi : 2 * i + 1 < n) (hn : n ≤ l.length)
    (hj : j = if _ : (decide (2 * i + 2 < n) && lessAt less l (2 * i + 2) (2 * i + 1)) = true then 2 * i + 2
      else 2 * i + 1) :
    IsChild j i ∧ j < n ∧ ∀ c, IsChild c i → c < n → ∀ a b, l[j]? = some a → l[c]? = some b → key a ≤ key b := by
  subst hj
  have hLeft : ∃ a, l[2 * i + 1]? = some a := ⟨_, List.getElem?_eq_getElem (by omega)⟩
  obtain ⟨left, hl⟩ := hLeft
  split
  · rename_i hRight
    simp only [Bool.and_eq_true, decide_eq_true_eq] at hRight
    obtain ⟨hr, hLt⟩ := hRight
    obtain ⟨right, left', hr', hl', hrl⟩ := lessAt_eq_true hLt
    rw [hl, Option.some.injEq] at hl'
    subst hl'
    rw [hLess, decide_eq_true_eq] at hrl
    refine ⟨isChild_iff.mpr (Or.inr rfl), hr, fun c hc hcn a b ha hb => ?_⟩
    rw [hr', Option.some.injEq] at ha
    subst ha
    rcases isChild_iff.mp hc with rfl | rfl
    · rw [hl, Option.some.injEq] at hb
      exact hb ▸ le_of_lt hrl
    · rw [hr', Option.some.injEq] at hb
      exact hb ▸ le_refl _
  · rename_i hRight
    refine ⟨isChild_iff.mpr (Or.inl rfl), hi, fun c hc hcn a b ha hb => ?_⟩
    rw [hl, Option.some.injEq] at ha
    subst ha
    rcases isChild_iff.mp hc with rfl | rfl
    · rw [hl, Option.some.injEq] at hb
      exact hb ▸ le_refl _
    · -- the right child is not less than the left one
      have hLt : lessAt less l (2 * i + 2) (2 * i + 1) = false := by
        simpa [hcn] using hRight
      have hba := lessAt_eq_false hLt hb hl
      rw [hLess, decide_eq_false_iff_not] at hba
      exact le_of_not_gt hba

theorem down_heapOrder (hLess : ∀ a b, less a b = decide (key a < key b)) (n : Nat) (l : List α) (i : Nat) :
    n ≤ l.length → DownOrder key n l i → HeapOrder key n (down less n l i) := by
  fun_induction down less n l i with
  | case1 l i hi j hLt ih =>
    intro hn o
    obtain ⟨hji, hj, hMin⟩ := down_child key hLess hi hn rfl
    obtain ⟨y, x, hy, hx, hyx⟩ := lessAt_eq_true hLt
    rw [hLess, decide_eq_true_eq] at hyx
    exact ih (by rw [List.length_swap]; exact hn) (o.move key hji hj hn hMin hx hy hyx)
  | case2 l i hi j hNot =>
    intro hn o
    obtain ⟨hji, hj, hMin⟩ := down_child key hLess hi hn rfl
    refine o.finish key (fun c hc hcn a b ha hb => ?_)
    obtain ⟨y, hy⟩ : ∃ y, l[j]? = some y := ⟨_, List.getElem?_eq_getElem (by omega)⟩
    have hya := lessAt_eq_false (Bool.not_eq_true _ ▸ hNot) hy ha
    rw [hLess, decide_eq_false_iff_not] at hya
    exact (le_of_not_gt hya).trans (hMin c hc hcn y b hy hb)
  | case3 l i hi =>
    intro _ o
    refine o.finish key (fun c hc hcn => ?_)
    rcases isChild_iff.mp hc with rfl | rfl <;> omega

theorem pop_heapOrder (hLess : ∀ a b, less a b = decide (key a < key b)) {l l' : List α} {top : α}
    (h : HeapOrder key l.length l) (hPop : pop less l = some (top, l')) : HeapOrder key l'.length l' := by
  unfold pop at hPop
  split at hPop
  · cases hPop
  · rename_i n hLen
    simp only at hPop
    generalize hd : down less n (l.swap 0 n) 0 = d at hPop
    have hdLen : d.length = n + 1 := by rw [← hd, length_down, List.length_swap, hLen]
    have o : DownOrder key n (l.swap 0 n) 0 := by
      constructor
      · intro c p hcp hc hp a b ha hb
        have hpc := hcp.lt
        rw [getElem?_swap_of_ne hp (by omega)] at ha
        rw [getElem?_swap_of_ne (by omega) (by omega)] at hb
        exact h c p hcp (by omega) a b ha hb
      · intro g hg
        exact absurd hg.1 (by omega)
    have hDown := down_heapOrder key hLess n (l.swap 0 n) 0 (by rw [List.length_swap]; omega) o
    rw [hd] at hDown
    obtain ⟨top', _, hEq⟩ := Option.map_eq_some_iff.mp hPop
    simp only [Prod.mk.injEq] at hEq
    obtain ⟨-, rfl⟩ := hEq
    have hKeep : ∀ k, k < n → d.dropLast[k]? = d[k]? := by
      intro k hk
      rw [List.getElem?_eq_getElem (by simp; omega), List.getElem?_eq_getElem (by omega), List.getElem_dropLast]
    intro c p hcp hc a b ha hb
    rw [List.length_dropLast, hdLen, Nat.add_sub_cancel] at hc
    have hpc := hcp.lt
    rw [hKeep p (by omega)] at ha
    rw [hKeep c hc] at hb
    exact hDown c p hcp hc a b ha hb

end Order

end BinaryHeap
