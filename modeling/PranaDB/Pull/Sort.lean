import PranaDB.Lib.StableSort

/-! # ORDER BY (`pull/exec/sort.go`)

`PullSort.GetRows` reads every row of its child on its first call, in batches
of `queryBatchSize`, fails with `TooManyRows` past `maxRows`, sorts the rows
with `sort.SliceStable` and then pages through them. With fewer than two rows
it returns them as read and keeps none, so the next call reads the child
again.

A sort expression is its value on a row, `none` for NULL, in a value type
with a total preorder: the comparisons of the source (`<` on int64 and on
non-NaN float64, `CompareTo` on decimals, `strings.Compare`,
`Timestamp.Compare`) are all of that kind, and the values of one expression
are all of its return type. Errors of expression evaluation are left out. The
child is the list of rows it has still to return, read `n` at a time.
-/

namespace PranaDB
set_option autoImplicit false

def queryBatchSize : Nat := 10000

/-- `getOrderByMaxRows`: the global `orderByMaxRows` where it is set, else the
configured value. -/
def getOrderByMaxRows (orderByMaxRows configuredMaxRows : Nat) : Nat :=
  if orderByMaxRows ≠ 0 then orderByMaxRows else configuredMaxRows

/-- A sort expression and its flag of `byItemsToDescAndSortExpression`. -/
structure SortKey (ρ V : Type) where
  expr : ρ → Option V
  descending : Bool

/-- How `PullSort.GetRows` fails; `tooManyRows` holds the global
`orderByMaxRows` that its message prints. -/
inductive SortError where
  | invalidLimit (limit : Int)
  | tooManyRows (orderByMaxRows : Nat)
deriving DecidableEq, Repr

section

variable {ρ V : Type} [Ord V]

/-- The comparator `sortRows` passes to `sort.SliceStable`, over the sort
expressions from the given one: the first that tells the rows apart decides. -/
def sortLess : List (SortKey ρ V) → ρ → ρ → Bool
  | [], _, _ => false
  | k :: sortByExpressions, row1, row2 =>
    match k.expr row1, k.expr row2 with
    | none, some _ => !k.descending
    | some _, none => k.descending
    | some val1, some val2 =>
      match compare val1 val2 with
      | .lt => !k.descending
      | .gt => k.descending
      | .eq => sortLess sortByExpressions row1 row2
    | none, none => sortLess sortByExpressions row1 row2

/-- `PullSort.sortRows`: the indexes of the rows sorted by `sortLess`, and the
rows at them. -/
def sortRows (sortByExpressions : List (SortKey ρ V)) (unsorted : List ρ) : List ρ :=
  (StableSort.sliceStable (fun i j => sortLess sortByExpressions (unsorted.get i) (unsorted.get j))
    (List.finRange unsorted.length)).map unsorted.get

/-- The fields of `PullSort` that `GetRows` reads and writes. -/
structure PullSort (ρ V : Type) where
  sortByExpressions : List (SortKey ρ V)
  maxRows : Nat
  rows : Option (List ρ)
  rowIndex : Nat
  rowIndex_le : rowIndex ≤ (rows.map List.length).getD 0

def NewPullSort (sortByExpressions : List (SortKey ρ V)) (maxRows : Nat) : PullSort ρ V :=
  ⟨sortByExpressions, maxRows, none, 0, Nat.zero_le _⟩

/-- The loop of `GetRows` that reads the child: the rows read, and the child
after. -/
def readChild (orderByMaxRows maxRows : Nat) (unsorted child : List ρ) : Except SortError (List ρ × List ρ) :=
  let batch := child.take queryBatchSize
  if batch.length = 0 then .ok (unsorted, child.drop queryBatchSize)
  else if unsorted.length + batch.length > maxRows then .error (.tooManyRows orderByMaxRows)
  else if batch.length < queryBatchSize then .ok (unsorted ++ batch, child.drop queryBatchSize)
  else readChild orderByMaxRows maxRows (unsorted ++ batch) (child.drop queryBatchSize)
termination_by child.length
decreasing_by
  -- the batch read is not empty, so neither is the child
  have : child ≠ [] := by rintro rfl; simp_all [batch]
  have : child.length ≠ 0 := by simpa using this
  simp only [List.length_drop, queryBatchSize]
  omega

/-- The paging of `GetRows` over the sorted rows: the next `limit` rows from
`rowIndex`. -/
def PullSort.page (p : PullSort ρ V) (rows : List ρ) (h : p.rowIndex ≤ rows.length) (limit : Nat) :
    PullSort ρ V × List ρ :=
  let rowsToGet := min (rows.length - p.rowIndex) limit
  ({ p with rows := some rows, rowIndex := p.rowIndex + rowsToGet, rowIndex_le := by simp; omega },
    (rows.drop p.rowIndex).take rowsToGet)

omit [Ord V] in
theorem PullSort.rowIndex_le_length {p : PullSort ρ V} {rows : List ρ} (h : p.rows = some rows) :
    p.rowIndex ≤ rows.length := by
  simpa [h] using p.rowIndex_le

omit [Ord V] in
theorem PullSort.rowIndex_eq_zero {p : PullSort ρ V} (h : p.rows = none) : p.rowIndex = 0 := by
  simpa [h] using p.rowIndex_le

/-- `PullSort.GetRows`: the sort after the call, the child after it and the
rows returned. -/
def PullSort.GetRows (orderByMaxRows : Nat) (p : PullSort ρ V) (child : List ρ) (limit : Int) :
    Except SortError (PullSort ρ V × List ρ × List ρ) :=
  if limit < 1 then .error (.invalidLimit limit)
  else
    let maxRows := getOrderByMaxRows orderByMaxRows p.maxRows
    match hRows : p.rows with
    | some rows =>
      let r := p.page rows (p.rowIndex_le_length hRows) limit.toNat
      .ok (r.1, child, r.2)
    | none =>
      match readChild orderByMaxRows maxRows [] child with
      | .error e => .error e
      | .ok (unsorted, child) =>
        if unsorted.length < 2 then .ok (p, child, unsorted)
        else
          let r := p.page (sortRows p.sortByExpressions unsorted)
            (by rw [p.rowIndex_eq_zero hRows]; exact Nat.zero_le _) limit.toNat
          .ok (r.1, child, r.2)

/-- A caller's calls of `GetRows`, one per limit, until the first error: the
rows of each call. -/
def PullSort.runGetRows (orderByMaxRows : Nat) : PullSort ρ V → List ρ → List Int → Except SortError (List (List ρ))
  | _, _, [] => .ok []
  | p, child, limit :: limits =>
    match p.GetRows orderByMaxRows child limit with
    | .error e => .error e
    | .ok (p, child, batch) => (runGetRows orderByMaxRows p child limits).map (batch :: ·)

end


/-! ## The order of `ORDER BY` -/

section Order

variable {ρ V : Type} [Ord V]

/-- The order of one sort expression: NULL before every value, and all of it
the other way round for a descending expression. -/
def keyCmp (k : SortKey ρ V) : ρ → ρ → Ordering :=
  if k.descending then fun row1 row2 => compareOn k.expr row2 row1 else compareOn k.expr

def rowCmp (sortByExpressions : List (SortKey ρ V)) : ρ → ρ → Ordering :=
  StableSort.lexCmp (sortByExpressions.map keyCmp)

theorem keyCmp_apply (k : SortKey ρ V) (row1 row2 : ρ) :
    keyCmp k row1 row2 =
      if k.descending then compare (k.expr row2) (k.expr row1) else compare (k.expr row1) (k.expr row2) := by
  unfold keyCmp
  split <;> rfl

theorem rowCmp_cons (k : SortKey ρ V) (sortByExpressions : List (SortKey ρ V)) (row1 row2 : ρ) :
    rowCmp (k :: sortByExpressions) row1 row2 = (keyCmp k row1 row2).then (rowCmp sortByExpressions row1 row2) :=
  rfl

instance [Std.TransOrd V] (k : SortKey ρ V) : Std.TransCmp (keyCmp k) := by
  unfold keyCmp
  split <;> infer_instance

instance [Std.TransOrd V] (sortByExpressions : List (SortKey ρ V)) : Std.TransCmp (rowCmp sortByExpressions) :=
  StableSort.transCmp_lexCmp _ (List.forall_mem_map.mpr fun _ _ => inferInstance)

theorem sortLess_eq_lessOf [Std.OrientedOrd V] : ∀ (sortByExpressions : List (SortKey ρ V)) (row1 row2 : ρ),
    sortLess sortByExpressions row1 row2 = StableSort.lessOf (rowCmp sortByExpressions) row1 row2
  | [], _, _ => rfl
  | k :: sortByExpressions, row1, row2 => by
    have ih := sortLess_eq_lessOf sortByExpressions row1 row2
    rw [StableSort.lessOf] at ih
    rw [StableSort.lessOf, rowCmp_cons, keyCmp_apply]
    cases h1 : k.expr row1 with
    | none =>
      cases h2 : k.expr row2 <;> cases hd : k.descending <;> simp [sortLess, h1, h2, hd, ih, compare]
    | some val1 =>
      cases h2 : k.expr row2 with
      | none => cases hd : k.descending <;> simp [sortLess, h1, h2, hd, compare]
      | some val2 =>
        have hSwap : compare val2 val1 = (compare val1 val2).swap := Std.OrientedCmp.eq_swap
        cases hc : compare val1 val2 <;> cases hd : k.descending <;>
          simp [sortLess, h1, h2, hd, hc, hSwap, ih, compare]

end Order


/-! ## The sorted rows -/

section Sorted

variable {ρ V : Type} [Ord V] [Std.TransOrd V] (sortByExpressions : List (SortKey ρ V))

theorem sortRows_eq_sliceStable (unsorted : List ρ) :
    sortRows sortByExpressions unsorted =
      StableSort.sliceStable (StableSort.lessOf (rowCmp sortByExpressions)) unsorted := by
  rw [sortRows, StableSort.map_sliceStable, List.map_get_finRange]
  congr 1
  funext row1 row2
  exact sortLess_eq_lessOf sortByExpressions row1 row2

theorem perm_sortRows (unsorted : List ρ) : (sortRows sortByExpressions unsorted).Perm unsorted := by
  rw [sortRows_eq_sliceStable]
  exact StableSort.perm_sliceStable _ unsorted

theorem sorted_sortRows (unsorted : List ρ) :
    StableSort.Sorted (rowCmp sortByExpressions) (sortRows sortByExpressions unsorted) := by
  rw [sortRows_eq_sliceStable]
  exact StableSort.sorted_sliceStable unsorted

theorem ties_sortRows (k : ρ) (unsorted : List ρ) :
    StableSort.ties (rowCmp sortByExpressions) k (sortRows sortByExpressions unsorted) =
      StableSort.ties (rowCmp sortByExpressions) k unsorted := by
  rw [sortRows_eq_sliceStable]
  exact StableSort.ties_sliceStable k unsorted

theorem eq_sortRows {unsorted rows : List ρ} (hSorted : StableSort.Sorted (rowCmp sortByExpressions) rows)
    (hTies : ∀ k, StableSort.ties (rowCmp sortByExpressions) k rows = StableSort.ties (rowCmp sortByExpressions) k unsorted) :
    rows = sortRows sortByExpressions unsorted := by
  rw [sortRows_eq_sliceStable]
  exact StableSort.eq_sliceStable hSorted hTies

theorem sortRows_of_length_lt_two {unsorted : List ρ} (h : unsorted.length < 2) :
    sortRows sortByExpressions unsorted = unsorted := by
  rw [sortRows_eq_sliceStable, StableSort.sliceStable]
  apply List.mergeSort_of_pairwise
  match unsorted, h with
  | [], _ => exact List.Pairwise.nil
  | [_], _ => exact List.pairwise_singleton _ _

end Sorted

/-! ## Reading the child -/

section Read

variable {ρ : Type} (orderByMaxRows maxRows : Nat)

theorem take_queryBatchSize_eq_nil {child : List ρ} : child.take queryBatchSize = [] ↔ child = [] := by
  simp [queryBatchSize]

theorem take_queryBatchSize_of_lt {child : List ρ} (h : (child.take queryBatchSize).length < queryBatchSize) :
    child.take queryBatchSize = child ∧ child.drop queryBatchSize = [] := by
  have hShort : child.length ≤ queryBatchSize := by
    rw [List.length_take] at h
    omega
  exact ⟨List.take_of_length_le hShort, List.drop_of_length_le hShort⟩

theorem readChild_ok (unsorted child : List ρ) (hFits : unsorted.length + child.length ≤ maxRows) :
    readChild orderByMaxRows maxRows unsorted child = .ok (unsorted ++ child, []) := by
  rw [readChild]
  by_cases hEmpty : (child.take queryBatchSize).length = 0
  · have hNil : child = [] := take_queryBatchSize_eq_nil.mp (List.length_eq_zero_iff.mp hEmpty)
    subst hNil
    simp
  have hLe : (child.take queryBatchSize).length ≤ child.length := List.length_take_le' _ _
  rw [if_neg hEmpty, if_neg (by omega)]
  by_cases hShort : (child.take queryBatchSize).length < queryBatchSize
  · obtain ⟨hTake, hDrop⟩ := take_queryBatchSize_of_lt hShort
    rw [if_pos hShort, hTake, hDrop]
  · rw [if_neg hShort, readChild_ok (unsorted ++ child.take queryBatchSize) (child.drop queryBatchSize)
      (by simp only [List.length_append, List.length_drop, List.length_take] at hShort ⊢; omega),
      List.append_assoc, List.take_append_drop]
termination_by child.length
decreasing_by
  have : child.length ≠ 0 := fun h => hEmpty (by simp [List.length_eq_zero_iff.mp h])
  simp only [List.length_drop, queryBatchSize]
  omega

theorem readChild_tooManyRows (unsorted child : List ρ) (hRead : unsorted.length ≤ maxRows)
    (hMany : maxRows < unsorted.length + child.length) :
    readChild orderByMaxRows maxRows unsorted child = .error (.tooManyRows orderByMaxRows) := by
  rw [readChild]
  have hEmpty : (child.take queryBatchSize).length ≠ 0 := by
    intro h
    rw [List.length_eq_zero_iff, take_queryBatchSize_eq_nil] at h
    subst h
    simp at hMany
    omega
  rw [if_neg hEmpty]
  by_cases hOver : unsorted.length + (child.take queryBatchSize).length > maxRows
  · rw [if_pos hOver]
  rw [if_neg hOver]
  have hFull : ¬(child.take queryBatchSize).length < queryBatchSize := by
    intro hShort
    rw [(take_queryBatchSize_of_lt hShort).1] at hOver
    omega
  rw [if_neg hFull, readChild_tooManyRows (unsorted ++ child.take queryBatchSize) (child.drop queryBatchSize)
    (by simp only [List.length_append]; omega)
    (by simp only [List.length_append, List.length_drop, List.length_take] at hOver hFull ⊢; omega)]
termination_by child.length
decreasing_by
  have : child.length ≠ 0 := fun h => hEmpty (by simp [List.length_eq_zero_iff.mp h])
  simp only [List.length_drop, queryBatchSize]
  omega

end Read


/-! ## One call -/

section Calls

variable {ρ V : Type}

@[simp] theorem PullSort.page_rows (p : PullSort ρ V) (rows : List ρ) (h : p.rowIndex ≤ rows.length) (limit : Nat) :
    (p.page rows h limit).1.rows = some rows := rfl

@[simp] theorem PullSort.page_sortByExpressions (p : PullSort ρ V) (rows : List ρ) (h : p.rowIndex ≤ rows.length)
    (limit : Nat) : (p.page rows h limit).1.sortByExpressions = p.sortByExpressions := rfl

@[simp] theorem PullSort.page_maxRows (p : PullSort ρ V) (rows : List ρ) (h : p.rowIndex ≤ rows.length)
    (limit : Nat) : (p.page rows h limit).1.maxRows = p.maxRows := rfl

theorem PullSort.page_batch (p : PullSort ρ V) (rows : List ρ) (h : p.rowIndex ≤ rows.length) (limit : Nat) :
    (p.page rows h limit).2 = (rows.drop p.rowIndex).take limit := by
  simp only [PullSort.page]
  by_cases hLeft : rows.length - p.rowIndex ≤ limit
  · rw [Nat.min_eq_left hLeft, List.take_of_length_le (by simp), List.take_of_length_le (by simp; omega)]
  · rw [Nat.min_eq_right (by omega)]

theorem PullSort.drop_page (p : PullSort ρ V) (rows : List ρ) (h : p.rowIndex ≤ rows.length) (limit : Nat) :
    rows.drop (p.page rows h limit).1.rowIndex = (rows.drop p.rowIndex).drop limit := by
  simp only [PullSort.page, List.drop_drop]
  by_cases hLeft : rows.length - p.rowIndex ≤ limit
  · rw [Nat.min_eq_left hLeft, List.drop_of_length_le (by omega), List.drop_of_length_le (by omega)]
  · rw [Nat.min_eq_right (by omega)]

variable [Ord V] (orderByMaxRows : Nat)

theorem PullSort.GetRows_of_some {p : PullSort ρ V} {rows : List ρ} (hRows : p.rows = some rows) (child : List ρ)
    {limit : Int} (hLimit : 1 ≤ limit) :
    p.GetRows orderByMaxRows child limit =
      .ok ((p.page rows (p.rowIndex_le_length hRows) limit.toNat).1, child,
        (p.page rows (p.rowIndex_le_length hRows) limit.toNat).2) := by
  rw [PullSort.GetRows, if_neg (by omega)]
  split
  next rows' hRows' =>
    obtain rfl : rows' = rows := Option.some.inj (hRows'.symm.trans hRows)
    rfl
  next hNone => simp [hNone] at hRows

theorem PullSort.GetRows_of_none_short {p : PullSort ρ V} (hNone : p.rows = none) {child : List ρ}
    (hFits : child.length ≤ getOrderByMaxRows orderByMaxRows p.maxRows) (hShort : child.length < 2)
    {limit : Int} (hLimit : 1 ≤ limit) :
    p.GetRows orderByMaxRows child limit = .ok (p, [], child) := by
  rw [PullSort.GetRows, if_neg (by omega)]
  split
  next rows hRows => simp [hNone] at hRows
  next =>
    dsimp only
    rw [readChild_ok orderByMaxRows _ [] child (by simpa using hFits)]
    simp [hShort]

theorem PullSort.GetRows_of_none_sort {p : PullSort ρ V} (hNone : p.rows = none) {child : List ρ}
    (hFits : child.length ≤ getOrderByMaxRows orderByMaxRows p.maxRows) (hLong : 2 ≤ child.length)
    {limit : Int} (hLimit : 1 ≤ limit) :
    p.GetRows orderByMaxRows child limit =
      .ok ((p.page (sortRows p.sortByExpressions child) (p.rowIndex_eq_zero hNone ▸ Nat.zero_le _) limit.toNat).1, [],
        (p.page (sortRows p.sortByExpressions child) (p.rowIndex_eq_zero hNone ▸ Nat.zero_le _) limit.toNat).2) := by
  rw [PullSort.GetRows, if_neg (by omega)]
  split
  next rows hRows => simp [hNone] at hRows
  next =>
    dsimp only
    rw [readChild_ok orderByMaxRows _ [] child (by simpa using hFits)]
    simp [Nat.not_lt.mpr hLong]

theorem PullSort.GetRows_of_none_tooManyRows {p : PullSort ρ V} (hNone : p.rows = none) {child : List ρ}
    (hMany : getOrderByMaxRows orderByMaxRows p.maxRows < child.length) {limit : Int} (hLimit : 1 ≤ limit) :
    p.GetRows orderByMaxRows child limit = .error (.tooManyRows orderByMaxRows) := by
  rw [PullSort.GetRows, if_neg (by omega)]
  split
  next rows hRows => simp [hNone] at hRows
  next =>
    dsimp only
    rw [readChild_tooManyRows orderByMaxRows _ [] child (Nat.zero_le _) (by simpa using hMany)]

end Calls


/-! ## Runs of calls -/

section Runs

variable {ρ V : Type} [Ord V] (orderByMaxRows : Nat)

theorem map_flatten_cons {ε α : Type} (batch : List α) (x : Except ε (List (List α))) :
    (x.map (batch :: ·)).map List.flatten = (x.map List.flatten).map (batch ++ ·) := by
  cases x <;> rfl

theorem PullSort.runGetRows_of_some : ∀ (limits : List Int) {p : PullSort ρ V} {rows : List ρ} (child : List ρ),
    p.rows = some rows → (∀ limit ∈ limits, 1 ≤ limit) →
    (p.runGetRows orderByMaxRows child limits).map List.flatten =
      .ok ((rows.drop p.rowIndex).take (limits.map Int.toNat).sum)
  | [], _, _, _, _, _ => by simp [PullSort.runGetRows, Except.map]
  | limit :: limits, p, rows, child, hRows, hLimits => by
    have hRest : ∀ l ∈ limits, 1 ≤ l := fun l hl => hLimits l (List.mem_cons_of_mem _ hl)
    rw [PullSort.runGetRows, PullSort.GetRows_of_some orderByMaxRows hRows child (hLimits limit List.mem_cons_self)]
    dsimp only
    rw [map_flatten_cons, PullSort.runGetRows_of_some limits child (PullSort.page_rows _ _ _ _) hRest,
      PullSort.page_batch, PullSort.drop_page, List.map_cons, List.sum_cons, List.take_add]
    rfl

theorem PullSort.runGetRows_of_none [Std.TransOrd V] : ∀ (limits : List Int) {p : PullSort ρ V} (child : List ρ),
    p.rows = none → child.length ≤ getOrderByMaxRows orderByMaxRows p.maxRows → (∀ limit ∈ limits, 1 ≤ limit) →
    (p.runGetRows orderByMaxRows child limits).map List.flatten =
      .ok ((sortRows p.sortByExpressions child).take (limits.map Int.toNat).sum)
  | [], _, _, _, _, _ => by simp [PullSort.runGetRows, Except.map]
  | limit :: limits, p, child, hNone, hFits, hLimits => by
    have hLimit : 1 ≤ limit := hLimits limit List.mem_cons_self
    have hRest : ∀ l ∈ limits, 1 ≤ l := fun l hl => hLimits l (List.mem_cons_of_mem _ hl)
    rw [PullSort.runGetRows]
    by_cases hShort : child.length < 2
    · rw [PullSort.GetRows_of_none_short orderByMaxRows hNone hFits hShort hLimit]
      dsimp only
      rw [map_flatten_cons, PullSort.runGetRows_of_none limits [] hNone (Nat.zero_le _) hRest,
        sortRows_of_length_lt_two _ (by simp), sortRows_of_length_lt_two _ hShort, List.take_nil,
        List.take_of_length_le (by simp only [List.map_cons, List.sum_cons]; omega)]
      simp [Except.map]
    · rw [PullSort.GetRows_of_none_sort orderByMaxRows hNone hFits (by omega) hLimit]
      dsimp only
      rw [map_flatten_cons, PullSort.runGetRows_of_some orderByMaxRows limits [] (PullSort.page_rows _ _ _ _) hRest,
        PullSort.page_batch, PullSort.drop_page, p.rowIndex_eq_zero hNone, List.drop_zero, List.map_cons,
        List.sum_cons, List.take_add]
      rfl

theorem PullSort.runGetRows_tooManyRows {p : PullSort ρ V} (hNone : p.rows = none) {child : List ρ}
    (hMany : getOrderByMaxRows orderByMaxRows p.maxRows < child.length) {limit : Int} (hLimit : 1 ≤ limit)
    (limits : List Int) :
    p.runGetRows orderByMaxRows child (limit :: limits) = .error (.tooManyRows orderByMaxRows) := by
  rw [PullSort.runGetRows, PullSort.GetRows_of_none_tooManyRows orderByMaxRows hNone hMany hLimit]

/-- `ORDER BY` over a child of any rows: the calls of a caller return the
child's rows sorted by the sort expressions, up to the sum of their limits. A
caller that goes on until a call returns fewer rows than asked, as the
`PullExecutor` contract says, has them all. More rows than `maxRows` are
`TooManyRows` at the first call. The sorted rows are a permutation of the
child's, sorted by `rowCmp`, the rows that `rowCmp` cannot tell apart keep the
child's order, and no other list is all of these. -/
theorem PullSort_GetRows_sorted_pages [Std.TransOrd V] (maxRows : Nat) (sortByExpressions : List (SortKey ρ V))
    (child : List ρ) (limits : List Int) (hLimits : ∀ limit ∈ limits, 1 ≤ limit) :
    (child.length ≤ getOrderByMaxRows orderByMaxRows maxRows →
      ∃ batches, (NewPullSort sortByExpressions maxRows).runGetRows orderByMaxRows child limits = .ok batches ∧
        batches.flatten = (sortRows sortByExpressions child).take (limits.map Int.toNat).sum ∧
        (batches.flatten.length < (limits.map Int.toNat).sum → batches.flatten = sortRows sortByExpressions child) ∧
        (child.length ≤ (limits.map Int.toNat).sum → batches.flatten = sortRows sortByExpressions child)) ∧
    (getOrderByMaxRows orderByMaxRows maxRows < child.length → limits ≠ [] →
      (NewPullSort sortByExpressions maxRows).runGetRows orderByMaxRows child limits =
        .error (.tooManyRows orderByMaxRows)) ∧
    (sortRows sortByExpressions child).Perm child ∧
    StableSort.Sorted (rowCmp sortByExpressions) (sortRows sortByExpressions child) ∧
    (∀ k, StableSort.ties (rowCmp sortByExpressions) k (sortRows sortByExpressions child) =
      StableSort.ties (rowCmp sortByExpressions) k child) ∧
    ∀ rows : List ρ, StableSort.Sorted (rowCmp sortByExpressions) rows →
      (∀ k, StableSort.ties (rowCmp sortByExpressions) k rows = StableSort.ties (rowCmp sortByExpressions) k child) →
        rows = sortRows sortByExpressions child := by
  refine ⟨?_, ?_, perm_sortRows _ child, sorted_sortRows _ child, fun k => ties_sortRows _ k child,
    fun rows hSorted hTies => eq_sortRows _ hSorted hTies⟩
  · intro hFits
    have hRun : ((NewPullSort sortByExpressions maxRows).runGetRows orderByMaxRows child limits).map List.flatten =
        .ok ((sortRows sortByExpressions child).take (limits.map Int.toNat).sum) :=
      PullSort.runGetRows_of_none orderByMaxRows limits child rfl hFits hLimits
    obtain ⟨batches, hOk, hFlat⟩ : ∃ batches,
        (NewPullSort sortByExpressions maxRows).runGetRows orderByMaxRows child limits = .ok batches ∧
          batches.flatten = (sortRows sortByExpressions child).take (limits.map Int.toNat).sum := by
      cases hR : (NewPullSort sortByExpressions maxRows).runGetRows orderByMaxRows child limits with
      | error e =>
        rw [hR] at hRun
        cases hRun
      | ok batches =>
        rw [hR] at hRun
        exact ⟨batches, rfl, Except.ok.inj hRun⟩
    have hLen : (sortRows sortByExpressions child).length = child.length := (perm_sortRows _ child).length_eq
    refine ⟨batches, hOk, hFlat, fun hShort => ?_, fun hAll => ?_⟩
    · -- a short return means the sorted rows ran out before the limits did
      rw [hFlat, List.length_take] at hShort
      rw [hFlat, List.take_of_length_le (by omega)]
    · rw [hFlat, List.take_of_length_le (by omega)]
  · intro hMany hNonempty
    obtain ⟨limit, limits, rfl⟩ := List.exists_cons_of_ne_nil hNonempty
    exact PullSort.runGetRows_tooManyRows orderByMaxRows rfl hMany (hLimits limit List.mem_cons_self) limits

theorem PullSort_GetRows_sorted_pages_three_rows :
    (∀ limit ∈ ([2, 2] : List Int), 1 ≤ limit) ∧
      ∃ batches, (NewPullSort [(⟨some, false⟩ : SortKey Nat Nat)] 10).runGetRows 0 [2, 1, 3] [2, 2] = .ok batches ∧
        batches.flatten = sortRows [(⟨some, false⟩ : SortKey Nat Nat)] [2, 1, 3] := by
  have hLimits : ∀ limit ∈ ([2, 2] : List Int), 1 ≤ limit := by simp
  obtain ⟨batches, hRun, -, -, hAll⟩ :=
    (PullSort_GetRows_sorted_pages 0 10 [⟨some, false⟩] [2, 1, 3] [2, 2] hLimits).1 (by decide)
  exact ⟨hLimits, batches, hRun, hAll (by decide)⟩

end Runs

end PranaDB
