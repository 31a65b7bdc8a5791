import PranaDB.Push.Aggregator

/-! # The stateless operators of a push DAG

`PushSelect` (`push/exec/select.go`) keeps the changes whose rows pass its
predicates: an update whose previous row passes and whose current row does not
becomes a delete, and the other way round an insert. `PushProjection`
(`push/exec/projection.go`) computes its columns from each row and appends the
child's key columns it does not project as hidden columns. `UnionAll`
(`push/exec/union_all.go`) copies the rows of each branch and keys them by a
generated id, the branch index followed by the row's key in its branch.

An expression is a column of the row or an integer constant, as in the
aggregator. A predicate is an expression read as a boolean (`EvalBoolean`, an
integer that is not zero). DECIMAL columns are not covered, so the default
branches of the type switches are not reached except where a type has no case.
-/

namespace PranaDB
set_option autoImplicit false

open ExceptRun

/-- `Expression.EvalBoolean`: whether the integer value is not zero, and
whether it is NULL. -/
def Expression.EvalBoolean (e : Expression) (row : Row) : Except String (Bool × Bool) := do
  let (val, null) ← e.EvalInt64 row
  pure (val != 0, null)

def Expression.GetColumnIndex : Expression → Option Nat
  | .column colIndex => some colIndex
  | .constInt _ => none

/-- `Expression.ReturnType`: the type of the column, `BIGINT` for an integer
constant. -/
def Expression.ReturnType (e : Expression) (colTypes : List ColumnType) : Except String ColumnType :=
  match e with
  | .column colIndex =>
    match colTypes[colIndex]? with
    | some colType => .ok colType
    | none => .error "index out of range"
  | .constInt _ => .ok .bigInt

/-- The value of the expression as a cell: `EvalDecimal`, `EvalFloat64`,
`EvalString` and `EvalTimestamp` on a column of that type. -/
def Expression.Eval (e : Expression) (row : Row) : Except String (Option Datum) :=
  match e with
  | .constInt val => .ok (some (.int64 val))
  | .column colIndex =>
    match row[colIndex]? with
    | some cell => .ok cell
    | none => .error "index out of range"

/-! ## `PushSelect` -/

namespace PushSelect

/-- `evalPredicates`: every predicate true; a NULL is an error. -/
def evalPredicates : List Expression → Row → Except String Bool
  | [], _ => .ok true
  | predicate :: predicates, row => do
    let (accept, isNull) ← predicate.EvalBoolean row
    if isNull then throw "null returned from evaluating select predicate"
    if !accept then pure false else evalPredicates predicates row

/-- The loop of `PushSelect.HandleRows` at one change: an insert, an update
or a delete kept, turned into another, or dropped. -/
def selectEntry (predicates : List Expression) (rowsBatch : RowsBatch) (resultBatch : RowsBatch)
    (entry : RowsEntry) : Except String RowsBatch := do
  let currRow ← rowsBatch.CurrentRow entry
  let prevRow ← rowsBatch.PreviousRow entry
  let receiverIndex := entry.receiverIndex
  match prevRow, currRow with
  | none, some currRow =>
    let ok ← evalPredicates predicates currRow
    pure (if ok then resultBatch.AppendEntry none (some currRow) receiverIndex else resultBatch)
  | some prevRow, some currRow =>
    let okCurr ← evalPredicates predicates currRow
    let okPrev ← evalPredicates predicates prevRow
    pure <|
      if okCurr && okPrev then resultBatch.AppendEntry (some prevRow) (some currRow) receiverIndex
      else if !okCurr && okPrev then resultBatch.AppendEntry (some prevRow) none receiverIndex
      else if okCurr && !okPrev then resultBatch.AppendEntry none (some currRow) receiverIndex
      else resultBatch
  | some prevRow, none =>
    let ok ← evalPredicates predicates prevRow
    pure (if ok then resultBatch.AppendEntry (some prevRow) none receiverIndex else resultBatch)
  | none, none => pure resultBatch

def selectLoop (predicates : List Expression) (rowsBatch : RowsBatch) : Except String RowsBatch :=
  rowsBatch.entries.foldlM (selectEntry predicates rowsBatch) ⟨[], []⟩

/-- `PushSelect.HandleRows`: the parent is called when a change is left. -/
def HandleRows (predicates : List Expression)
    (parent : RowsBatch → ExecutionContext → Except String ExecutionContext) (rowsBatch : RowsBatch)
    (ctx : ExecutionContext) : Except String ExecutionContext := do
  let resultBatch ← selectLoop predicates rowsBatch
  if resultBatch.entries.length > 0 then parent resultBatch ctx else pure ctx

/-! ### What SQL's WHERE keeps -/

/-- The rows SQL's WHERE keeps: those on which every predicate is TRUE. A NULL
predicate, like a FALSE one, drops the row. -/
def whereKeeps : List Expression → Row → Except String Bool
  | [], _ => .ok true
  | predicate :: predicates, row => do
    let (accept, isNull) ← predicate.EvalBoolean row
    if isNull || !accept then pure false else whereKeeps predicates row

def selectChange (keep : Row → Bool) (c : Option Row × Option Row) : Option Row × Option Row :=
  (c.1.filter keep, c.2.filter keep)

theorem evalPredicates_of_whereKeeps :
    ∀ (predicates : List Expression) (row : Row) (b : Bool), whereKeeps predicates row = .ok b →
      evalPredicates predicates row = .ok b ∨
        (b = false ∧ evalPredicates predicates row = .error "null returned from evaluating select predicate")
  | [], _, _, h => Or.inl h
  | predicate :: predicates, row, b, h => by
    rw [whereKeeps] at h
    obtain ⟨⟨accept, isNull⟩, hEval, h⟩ := bind_eq_ok.mp h
    rw [evalPredicates, hEval, ok_bind]
    cases isNull with
    | true =>
      cases pure_eq_ok.mp h
      exact Or.inr ⟨rfl, rfl⟩
    | false =>
      cases accept with
      | false =>
        cases pure_eq_ok.mp h
        exact Or.inl rfl
      | true => exact evalPredicates_of_whereKeeps predicates row b h

theorem changePairs_cons (rows : List Row) (entry : RowsEntry) (entries : List RowsEntry) :
    changePairs ⟨rows, entry :: entries⟩ = (do
      let prev ← rowAt rows entry.prevIndex
      let curr ← rowAt rows entry.currIndex
      let pairs ← changePairs ⟨rows, entries⟩
      pure ((prev, curr) :: pairs)) := by
  simp only [changePairs, List.mapM_cons, RowsBatch.PreviousRow, RowsBatch.CurrentRow, bind_assoc, pure_bind]

theorem selectEntry_eq {predicates : List Expression} {keep : Row → Bool} {rowsBatch resultBatch : RowsBatch}
    {entry : RowsEntry} {prev curr : Option Row} (hPrev : rowsBatch.PreviousRow entry = .ok prev)
    (hCurr : rowsBatch.CurrentRow entry = .ok curr)
    (hKeep : ∀ row, (prev = some row ∨ curr = some row) → evalPredicates predicates row = .ok (keep row)) :
    selectEntry predicates rowsBatch resultBatch entry =
      .ok (if selectChange keep (prev, curr) = (none, none) then resultBatch
        else resultBatch.AppendEntry (selectChange keep (prev, curr)).1 (selectChange keep (prev, curr)).2
          entry.receiverIndex) := by
  rw [selectEntry, hCurr, ok_bind, hPrev, ok_bind]
  cases prev with
  | none =>
    cases curr with
    | none => rfl
    | some currRow =>
      simp only [hKeep currRow (Or.inr rfl), ok_bind]
      cases hk : keep currRow <;> simp [selectChange, Option.filter, hk, pure, Except.pure]
  | some prevRow =>
    cases curr with
    | none =>
      simp only [hKeep prevRow (Or.inl rfl), ok_bind]
      cases hk : keep prevRow <;> simp [selectChange, Option.filter, hk, pure, Except.pure]
    | some currRow =>
      simp only [hKeep currRow (Or.inr rfl), hKeep prevRow (Or.inl rfl), ok_bind]
      cases hk : keep currRow <;> cases hk' : keep prevRow <;>
        simp [selectChange, Option.filter, hk, hk', pure, Except.pure]

theorem foldlM_selectEntry (predicates : List Expression) (keep : Row → Bool) (rowsBatch : RowsBatch) :
    ∀ (entries : List RowsEntry) (pairs : List (Option Row × Option Row)) (out : RowsBatch),
      out.WellFormed → changePairs ⟨rowsBatch.rows, entries⟩ = .ok pairs →
      (∀ c ∈ pairs, ∀ row, (c.1 = some row ∨ c.2 = some row) → evalPredicates predicates row = .ok (keep row)) →
        ∃ out', entries.foldlM (selectEntry predicates rowsBatch) out = .ok out' ∧ out'.WellFormed ∧
          changePairs out' = (changePairs out).map (· ++ (pairs.map (selectChange keep)).filter (· ≠ (none, none)))
  | [], pairs, out, hWF, hPairs, _ => by
    rw [changePairs, List.mapM_nil, pure_eq_ok] at hPairs
    subst hPairs
    refine ⟨out, rfl, hWF, ?_⟩
    cases changePairs out <;> simp [Except.map]
  | entry :: entries, pairs, out, hWF, hPairs, hKeep => by
    rw [changePairs_cons] at hPairs
    obtain ⟨prev, hPrev, hPairs⟩ := bind_eq_ok.mp hPairs
    obtain ⟨curr, hCurr, hPairs⟩ := bind_eq_ok.mp hPairs
    obtain ⟨rest, hRest, hPairs⟩ := bind_eq_ok.mp hPairs
    cases pure_eq_ok.mp hPairs
    have hStep := @selectEntry_eq predicates keep rowsBatch out entry prev curr hPrev hCurr
      fun row hRow => hKeep (prev, curr) List.mem_cons_self row hRow
    obtain ⟨out₁, hOut₁, hWF₁, hPairs₁⟩ : ∃ out₁, selectEntry predicates rowsBatch out entry = .ok out₁ ∧
        out₁.WellFormed ∧ changePairs out₁ = (changePairs out).map
          (· ++ ([(prev, curr)].map (selectChange keep)).filter (· ≠ (none, none))) := by
      rw [hStep]
      refine ⟨_, rfl, ?_, ?_⟩
      · split
        · exact hWF
        · exact RowsBatch.WellFormed.AppendEntry hWF _ _ _
      · split
        · rename_i hNone
          cases changePairs out <;> simp [Except.map, hNone]
        · rename_i hSome
          rw [changePairs_AppendEntry hWF]
          cases changePairs out <;> simp [Except.map, hSome]
    obtain ⟨out', hRun, hWF', hPairs'⟩ := foldlM_selectEntry predicates keep rowsBatch entries rest out₁ hWF₁ hRest
      fun c hc => hKeep c (List.mem_cons_of_mem _ hc)
    refine ⟨out', ?_, hWF', ?_⟩
    · rw [List.foldlM_cons, hOut₁, ok_bind, hRun]
    · rw [hPairs', hPairs₁]
      cases changePairs out with
      | error e => rfl
      | ok ps =>
        simp only [Except.map, List.map_cons, List.map_nil, List.filter_cons, List.filter_nil]
        split <;> simp

theorem selectLoop_eq {predicates : List Expression} {keep : Row → Bool} {rowsBatch : RowsBatch}
    {pairs : List (Option Row × Option Row)} (hPairs : changePairs rowsBatch = .ok pairs)
    (hKeep : ∀ c ∈ pairs, ∀ row, (c.1 = some row ∨ c.2 = some row) →
      evalPredicates predicates row = .ok (keep row)) :
    ∃ out, selectLoop predicates rowsBatch = .ok out ∧
      changePairs out = .ok ((pairs.map (selectChange keep)).filter (· ≠ (none, none))) := by
  obtain ⟨out, hRun, -, hOut⟩ :=
    foldlM_selectEntry predicates keep rowsBatch rowsBatch.entries pairs ⟨[], []⟩ wellFormed_empty hPairs hKeep
  exact ⟨out, hRun, hOut⟩

end PushSelect

/-! ## `PushProjection` -/

/-- The schema `calculateSchema` computes and `HandleRows` reads. -/
structure PushProjection where
  projColumns : List Expression
  colTypes : List ColumnType
  keyCols : List Nat
  invisibleKeyColsInChild : List Nat

namespace PushProjection

/-- The loop of `calculateSchema` over the child's key columns: a key column
the projection holds is keyed there, another one becomes a hidden column. -/
def keyColsLoop (childColTypes : List ColumnType) (projColumnsMap : AList fun _ : Nat => Nat) :
    List Nat → PushProjection → Except String PushProjection
  | [], p => .ok p
  | childKeyCol :: childKeyCols, p =>
    match projColumnsMap.lookup childKeyCol with
    | some projIndex => keyColsLoop childColTypes projColumnsMap childKeyCols { p with keyCols := p.keyCols ++ [projIndex] }
    | none =>
      match childColTypes[childKeyCol]? with
      | some colType =>
        keyColsLoop childColTypes projColumnsMap childKeyCols
          { p with keyCols := p.keyCols ++ [p.projColumns.length + p.invisibleKeyColsInChild.length],
                   invisibleKeyColsInChild := p.invisibleKeyColsInChild ++ [childKeyCol],
                   colTypes := p.colTypes ++ [colType] }
      | none => .error "index out of range"

def calculateSchema (projColumns : List Expression) (childColTypes : List ColumnType) (childKeyCols : List Nat) :
    Except String PushProjection := do
  let colTypes ← projColumns.mapM (·.ReturnType childColTypes)
  let projColumnsMap := projColumns.zipIdx.foldl (fun (m : AList fun _ : Nat => Nat) (projExpr, projIndex) =>
    match projExpr.GetColumnIndex with
    | some colIndex => m.insert colIndex projIndex
    | none => m) ∅
  keyColsLoop childColTypes projColumnsMap childKeyCols ⟨projColumns, colTypes, [], []⟩

def projectColumn (colType : ColumnType) (projColumn : Expression) (row : Row) : Except String (Option Datum) :=
  match colType with
  | .tinyInt | .int | .bigInt => do
    let (val, null) ← projColumn.EvalInt64 row
    pure (if null then none else some (.int64 val))
  | .decimal _ _ | .double | .varchar | .timestamp _ => projColumn.Eval row

/-- The type switch of `calcProjection` on a hidden key column: it has no case
for `TIMESTAMP`. -/
def hiddenKeyValue (colType : ColumnType) (row : Row) (colNumber : Nat) : Except String (Option Datum) :=
  match colType with
  | .tinyInt | .int | .bigInt | .decimal _ _ | .double | .varchar =>
    match row[colNumber]? with
    | some cell => .ok cell
    | none => .error "index out of range"
  | .timestamp _ => .error "unexpected column type"

/-- `calcProjection`: the projected columns, then the hidden key columns. -/
def calcProjection (p : PushProjection) (row : Row) : Except String Row := do
  let visible ← p.projColumns.zipIdx.mapM fun (projColumn, j) =>
    match p.colTypes[j]? with
    | some colType => projectColumn colType projColumn row
    | none => .error "index out of range"
  let hidden ← p.invisibleKeyColsInChild.zipIdx.mapM fun (colNumber, index) =>
    match p.colTypes[p.projColumns.length + index]? with
    | some colType => hiddenKeyValue colType row colNumber
    | none => .error "index out of range"
  pure (visible ++ hidden)

def projectEntry (p : PushProjection) (rowsBatch : RowsBatch) (result : RowsBatch) (entry : RowsEntry) :
    Except String RowsBatch := do
  let prevRow ← rowsBatch.PreviousRow entry
  let prevRow ← match prevRow with
    | some prevRow => some <$> p.calcProjection prevRow
    | none => pure none
  let currRow ← rowsBatch.CurrentRow entry
  let currRow ← match currRow with
    | some currRow => some <$> p.calcProjection currRow
    | none => pure none
  pure (result.AppendEntry prevRow currRow entry.receiverIndex)

def HandleRows (p : PushProjection) (parent : RowsBatch → ExecutionContext → Except String ExecutionContext)
    (rowsBatch : RowsBatch) (ctx : ExecutionContext) : Except String ExecutionContext := do
  let result ← rowsBatch.entries.foldlM (p.projectEntry rowsBatch) ⟨[], []⟩
  parent result ctx

/-! ### The hidden key columns -/

/-- The schema's hidden columns so far: one type per hidden column, that of
the child's key column it copies. -/
def HiddenTyped (childColTypes : List ColumnType) (p : PushProjection) : Prop :=
  p.colTypes.length = p.projColumns.length + p.invisibleKeyColsInChild.length ∧
    ∀ index colNumber, p.invisibleKeyColsInChild[index]? = some colNumber →
      p.colTypes[p.projColumns.length + index]? = childColTypes[colNumber]?

theorem keyColsLoop_hidden (childColTypes : List ColumnType) (projColumnsMap : AList fun _ : Nat => Nat) :
    ∀ (childKeyCols : List Nat) (p p' : PushProjection), HiddenTyped childColTypes p →
      keyColsLoop childColTypes projColumnsMap childKeyCols p = .ok p' →
        HiddenTyped childColTypes p' ∧ p'.projColumns = p.projColumns ∧
          (∀ c ∈ p.invisibleKeyColsInChild, c ∈ p'.invisibleKeyColsInChild) ∧
          ∀ childKeyCol ∈ childKeyCols, projColumnsMap.lookup childKeyCol = none →
            childKeyCol ∈ p'.invisibleKeyColsInChild
  | [], p, p', hTyped, h => by
    cases h
    exact ⟨hTyped, rfl, fun _ hc => hc, fun _ hc => absurd hc List.not_mem_nil⟩
  | childKeyCol :: childKeyCols, p, p', hTyped, h => by
    rw [keyColsLoop] at h
    split at h
    · -- a key column the projection holds
      rename_i projIndex hLookup
      obtain ⟨hTyped', hProj, hKept, hHidden⟩ := keyColsLoop_hidden childColTypes projColumnsMap childKeyCols
        { p with keyCols := p.keyCols ++ [projIndex] } p' hTyped h
      refine ⟨hTyped', hProj, hKept, fun c hc hNone => ?_⟩
      rcases List.mem_cons.mp hc with rfl | hc
      · rw [hLookup] at hNone
        cases hNone
      · exact hHidden c hc hNone
    · split at h
      · -- a hidden column, typed as the child's key column
        rename_i colType hColType
        obtain ⟨hLen, hTypes⟩ := hTyped
        have hTyped₁ : HiddenTyped childColTypes { p with
            keyCols := p.keyCols ++ [p.projColumns.length + p.invisibleKeyColsInChild.length],
            invisibleKeyColsInChild := p.invisibleKeyColsInChild ++ [childKeyCol],
            colTypes := p.colTypes ++ [colType] } := by
          refine ⟨by simp only [List.length_append, List.length_singleton, hLen]; omega,
            fun index colNumber hIndex => ?_⟩
          dsimp only at hIndex ⊢
          by_cases hOld : index < p.invisibleKeyColsInChild.length
          · rw [List.getElem?_append_left hOld] at hIndex
            rw [List.getElem?_append_left (by omega)]
            exact hTypes index colNumber hIndex
          · have hNew : index = p.invisibleKeyColsInChild.length := by
              have := (List.getElem?_eq_some_iff.mp hIndex).1
              simp only [List.length_append, List.length_singleton] at this
              omega
            subst hNew
            rw [List.getElem?_append_right (Nat.le_refl _), Nat.sub_self] at hIndex
            cases hIndex
            rw [List.getElem?_append_right (by omega), hColType, hLen, Nat.sub_self]
            rfl
        obtain ⟨hTyped', hProj, hKept, hHidden⟩ :=
          keyColsLoop_hidden childColTypes projColumnsMap childKeyCols _ p' hTyped₁ h
        refine ⟨hTyped', hProj, fun c hc => hKept c (List.mem_append_left _ hc), fun c hc hNone => ?_⟩
        rcases List.mem_cons.mp hc with rfl | hc
        · exact hKept _ (List.mem_append_right _ (List.mem_singleton_self _))
        · exact hHidden c hc hNone
      · cases h

theorem lookup_projColumnsMap {childKeyCol : Nat} :
    ∀ (cols : List (Expression × Nat)) (m : AList fun _ : Nat => Nat), m.lookup childKeyCol = none →
      (∀ x ∈ cols, x.1.GetColumnIndex ≠ some childKeyCol) →
        (cols.foldl (fun (m : AList fun _ : Nat => Nat) (projExpr, projIndex) =>
          match projExpr.GetColumnIndex with
          | some colIndex => m.insert colIndex projIndex
          | none => m) m).lookup childKeyCol = none
  | [], _, hm, _ => hm
  | (projExpr, projIndex) :: cols, m, hm, h => by
    rw [List.foldl_cons]
    apply lookup_projColumnsMap cols _ _ fun x hx => h x (List.mem_cons_of_mem _ hx)
    dsimp only
    split
    · rename_i colIndex hCol
      have hNe : childKeyCol ≠ colIndex := fun hEq => h _ List.mem_cons_self (hEq ▸ hCol)
      rw [AList.lookup_insert_ne hNe]
      exact hm
    · exact hm

theorem calculateSchema_hidden {projColumns : List Expression} {childColTypes : List ColumnType}
    {childKeyCols : List Nat} {p : PushProjection} (h : calculateSchema projColumns childColTypes childKeyCols = .ok p)
    {childKeyCol : Nat} (hKey : childKeyCol ∈ childKeyCols)
    (hOut : ∀ e ∈ projColumns, e.GetColumnIndex ≠ some childKeyCol) :
    ∃ index, (childKeyCol, index) ∈ p.invisibleKeyColsInChild.zipIdx ∧
      p.colTypes[p.projColumns.length + index]? = childColTypes[childKeyCol]? := by
  unfold calculateSchema at h
  obtain ⟨colTypes, hColTypes, h⟩ := bind_eq_ok.mp h
  have hTyped₀ : HiddenTyped childColTypes ⟨projColumns, colTypes, [], []⟩ :=
    ⟨by simpa using length_of_mapM_ok hColTypes, fun index colNumber hIndex => by simp at hIndex⟩
  obtain ⟨⟨-, hTypes⟩, -, -, hHidden⟩ := keyColsLoop_hidden childColTypes _ childKeyCols _ p hTyped₀ h
  have hNone := @lookup_projColumnsMap childKeyCol projColumns.zipIdx ∅ rfl fun x hx =>
    hOut x.1 (List.mem_of_getElem? (List.mem_zipIdx_iff_getElem?.mp hx))
  obtain ⟨index, hIndex⟩ := List.mem_iff_getElem?.mp (hHidden childKeyCol hKey hNone)
  exact ⟨index, List.mem_zipIdx_iff_getElem?.mpr hIndex, hTypes index childKeyCol hIndex⟩

theorem calcProjection_of_timestamp_key {p : PushProjection} {colNumber index fsp : Nat}
    (hHidden : (colNumber, index) ∈ p.invisibleKeyColsInChild.zipIdx)
    (hType : p.colTypes[p.projColumns.length + index]? = some (.timestamp fsp)) (row out : Row) :
    p.calcProjection row ≠ .ok out := by
  intro h
  unfold calcProjection at h
  obtain ⟨visible, -, h⟩ := bind_eq_ok.mp h
  obtain ⟨hidden, hHiddenOk, -⟩ := bind_eq_ok.mp h
  obtain ⟨cell, -, hCell⟩ := exists_mem_mapM_ok hHiddenOk (colNumber, index) hHidden
  simp only [hType, hiddenKeyValue] at hCell
  cases hCell

end PushProjection

/-! ## `UnionAll` -/

/-- The fields of `UnionAll` its handler reads: its column types, those of its
first branch with the generated id last, and for each branch the key columns
and the column types of the branch's own child. -/
structure UnionAll where
  colTypes : List ColumnType
  children : List (List Nat × List ColumnType)

namespace UnionAll

/-- `generateID`: the branch index, then the row's key in its branch. -/
def generateID (u : UnionAll) (row : Row) (index : Nat) : Except String Bytes :=
  match u.children[index]? with
  | none => .error "index out of range"
  | some (keyCols, colTypes) =>
    match EncodeKeyCols row keyCols colTypes (AppendUint32ToBufferLE [] (UInt32.ofNat index)) with
    | some key => .ok key
    | none => .error "cannot encode key"

/-- `appendRow`: the row's cells, then its generated id. -/
def appendRow (u : UnionAll) (index : Nat) (inRow : Row) : Except String Row := do
  let cells ← (List.range (u.colTypes.length - 1)).mapM fun i =>
    match inRow[i]? with
    | some cell => .ok cell
    | none => .error "index out of range"
  let id ← u.generateID inRow index
  pure (cells ++ [some (.string id)])

def unionEntry (u : UnionAll) (index : Nat) (rowsBatch : RowsBatch) (out : RowsBatch) (entry : RowsEntry) :
    Except String RowsBatch := do
  let prevRow ← rowsBatch.PreviousRow entry
  let prevRow ← match prevRow with
    | some prevRow => some <$> u.appendRow index prevRow
    | none => pure none
  let currRow ← rowsBatch.CurrentRow entry
  let currRow ← match currRow with
    | some currRow => some <$> u.appendRow index currRow
    | none => pure none
  pure (out.AppendEntry prevRow currRow entry.receiverIndex)

/-- `HandleRowsWithIndex`: the changes of branch `index`, keyed by their
generated ids. -/
def HandleRowsWithIndex (u : UnionAll) (index : Nat)
    (parent : RowsBatch → ExecutionContext → Except String ExecutionContext) (rowsBatch : RowsBatch)
    (ctx : ExecutionContext) : Except String ExecutionContext := do
  let out ← rowsBatch.entries.foldlM (u.unionEntry index rowsBatch) ⟨[], []⟩
  parent out ctx

theorem prefix_EncodeKeyCol {row : Row} {colIndex : Nat} {colType : ColumnType} {buffer buffer' : Bytes}
    (h : EncodeKeyCol row colIndex colType buffer = some buffer') : buffer <+: buffer' := by
  unfold EncodeKeyCol at h
  split at h
  · rw [encodeKeyValue_append] at h
    obtain ⟨suffix, -, rfl⟩ := Option.map_eq_some_iff.mp h
    exact List.prefix_append _ _
  · cases h

theorem prefix_EncodeKeyCols {row : Row} {colTypes : List ColumnType} :
    ∀ {colIndexes : List Nat} {buffer key : Bytes}, EncodeKeyCols row colIndexes colTypes buffer = some key →
      buffer <+: key
  | [], _, _, h => by
    cases h
    exact List.prefix_refl _
  | colIndex :: colIndexes, buffer, key, h => by
    rw [EncodeKeyCols] at h
    obtain ⟨colType, -, h⟩ := Option.bind_eq_some_iff.mp h
    obtain ⟨buffer', hCol, h⟩ := Option.bind_eq_some_iff.mp h
    exact (prefix_EncodeKeyCol hCol).trans (prefix_EncodeKeyCols h)

theorem generateID_index {u : UnionAll} {row : Row} {index : Nat} {key : Bytes}
    (h : u.generateID row index = .ok key) :
    ReadUint32FromBufferLE key 0 = some (UInt32.ofNat index, 4) := by
  unfold generateID at h
  split at h
  · cases h
  · split at h
    · rename_i key' hKey
      cases h
      obtain ⟨suffix, rfl⟩ := prefix_EncodeKeyCols hKey
      exact ReadUint32FromBufferLE_append [] suffix (UInt32.ofNat index)
    · cases h

theorem generateID_branch_eq {u : UnionAll} {row row' : Row} {index index' : Nat} {key : Bytes}
    (h : u.generateID row index = .ok key) (h' : u.generateID row' index' = .ok key)
    (hIndex : index < 2 ^ 32) (hIndex' : index' < 2 ^ 32) : index = index' := by
  have hEq := (generateID_index h).symm.trans (generateID_index h')
  simp only [Option.some.injEq, Prod.mk.injEq, and_true] at hEq
  have hNat := congrArg UInt32.toNat hEq
  rwa [UInt32.toNat_ofNat', UInt32.toNat_ofNat', Nat.mod_eq_of_lt hIndex, Nat.mod_eq_of_lt hIndex'] at hNat

end UnionAll

theorem select_null_and_projection_timestamp_key_fail :
    (∀ (predicates : List Expression) (row : Row) (b : Bool), PushSelect.whereKeeps predicates row = .ok b →
      PushSelect.evalPredicates predicates row = .ok b ∨
        (b = false ∧
          PushSelect.evalPredicates predicates row = .error "null returned from evaluating select predicate")) ∧
    (∀ (predicates : List Expression) (keep : Row → Bool) (rowsBatch : RowsBatch)
        (pairs : List (Option Row × Option Row)),
      changePairs rowsBatch = .ok pairs →
        (∀ c ∈ pairs, ∀ row, (c.1 = some row ∨ c.2 = some row) →
          PushSelect.evalPredicates predicates row = .ok (keep row)) →
        ∃ out, PushSelect.selectLoop predicates rowsBatch = .ok out ∧
          changePairs out = .ok ((pairs.map (PushSelect.selectChange keep)).filter (· ≠ (none, none)))) ∧
    (∀ (projColumns : List Expression) (childColTypes : List ColumnType) (childKeyCols : List Nat)
        (p : PushProjection) (childKeyCol fsp : Nat),
      PushProjection.calculateSchema projColumns childColTypes childKeyCols = .ok p → childKeyCol ∈ childKeyCols →
        (∀ e ∈ projColumns, e.GetColumnIndex ≠ some childKeyCol) →
        childColTypes[childKeyCol]? = some (.timestamp fsp) →
          ∀ row out, p.calcProjection row ≠ .ok out) ∧
    (∀ (u : UnionAll) (row row' : Row) (index index' : Nat) (key : Bytes),
      u.generateID row index = .ok key → u.generateID row' index' = .ok key →
        index < 2 ^ 32 → index' < 2 ^ 32 → index = index') ∧
    (PushSelect.whereKeeps [.column 1] [some (.int64 1), none] = .ok false ∧
      PushSelect.HandleRows [.column 1] (fun _ ctx => .ok ctx) ⟨[[some (.int64 1), none]], [⟨-1, 0, 1⟩]⟩
        ⟨NewWriteBatch 1000, []⟩ = .error "null returned from evaluating select predicate") ∧
    ∃ p, PushProjection.calculateSchema [.column 1] [.timestamp 0, .bigInt] [0] = .ok p ∧
      p.HandleRows (fun _ ctx => .ok ctx)
        ⟨[[some (.timestamp ⟨⟨2024, 1, 1, 0, 0, 0, 0⟩, 0⟩), some (.int64 5)]], [⟨-1, 0, 1⟩]⟩
        ⟨NewWriteBatch 1000, []⟩ = .error "unexpected column type" := by
  refine ⟨PushSelect.evalPredicates_of_whereKeeps,
    fun predicates keep rowsBatch pairs hPairs hKeep => PushSelect.selectLoop_eq hPairs hKeep,
    fun projColumns childColTypes childKeyCols p childKeyCol fsp h hKey hOut hType row out => ?_,
    fun _ _ _ _ _ _ h h' => UnionAll.generateID_branch_eq h h', ⟨rfl, rfl⟩, ⟨_, rfl, rfl⟩⟩
  -- the key column is hidden with its type, which the hidden columns' switch lacks
  obtain ⟨index, hHidden, hIndex⟩ := PushProjection.calculateSchema_hidden h hKey hOut
  exact PushProjection.calcProjection_of_timestamp_key hHidden (hIndex.trans hType) row out

theorem select_null_and_projection_timestamp_key_fail_null_row :
    PushSelect.evalPredicates [.column 1] [some (.int64 1), none] = .ok false ∨
      (false = false ∧ PushSelect.evalPredicates [.column 1] [some (.int64 1), none] =
        .error "null returned from evaluating select predicate") :=
  select_null_and_projection_timestamp_key_fail.1 _ _ _ rfl

end PranaDB
