import PranaDB.Push.TableExec
import PranaDB.Cluster.ForwardDedup

/-! # Aggregation (`push/exec/aggregator.go`, `aggfuncs`)

`Aggregator.HandleRows` sends each change to the shard that owns its group,
under a forward key whose dedup part is the aggregate table, the sending shard
and the change's receiver sequence. On the owning shard `HandleRemoteRows`
folds the changes of a batch into one aggregate state per group key
(`calcAggregations`), seeded from the stored aggregate row, retracting the
previous row and adding the current one; it stores every changed state and
hands the changed aggregate rows on to its parent with receiver index `-1`.

The group key of a change is computed from its current row, or from its
previous row when there is none (`createKeyFromPrevOrCurrRow`), and both rows of
the change are applied to that one state.

The model covers aggregate columns of the integer types (`COUNT`, and
`FIRSTROW` of an integer column); a column of another type takes the error of
the default branch. An argument expression is a column of the child row or an
integer constant. The map of states is kept in the order its keys were first
met. The sharder is a function from key bytes to shard ids.
-/

namespace PranaDB
set_option autoImplicit false

open ExceptRun

inductive AggFunctionType where
  | sum
  | count
  | firstRow
deriving DecidableEq, Repr

/-- The argument expressions of aggregate functions: a column of the row, or
an integer constant. -/
inductive Expression where
  | column (colIndex : Nat)
  | constInt (val : Int64)
deriving DecidableEq, Repr

/-- `Expression.EvalInt64`: the value and whether it is null. -/
def Expression.EvalInt64 (e : Expression) (row : Row) : Except String (Int64 × Bool) :=
  match e with
  | .constInt val => .ok (val, false)
  | .column colIndex =>
    match row[colIndex]? with
    | some none => .ok (0, true)
    | some (some (.int64 v)) => .ok (v, false)
    | some (some _) => .error "not an int64"
    | none => .error "index out of range"

/-- An aggregate function: its type, its argument and its value type. -/
structure AggregateFunction where
  FuncType : AggFunctionType
  ArgExpr : Expression
  ValueType : ColumnType
deriving DecidableEq, Repr

/-- `aggfuncs.AggState` on the integer part of its state. -/
structure AggState where
  state : List Int64
  set : List Bool
  null : List Bool
  changed : Bool
deriving DecidableEq, Repr

def NewAggState (size : Nat) : AggState :=
  ⟨List.replicate size 0, List.replicate size false, List.replicate size false, false⟩

namespace AggState

def SetNull (as : AggState) (index : Nat) : AggState :=
  { as with set := as.set.set index true, changed := true, null := as.null.set index true }

def IsNull (as : AggState) (index : Nat) : Bool := as.null.getD index false

def IsSet (as : AggState) (index : Nat) : Bool := as.set.getD index false

def SetInt64 (as : AggState) (index : Nat) (val : Int64) : AggState :=
  { as with set := as.set.set index true, changed := true, state := as.state.set index val }

def GetInt64 (as : AggState) (index : Nat) : Int64 := as.state.getD index 0

end AggState

/-- `EvalInt64` of `SUM`, `COUNT` and `FIRSTROW`. `SUM` has no integer case: the
base function panics. -/
def AggregateFunction.EvalInt64 (f : AggregateFunction) (value : Int64) (null : Bool) (aggState : AggState)
    (index : Nat) (reverse : Bool) : Except String AggState :=
  match f.FuncType with
  | .sum => .error "should not be called"
  | .count =>
    if null then .ok aggState
    else
      let currVal := aggState.GetInt64 index
      .ok (aggState.SetInt64 index (if reverse then currVal - 1 else currVal + 1))
  | .firstRow =>
    if aggState.IsSet index then .ok aggState
    else if null then .ok (aggState.SetNull index)
    else .ok (aggState.SetInt64 index value)

def ColumnType.isInt : ColumnType → Bool
  | .tinyInt | .int | .bigInt => true
  | _ => false

structure aggStateHolder where
  aggState : AggState
  keyBytes : Bytes
  initialRow : Option Row
  row : Option Row
deriving DecidableEq, Repr

/-- The fields of `Aggregator` its handlers read. `childColTypes` are the
column types of its child; the aggregate table's columns are the value types
of the functions. -/
structure Aggregator where
  aggFuncs : List AggregateFunction
  AggTableInfo : TableInfo
  groupByCols : List Nat
  childColTypes : List ColumnType
  soloAggShard : Int64

namespace Aggregator

def evaluateAggFunctions (a : Aggregator) (aggState : AggState) (row : Row) (reverse : Bool) :
    Except String AggState :=
  a.aggFuncs.zipIdx.foldlM (fun aggState (aggFunc, index) =>
    if aggFunc.ValueType.isInt then do
      let (arg, null) ← aggFunc.ArgExpr.EvalInt64 row
      aggFunc.EvalInt64 arg null aggState index reverse
    else .error "unexpected column type") aggState

/-- `initAggStateWithRow`: the state set from the stored aggregate row. -/
def initAggStateWithRow (a : Aggregator) (currRow : Row) (aggState : AggState) : Except String AggState :=
  a.AggTableInfo.ColumnTypes.zipIdx.foldlM (fun aggState (colType, i) =>
    match currRow[i]? with
    | none => .error "index out of range"
    | some none => .ok (aggState.SetNull i)
    | some (some cell) =>
      if colType.isInt then
        match cell with
        | .int64 v => .ok (aggState.SetInt64 i v)
        | _ => .error "not an int64"
      else .error "unexpected column type") aggState

/-- `createKeyFromPrevOrCurrRow`: the group key of the current row, or of the
previous one when there is none. -/
def createKeyFromPrevOrCurrRow (prevRow currRow : Option Row) (shardID : UInt64) (colTypes : List ColumnType)
    (keyCols : List Nat) (tableID : UInt64) : Except String Bytes :=
  match currRow.or prevRow with
  | none => .error "nil pointer dereference"
  | some row =>
    match EncodeKeyCols row keyCols colTypes (EncodeTableKeyPrefix tableID shardID) with
    | some keyBytes => .ok keyBytes
    | none => .error "cannot encode key"

/-- `loadAggregateState`: the state of the key in this batch, else a new one
seeded from the stored row. -/
def loadAggregateState (a : Aggregator) (rowCache : Bytes → Option Bytes) (keyBytes : Bytes)
    (holders : List (Bytes × aggStateHolder)) : Except String aggStateHolder :=
  match holders.lookup keyBytes with
  | some stateHolder => .ok stateHolder
  | none => do
    let currRow ← match rowCache keyBytes with
      | none => pure none
      | some rowBytes =>
        match DecodeRow rowBytes a.AggTableInfo.ColumnTypes [] with
        | some row => pure (some row)
        | none => throw "cannot decode row"
    let aggState := NewAggState a.AggTableInfo.ColumnTypes.length
    match currRow with
    | none => pure ⟨aggState, keyBytes, none, none⟩
    | some currRow => do
      let aggState ← a.initAggStateWithRow currRow aggState
      pure ⟨aggState, keyBytes, some currRow, none⟩

def putHolder (keyBytes : Bytes) (stateHolder : aggStateHolder) :
    List (Bytes × aggStateHolder) → List (Bytes × aggStateHolder)
  | [] => [(keyBytes, stateHolder)]
  | (k, h) :: rest => if k = keyBytes then (k, stateHolder) :: rest else (k, h) :: putHolder keyBytes stateHolder rest

/-- `calcAggregations`: both rows of a change applied to the state of its one
group key, the previous row retracted first. -/
def calcAggregations (a : Aggregator) (rowCache : Bytes → Option Bytes) (shardID : UInt64)
    (prevRow currRow : Option Row) (holders : List (Bytes × aggStateHolder)) :
    Except String (List (Bytes × aggStateHolder)) := do
  let keyBytes ← createKeyFromPrevOrCurrRow prevRow currRow shardID a.childColTypes a.groupByCols a.AggTableInfo.ID
  let stateHolder ← a.loadAggregateState rowCache keyBytes holders
  let aggState ← match prevRow with
    | some prevRow => a.evaluateAggFunctions stateHolder.aggState prevRow true
    | none => pure stateHolder.aggState
  let aggState ← match currRow with
    | some currRow => a.evaluateAggFunctions aggState currRow false
    | none => pure aggState
  pure (putHolder keyBytes { stateHolder with aggState := aggState } holders)

def resultRow (a : Aggregator) (aggState : AggState) : Except String Row :=
  a.AggTableInfo.ColumnTypes.zipIdx.mapM fun (colType, i) =>
    if aggState.IsNull i then .ok none
    else if colType.isInt then .ok (some (.int64 (aggState.GetInt64 i)))
    else .error "unexpected column type"

/-- `storeAggregateResults`: a put of the aggregate row of every changed
state. -/
def storeAggregateResults (a : Aggregator) :
    List (Bytes × aggStateHolder) → WriteBatch → Except String (List (Bytes × aggStateHolder) × WriteBatch)
  | [], writeBatch => .ok ([], writeBatch)
  | (k, stateHolder) :: rest, writeBatch =>
    if stateHolder.aggState.changed then do
      let row ← a.resultRow stateHolder.aggState
      let some valueBuff := EncodeRow row a.AggTableInfo.ColumnTypes [] | throw "cannot encode row"
      let (rest, writeBatch) ← a.storeAggregateResults rest (writeBatch.AddPut stateHolder.keyBytes valueBuff)
      pure ((k, { stateHolder with row := some row }) :: rest, writeBatch)
    else do
      let (rest, writeBatch) ← a.storeAggregateResults rest writeBatch
      pure ((k, stateHolder) :: rest, writeBatch)

/-- `Aggregator.HandleRemoteRows`: the batch is aggregated, the results are
stored, and the changed groups go to the parent with receiver index `-1`. -/
def HandleRemoteRows (a : Aggregator) (rowCache : Bytes → Option Bytes)
    (parent : RowsBatch → ExecutionContext → Except String ExecutionContext) (rowsBatch : RowsBatch)
    (ctx : ExecutionContext) : Except String ExecutionContext := do
  let holders ← rowsBatch.entries.foldlM (fun holders entry => do
    let prevRow ← rowsBatch.PreviousRow entry
    let currentRow ← rowsBatch.CurrentRow entry
    a.calcAggregations rowCache ctx.WriteBatch.ShardID prevRow currentRow holders) []
  let (holders, writeBatch) ← a.storeAggregateResults holders ctx.WriteBatch
  let resultRows := holders.foldl (fun out (_, stateHolder) =>
    if stateHolder.aggState.changed then out.AppendEntry stateHolder.initialRow stateHolder.row (-1) else out)
    ⟨[], []⟩
  parent resultRows { ctx with WriteBatch := writeBatch }

end Aggregator

/-- `ExecutionContext.AddToForwardBatch`: a put into the forward batch of the
shard, made when it is first needed. -/
def ExecutionContext.AddToForwardBatch (ctx : ExecutionContext) (shardID : UInt64) (key value : Bytes) :
    ExecutionContext :=
  match ctx.RemoteBatches.lookup shardID with
  | some remoteBatch =>
    { ctx with RemoteBatches := ctx.RemoteBatches.map fun p =>
        if p.1 = shardID then (p.1, remoteBatch.AddPut key value) else p }
  | none => { ctx with RemoteBatches := ctx.RemoteBatches ++ [(shardID, (NewWriteBatch shardID).AddPut key value)] }

namespace Aggregator

/-- The shard a change of `Aggregator.HandleRows` goes to: the solo
aggregation shard, else the shard of its group key. -/
def remoteShardOf (a : Aggregator) (calculateShard : Bytes → UInt64) (row : Row) : Except String UInt64 :=
  if a.soloAggShard ≠ -1 then pure a.soloAggShard.toUInt64
  else
    match EncodeKeyCols row a.groupByCols a.childColTypes [] with
    | some keyBytes => pure (calculateShard keyBytes)
    | none => throw "cannot encode key"

def encodeChildRow (a : Aggregator) : Option Row → Except String Bytes
  | none => pure []
  | some row =>
    match EncodeRow row a.childColTypes [] with
    | some bytes => pure bytes
    | none => throw "cannot encode row"

/-- The loop of `Aggregator.HandleRows` at one change: the shard of its group,
its forward key and its framed rows. `fillTableID` is `ctx.FillTableID`. -/
def forwardEntry (a : Aggregator) (calculateShard : Bytes → UInt64) (fillTableID : Int64) (rowsBatch : RowsBatch)
    (ctx : ExecutionContext) (entry : RowsEntry) : Except String ExecutionContext := do
  let prevRow ← rowsBatch.PreviousRow entry
  let currRow ← rowsBatch.CurrentRow entry
  let some row := currRow.or prevRow | throw "nil pointer dereference"
  let remoteShardID ← a.remoteShardOf calculateShard row
  let prevRowBytes ← a.encodeChildRow prevRow
  let currRowBytes ← a.encodeChildRow currRow
  let receiverSeq := entry.receiverIndex
  if receiverSeq = 0 then throw "undefined receiver sequence in attempting to forward aggregation"
  let origTableID : UInt64 := if fillTableID ≠ -1 then fillTableID.toUInt64 else a.AggTableInfo.ID
  let forwardKey := EncodeKeyForForwardAggregation origTableID ctx.WriteBatch.ShardID receiverSeq.toUInt64
    a.AggTableInfo.ID
  pure (ctx.AddToForwardBatch remoteShardID forwardKey (EncodePrevAndCurrentRow prevRowBytes currRowBytes))

/-- `Aggregator.HandleRows`: every change forwarded to the shard of its group. -/
def HandleRows (a : Aggregator) (calculateShard : Bytes → UInt64) (fillTableID : Int64) (rowsBatch : RowsBatch)
    (ctx : ExecutionContext) : Except String ExecutionContext :=
  rowsBatch.entries.foldlM (a.forwardEntry calculateShard fillTableID rowsBatch) ctx

end Aggregator

/-! ## What a change does to the states of its batch -/

namespace Aggregator

theorem mem_putHolder {keyBytes : Bytes} {stateHolder : aggStateHolder} :
    ∀ {holders : List (Bytes × aggStateHolder)} {p : Bytes × aggStateHolder},
      p ∈ putHolder keyBytes stateHolder holders → p.2 = stateHolder ∨ p ∈ holders
  | [], p, hp => by
    rw [putHolder, List.mem_singleton] at hp
    exact Or.inl (hp ▸ rfl)
  | (k, h) :: rest, p, hp => by
    unfold putHolder at hp
    split at hp
    · rcases List.mem_cons.mp hp with rfl | hp
      · exact Or.inl rfl
      · exact Or.inr (List.mem_cons_of_mem _ hp)
    · rcases List.mem_cons.mp hp with rfl | hp
      · exact Or.inr List.mem_cons_self
      · rcases mem_putHolder hp with hEq | hMem
        · exact Or.inl hEq
        · exact Or.inr (List.mem_cons_of_mem _ hMem)

theorem lookup_putHolder_of_ne {keyBytes k : Bytes} (hk : k ≠ keyBytes) (stateHolder : aggStateHolder) :
    ∀ holders : List (Bytes × aggStateHolder), (putHolder keyBytes stateHolder holders).lookup k = holders.lookup k
  | [] => by
    have hNe : (k == keyBytes) = false := beq_eq_false_iff_ne.mpr hk
    simp only [putHolder, List.lookup, hNe]
  | (k', h) :: rest => by
    by_cases hKey : k' = keyBytes
    · subst hKey
      have hNe : (k == k') = false := beq_eq_false_iff_ne.mpr hk
      simp only [putHolder, ↓reduceIte, List.lookup, hNe]
    · simp only [putHolder, hKey, ↓reduceIte, List.lookup]
      rw [lookup_putHolder_of_ne hk stateHolder rest]

theorem mem_of_lookup {k : Bytes} {stateHolder : aggStateHolder} :
    ∀ {holders : List (Bytes × aggStateHolder)}, holders.lookup k = some stateHolder →
      ∃ p ∈ holders, p.2 = stateHolder
  | [], h => by cases h
  | (k', h') :: rest, h => by
    by_cases hKey : k = k'
    · subst hKey
      simp only [List.lookup, beq_self_eq_true, Option.some.injEq] at h
      exact ⟨(k, h'), List.mem_cons_self, h⟩
    · have hNe : (k == k') = false := beq_eq_false_iff_ne.mpr hKey
      simp only [List.lookup, hNe] at h
      obtain ⟨p, hp, hEq⟩ := mem_of_lookup h
      exact ⟨p, List.mem_cons_of_mem _ hp, hEq⟩

theorem loadAggregateState_ok {a : Aggregator} {rowCache : Bytes → Option Bytes} {keyBytes : Bytes}
    {holders : List (Bytes × aggStateHolder)} {stateHolder : aggStateHolder}
    (h : a.loadAggregateState rowCache keyBytes holders = .ok stateHolder) :
    (∃ p ∈ holders, p.2 = stateHolder) ∨ stateHolder.keyBytes = keyBytes := by
  unfold loadAggregateState at h
  split at h
  · rename_i hLookup
    cases h
    exact Or.inl (mem_of_lookup hLookup)
  · -- a new state: no stored row, a stored row that decodes, or one that does not
    dsimp only at h
    split at h
    · rw [pure_bind] at h
      cases pure_eq_ok.mp h
      exact Or.inr rfl
    · split at h
      · rw [pure_bind] at h
        obtain ⟨aggState, -, h⟩ := bind_eq_ok.mp h
        cases pure_eq_ok.mp h
        exact Or.inr rfl
      · obtain ⟨_, hThrow, -⟩ := bind_eq_ok.mp h
        exact (throw_eq_ok.mp hThrow).elim

theorem calcAggregations_ok {a : Aggregator} {rowCache : Bytes → Option Bytes} {shardID : UInt64}
    {prevRow currRow : Option Row} {holders holders' : List (Bytes × aggStateHolder)}
    (h : a.calcAggregations rowCache shardID prevRow currRow holders = .ok holders') :
    ∃ keyBytes stateHolder aggState,
      createKeyFromPrevOrCurrRow prevRow currRow shardID a.childColTypes a.groupByCols a.AggTableInfo.ID =
        .ok keyBytes ∧ a.loadAggregateState rowCache keyBytes holders = .ok stateHolder ∧
      holders' = putHolder keyBytes { stateHolder with aggState := aggState } holders := by
  unfold calcAggregations at h
  obtain ⟨keyBytes, hKey, h⟩ := bind_eq_ok.mp h
  obtain ⟨stateHolder, hLoad, h⟩ := bind_eq_ok.mp h
  dsimp only at h
  split at h
  · obtain ⟨aggState, -, h⟩ := bind_eq_ok.mp h
    split at h
    · obtain ⟨aggState', -, h⟩ := bind_eq_ok.mp h
      exact ⟨keyBytes, stateHolder, aggState', hKey, hLoad, (pure_eq_ok.mp h).symm⟩
    · rw [pure_bind] at h
      exact ⟨keyBytes, stateHolder, aggState, hKey, hLoad, (pure_eq_ok.mp h).symm⟩
  · rw [pure_bind] at h
    split at h
    · obtain ⟨aggState', -, h⟩ := bind_eq_ok.mp h
      exact ⟨keyBytes, stateHolder, aggState', hKey, hLoad, (pure_eq_ok.mp h).symm⟩
    · rw [pure_bind] at h
      exact ⟨keyBytes, stateHolder, stateHolder.aggState, hKey, hLoad, (pure_eq_ok.mp h).symm⟩

theorem calcAggregations_lookup_of_ne {a : Aggregator} {rowCache : Bytes → Option Bytes} {shardID : UInt64}
    {prevRow currRow : Option Row} {holders holders' : List (Bytes × aggStateHolder)} {keyBytes k : Bytes}
    (h : a.calcAggregations rowCache shardID prevRow currRow holders = .ok holders')
    (hKey : createKeyFromPrevOrCurrRow prevRow currRow shardID a.childColTypes a.groupByCols a.AggTableInfo.ID =
      .ok keyBytes) (hk : k ≠ keyBytes) :
    holders'.lookup k = holders.lookup k := by
  obtain ⟨keyBytes', stateHolder, aggState, hKey', -, rfl⟩ := calcAggregations_ok h
  rw [hKey] at hKey'
  cases hKey'
  exact lookup_putHolder_of_ne hk _ holders

theorem storeAggregateResults_ok (a : Aggregator) :
    ∀ {holders holders' : List (Bytes × aggStateHolder)} {writeBatch writeBatch' : WriteBatch},
      a.storeAggregateResults holders writeBatch = .ok (holders', writeBatch') →
        ∃ puts : List (Bytes × Bytes), writeBatch' = puts.foldl (fun wb p => wb.AddPut p.1 p.2) writeBatch ∧
          ∀ p ∈ puts, ∃ q ∈ holders, q.2.keyBytes = p.1
  | [], holders', writeBatch, writeBatch', h => by
    rw [storeAggregateResults] at h
    cases h
    exact ⟨[], rfl, fun _ hp => absurd hp List.not_mem_nil⟩
  | (k, stateHolder) :: rest, holders', writeBatch, writeBatch', h => by
    rw [storeAggregateResults] at h
    split at h
    · -- a changed state: its row put under its key, then the rest
      obtain ⟨row, -, h⟩ := bind_eq_ok.mp h
      split at h
      · rename_i valueBuff _
        obtain ⟨⟨rest', wb'⟩, hRest, h⟩ := bind_eq_ok.mp h
        cases pure_eq_ok.mp h
        obtain ⟨puts, rfl, hPuts⟩ := storeAggregateResults_ok a hRest
        refine ⟨(stateHolder.keyBytes, valueBuff) :: puts, rfl, ?_⟩
        intro p hp
        rcases List.mem_cons.mp hp with rfl | hp
        · exact ⟨(k, stateHolder), List.mem_cons_self, rfl⟩
        · obtain ⟨q, hq, hKey⟩ := hPuts p hp
          exact ⟨q, List.mem_cons_of_mem _ hq, hKey⟩
      · exact (throw_eq_ok.mp h).elim
    · obtain ⟨⟨rest', wb'⟩, hRest, h⟩ := bind_eq_ok.mp h
      cases pure_eq_ok.mp h
      obtain ⟨puts, rfl, hPuts⟩ := storeAggregateResults_ok a hRest
      refine ⟨puts, rfl, fun p hp => ?_⟩
      obtain ⟨q, hq, hKey⟩ := hPuts p hp
      exact ⟨q, List.mem_cons_of_mem _ hq, hKey⟩

/-- `k` is the group key of a change of the batch: that of its current row, or
of its previous row when there is none. -/
def KeyOfBatch (a : Aggregator) (rowsBatch : RowsBatch) (shardID : UInt64) (k : Bytes) : Prop :=
  ∃ entry ∈ rowsBatch.entries, ∃ prevRow currRow, rowsBatch.PreviousRow entry = .ok prevRow ∧
    rowsBatch.CurrentRow entry = .ok currRow ∧
    createKeyFromPrevOrCurrRow prevRow currRow shardID a.childColTypes a.groupByCols a.AggTableInfo.ID = .ok k

theorem foldlM_calcAggregations_keys (a : Aggregator) (rowCache : Bytes → Option Bytes) (rowsBatch : RowsBatch)
    (shardID : UInt64) (holders holders' : List (Bytes × aggStateHolder))
    (hKeys : ∀ q ∈ holders, a.KeyOfBatch rowsBatch shardID q.2.keyBytes)
    (h : rowsBatch.entries.foldlM (fun holders entry => do
      let prevRow ← rowsBatch.PreviousRow entry
      let currentRow ← rowsBatch.CurrentRow entry
      a.calcAggregations rowCache shardID prevRow currentRow holders) holders = .ok holders') :
    ∀ q ∈ holders', a.KeyOfBatch rowsBatch shardID q.2.keyBytes := by
  refine foldlM_invariant_mem (fun holders => ∀ q ∈ holders, a.KeyOfBatch rowsBatch shardID q.2.keyBytes) _
    rowsBatch.entries ?_ holders holders' hKeys h
  intro holders entry holders' hEntry hKeys hStep
  obtain ⟨prevRow, hPrev, hStep⟩ := bind_eq_ok.mp hStep
  obtain ⟨currRow, hCurr, hStep⟩ := bind_eq_ok.mp hStep
  obtain ⟨keyBytes, stateHolder, aggState, hKey, hLoad, rfl⟩ := calcAggregations_ok hStep
  intro q hq
  rcases mem_putHolder hq with hEq | hq
  · rw [hEq]
    rcases loadAggregateState_ok hLoad with ⟨p, hp, rfl⟩ | hNew
    · exact hKeys p hp
    · exact hNew ▸ ⟨entry, hEntry, prevRow, currRow, hPrev, hCurr, hKey⟩
  · exact hKeys q hq

theorem receiverIndex_resultRows :
    ∀ (holders : List (Bytes × aggStateHolder)) (out : RowsBatch),
      (∀ entry ∈ out.entries, entry.receiverIndex = -1) →
        ∀ entry ∈ (holders.foldl (fun out (_, stateHolder) =>
          if stateHolder.aggState.changed then out.AppendEntry stateHolder.initialRow stateHolder.row (-1)
          else out) out).entries, entry.receiverIndex = -1
  | [], _, h => h
  | (k, stateHolder) :: rest, out, h => by
    rw [List.foldl_cons]
    apply receiverIndex_resultRows rest
    dsimp only
    split
    · rw [AppendEntry_eq]
      intro entry hEntry
      rcases List.mem_append.mp hEntry with hEntry | hEntry
      · exact h entry hEntry
      · rw [List.mem_singleton.mp hEntry]
    · exact h

theorem HandleRemoteRows_ok {a : Aggregator} {rowCache : Bytes → Option Bytes}
    {parent : RowsBatch → ExecutionContext → Except String ExecutionContext} {rowsBatch : RowsBatch}
    {ctx ctx' : ExecutionContext} (h : a.HandleRemoteRows rowCache parent rowsBatch ctx = .ok ctx') :
    ∃ (out : RowsBatch) (puts : List (Bytes × Bytes)), (∀ entry ∈ out.entries, entry.receiverIndex = -1) ∧
      (∀ p ∈ puts, a.KeyOfBatch rowsBatch ctx.WriteBatch.ShardID p.1) ∧
      parent out { ctx with WriteBatch := puts.foldl (fun wb p => wb.AddPut p.1 p.2) ctx.WriteBatch } = .ok ctx' := by
  unfold HandleRemoteRows at h
  obtain ⟨holders, hHolders, h⟩ := bind_eq_ok.mp h
  obtain ⟨⟨holders', writeBatch⟩, hStore, h⟩ := bind_eq_ok.mp h
  obtain ⟨puts, rfl, hPuts⟩ := storeAggregateResults_ok a hStore
  have hKeys := foldlM_calcAggregations_keys a rowCache rowsBatch ctx.WriteBatch.ShardID [] holders
    (fun _ hq => absurd hq List.not_mem_nil) hHolders
  refine ⟨_, puts, receiverIndex_resultRows holders' ⟨[], []⟩ (fun _ hEntry => absurd hEntry List.not_mem_nil),
    fun p hp => ?_, h⟩
  obtain ⟨q, hq, hKey⟩ := hPuts p hp
  exact hKey ▸ hKeys q hq

end Aggregator

/-! ## The forward keys of `HandleRows` -/

@[simp] theorem ExecutionContext.WriteBatch_AddToForwardBatch (ctx : ExecutionContext) (shardID : UInt64)
    (key value : Bytes) : (ctx.AddToForwardBatch shardID key value).WriteBatch = ctx.WriteBatch := by
  unfold ExecutionContext.AddToForwardBatch
  split <;> rfl

namespace Aggregator

theorem forwardEntry_ok {a : Aggregator} {calculateShard : Bytes → UInt64} {fillTableID : Int64}
    {rowsBatch : RowsBatch} {ctx ctx' : ExecutionContext} {entry : RowsEntry}
    (h : a.forwardEntry calculateShard fillTableID rowsBatch ctx entry = .ok ctx') :
    entry.receiverIndex ≠ 0 ∧ ∃ remoteShardID value, ctx' = ctx.AddToForwardBatch remoteShardID
      (EncodeKeyForForwardAggregation (if fillTableID ≠ -1 then fillTableID.toUInt64 else a.AggTableInfo.ID)
        ctx.WriteBatch.ShardID entry.receiverIndex.toUInt64 a.AggTableInfo.ID) value := by
  unfold forwardEntry at h
  obtain ⟨prevRow, -, h⟩ := bind_eq_ok.mp h
  obtain ⟨currRow, -, h⟩ := bind_eq_ok.mp h
  split at h
  · obtain ⟨remoteShardID, -, h⟩ := bind_eq_ok.mp h
    obtain ⟨prevRowBytes, -, h⟩ := bind_eq_ok.mp h
    obtain ⟨currRowBytes, -, h⟩ := bind_eq_ok.mp h
    dsimp only at h
    split at h
    · obtain ⟨_, hThrow, -⟩ := bind_eq_ok.mp h
      exact (throw_eq_ok.mp hThrow).elim
    · rename_i hSeq
      exact ⟨hSeq, remoteShardID, _, (pure_eq_ok.mp h).symm⟩
  · exact (throw_eq_ok.mp h).elim

theorem foldlM_forwardEntry (a : Aggregator) (calculateShard : Bytes → UInt64) (fillTableID : Int64)
    (rowsBatch : RowsBatch) :
    ∀ (entries : List RowsEntry) (ctx ctx' : ExecutionContext),
      entries.foldlM (a.forwardEntry calculateShard fillTableID rowsBatch) ctx = .ok ctx' →
        ∃ puts : List (UInt64 × Bytes × Bytes),
          List.Forall₂ (fun entry put => entry.receiverIndex ≠ 0 ∧
            put.2.1 = EncodeKeyForForwardAggregation
              (if fillTableID ≠ -1 then fillTableID.toUInt64 else a.AggTableInfo.ID) ctx.WriteBatch.ShardID
              entry.receiverIndex.toUInt64 a.AggTableInfo.ID) entries puts ∧
          ctx' = puts.foldl (fun ctx put => ctx.AddToForwardBatch put.1 put.2.1 put.2.2) ctx
  | [], ctx, ctx', h => by
    rw [List.foldlM_nil, pure_eq_ok] at h
    exact ⟨[], .nil, h.symm⟩
  | entry :: entries, ctx, ctx', h => by
    rw [List.foldlM_cons] at h
    obtain ⟨ctx₁, hStep, hRest⟩ := bind_eq_ok.mp h
    obtain ⟨hSeq, remoteShardID, value, rfl⟩ := forwardEntry_ok hStep
    obtain ⟨puts, hKeys, rfl⟩ := foldlM_forwardEntry a calculateShard fillTableID rowsBatch entries _ ctx' hRest
    rw [ExecutionContext.WriteBatch_AddToForwardBatch] at hKeys
    exact ⟨(remoteShardID, _, value) :: puts, .cons ⟨hSeq, rfl⟩ hKeys, rfl⟩

theorem HandleRows_ok {a : Aggregator} {calculateShard : Bytes → UInt64} {fillTableID : Int64}
    {rowsBatch : RowsBatch} {ctx ctx' : ExecutionContext}
    (h : a.HandleRows calculateShard fillTableID rowsBatch ctx = .ok ctx') :
    ∃ puts : List (UInt64 × Bytes × Bytes),
      List.Forall₂ (fun entry put => entry.receiverIndex ≠ 0 ∧
        put.2.1 = EncodeKeyForForwardAggregation
          (if fillTableID ≠ -1 then fillTableID.toUInt64 else a.AggTableInfo.ID) ctx.WriteBatch.ShardID
          entry.receiverIndex.toUInt64 a.AggTableInfo.ID) rowsBatch.entries puts ∧
      ctx' = puts.foldl (fun ctx put => ctx.AddToForwardBatch put.1 put.2.1 put.2.2) ctx :=
  foldlM_forwardEntry a calculateShard fillTableID rowsBatch rowsBatch.entries ctx ctx' h

end Aggregator

theorem HandleRemoteRows_update_keeps_old_group :
    (∀ (a : Aggregator) (rowCache : Bytes → Option Bytes) (shardID : UInt64) (prevRow currRow : Row)
        (holders holders' : List (Bytes × aggStateHolder)) (keyBytes : Bytes),
      a.calcAggregations rowCache shardID (some prevRow) (some currRow) holders = .ok holders' →
        Aggregator.createKeyFromPrevOrCurrRow none (some currRow) shardID a.childColTypes a.groupByCols
          a.AggTableInfo.ID = .ok keyBytes →
          ∀ k, k ≠ keyBytes → holders'.lookup k = holders.lookup k) ∧
    (∀ (a : Aggregator) (rowCache : Bytes → Option Bytes)
        (parent : RowsBatch → ExecutionContext → Except String ExecutionContext) (rowsBatch : RowsBatch)
        (ctx ctx' : ExecutionContext),
      a.HandleRemoteRows rowCache parent rowsBatch ctx = .ok ctx' →
        ∃ (out : RowsBatch) (puts : List (Bytes × Bytes)),
          (∀ p ∈ puts, a.KeyOfBatch rowsBatch ctx.WriteBatch.ShardID p.1) ∧
          parent out { ctx with WriteBatch := puts.foldl (fun wb p => wb.AddPut p.1 p.2) ctx.WriteBatch } =
            .ok ctx') ∧
    ∃ ctxS v rowsBatch ctx' rowCache',
      Aggregator.HandleRows ⟨[⟨.firstRow, .column 1, .bigInt⟩, ⟨.count, .column 0, .bigInt⟩],
          ⟨300, [0], [.bigInt, .bigInt]⟩, [1], [.bigInt, .bigInt], -1⟩ (fun _ => 1000) (-1)
        ⟨[[some (.int64 1), some (.int64 5)], [some (.int64 1), some (.int64 7)]], [⟨0, 1, 1⟩]⟩
        ⟨NewWriteBatch 1, []⟩ = .ok ctxS ∧
      ctxS.RemoteBatches = [(1000, (NewWriteBatch 1000).AddPut (EncodeKeyForForwardAggregation 300 1 1 300) v)] ∧
      decodeRawRows [.bigInt, .bigInt] [⟨1, v⟩] ⟨[], []⟩ = some rowsBatch ∧
      Aggregator.HandleRemoteRows ⟨[⟨.firstRow, .column 1, .bigInt⟩, ⟨.count, .column 0, .bigInt⟩],
          ⟨300, [0], [.bigInt, .bigInt]⟩, [1], [.bigInt, .bigInt], -1⟩
        (fun k => if some k = EncodeKeyCols [some (.int64 1), some (.int64 5)] [1] [.bigInt, .bigInt]
          (EncodeTableKeyPrefix 300 1000) then EncodeRow [some (.int64 5), some (.int64 1)] [.bigInt, .bigInt] []
          else none)
        (fun _ ctx => .ok ctx) rowsBatch ⟨NewWriteBatch 1000, []⟩ = .ok ctx' ∧
      updateRowCache ctx'.WriteBatch (fun k => if some k = EncodeKeyCols [some (.int64 1), some (.int64 5)] [1]
          [.bigInt, .bigInt] (EncodeTableKeyPrefix 300 1000) then
          EncodeRow [some (.int64 5), some (.int64 1)] [.bigInt, .bigInt] [] else none) = .ok rowCache' ∧
      (EncodeKeyCols [some (.int64 1), some (.int64 5)] [1] [.bigInt, .bigInt] (EncodeTableKeyPrefix 300 1000)).bind
        rowCache' = EncodeRow [some (.int64 5), some (.int64 1)] [.bigInt, .bigInt] [] ∧
      (EncodeKeyCols [some (.int64 1), some (.int64 7)] [1] [.bigInt, .bigInt] (EncodeTableKeyPrefix 300 1000)).bind
        rowCache' = EncodeRow [some (.int64 5), some (.int64 0)] [.bigInt, .bigInt] [] := by
  refine ⟨fun a rowCache shardID prevRow currRow holders holders' keyBytes h hKey k hk =>
      Aggregator.calcAggregations_lookup_of_ne h hKey hk, fun a rowCache parent rowsBatch ctx ctx' h => ?_, ?_⟩
  · obtain ⟨out, puts, -, hPuts, hParent⟩ := Aggregator.HandleRemoteRows_ok h
    exact ⟨out, puts, hPuts, hParent⟩
  · -- the update goes to the shard of group 7, which retracts and adds it there; group 5 keeps its row
    exact ⟨_, _, _, _, _, rfl, rfl, rfl, rfl, rfl, rfl, rfl⟩

theorem HandleRemoteRows_update_keeps_old_group_move :
    ∃ (ctx' : ExecutionContext) (out : RowsBatch) (puts : List (Bytes × Bytes)),
      Aggregator.HandleRemoteRows ⟨[⟨.firstRow, .column 1, .bigInt⟩, ⟨.count, .column 0, .bigInt⟩],
          ⟨300, [0], [.bigInt, .bigInt]⟩, [1], [.bigInt, .bigInt], -1⟩ (fun _ => none) (fun _ ctx => .ok ctx)
        ⟨[[some (.int64 1), some (.int64 5)], [some (.int64 1), some (.int64 7)]], [⟨0, 1, 1⟩]⟩
        ⟨NewWriteBatch 1000, []⟩ = .ok ctx' ∧
      (∀ p ∈ puts, Aggregator.KeyOfBatch ⟨[⟨.firstRow, .column 1, .bigInt⟩, ⟨.count, .column 0, .bigInt⟩],
          ⟨300, [0], [.bigInt, .bigInt]⟩, [1], [.bigInt, .bigInt], -1⟩
        ⟨[[some (.int64 1), some (.int64 5)], [some (.int64 1), some (.int64 7)]], [⟨0, 1, 1⟩]⟩ 1000 p.1) ∧
      ((fun _ ctx => .ok ctx) : RowsBatch → ExecutionContext → Except String ExecutionContext) out
        ⟨puts.foldl (fun wb p => wb.AddPut p.1 p.2) (NewWriteBatch 1000), []⟩ = .ok ctx' := by
  obtain ⟨ctx', hRun⟩ : ∃ ctx', Aggregator.HandleRemoteRows ⟨[⟨.firstRow, .column 1, .bigInt⟩,
      ⟨.count, .column 0, .bigInt⟩], ⟨300, [0], [.bigInt, .bigInt]⟩, [1], [.bigInt, .bigInt], -1⟩ (fun _ => none)
      (fun _ ctx => .ok ctx) ⟨[[some (.int64 1), some (.int64 5)], [some (.int64 1), some (.int64 7)]], [⟨0, 1, 1⟩]⟩
      ⟨NewWriteBatch 1000, []⟩ = .ok ctx' := ⟨_, rfl⟩
  obtain ⟨out, puts, hPuts, hParent⟩ := HandleRemoteRows_update_keeps_old_group.2.1 _ _ _ _ _ ctx' hRun
  exact ⟨ctx', out, puts, hRun, hPuts, hParent⟩

theorem HandleRows_forward_keys_repeat :
    (∀ (a : Aggregator) (calculateShard : Bytes → UInt64) (fillTableID : Int64) (rowsBatch : RowsBatch)
        (ctx ctx' : ExecutionContext),
      a.HandleRows calculateShard fillTableID rowsBatch ctx = .ok ctx' →
        ∃ puts : List (UInt64 × Bytes × Bytes),
          List.Forall₂ (fun entry put => entry.receiverIndex ≠ 0 ∧
            put.2.1 = EncodeKeyForForwardAggregation
              (if fillTableID ≠ -1 then fillTableID.toUInt64 else a.AggTableInfo.ID) ctx.WriteBatch.ShardID
              entry.receiverIndex.toUInt64 a.AggTableInfo.ID) rowsBatch.entries puts ∧
          ctx' = puts.foldl (fun ctx put => ctx.AddToForwardBatch put.1 put.2.1 put.2.2) ctx) ∧
    (∀ (a : Aggregator) (rowCache : Bytes → Option Bytes)
        (parent : RowsBatch → ExecutionContext → Except String ExecutionContext) (rowsBatch : RowsBatch)
        (ctx ctx' : ExecutionContext),
      a.HandleRemoteRows rowCache parent rowsBatch ctx = .ok ctx' →
        ∃ (out : RowsBatch) (ctx₁ : ExecutionContext),
          (∀ entry ∈ out.entries, entry.receiverIndex = -1) ∧ parent out ctx₁ = .ok ctx') ∧
    ∃ (ctx' : ExecutionContext) (v₁ v₂ : Bytes), v₁ ≠ v₂ ∧
      Aggregator.HandleRemoteRows ⟨[⟨.firstRow, .column 1, .bigInt⟩, ⟨.count, .column 0, .bigInt⟩],
          ⟨300, [0], [.bigInt, .bigInt]⟩, [1], [.bigInt, .bigInt], -1⟩ (fun _ => none)
        (fun b ctx => (TableExecutor.HandleRows ⟨⟨301, [0], [.bigInt, .bigInt]⟩,
          [Aggregator.HandleRows ⟨[⟨.firstRow, .column 1, .bigInt⟩, ⟨.count, .column 0, .bigInt⟩],
            ⟨400, [0], [.bigInt, .bigInt]⟩, [1], [.bigInt, .bigInt], -1⟩ (fun _ => 2000) (-1)],
          false, 0, [], false, false⟩ (fun _ => none) b ctx).map fun r => r.2.1)
        ⟨[[some (.int64 1), some (.int64 5)], [some (.int64 2), some (.int64 7)]], [⟨-1, 0, 1⟩, ⟨-1, 1, 2⟩]⟩
        ⟨NewWriteBatch 1000, []⟩ = .ok ctx' ∧
      ctx'.RemoteBatches = [(2000, ((NewWriteBatch 2000).AddPut
        (ForwardKey.encode ⟨(400, 1000), (-1 : Int64).toUInt64, 400⟩) v₁).AddPut
        (ForwardKey.encode ⟨(400, 1000), (-1 : Int64).toUInt64, 400⟩) v₂)] ∧
      ∀ (env : SMEnv) (timestamp index : UInt64) (s : ShardOnDiskStateMachine) (batch : LocalStore),
        s.dedupSequences = (fun _ => none) →
          ∃ s', applyEntry env timestamp (s, batch) ⟨index, Dragon.writeForwardBatchProposal
              (((NewWriteBatch 2000).AddPut (ForwardKey.encode ⟨(400, 1000), (-1 : Int64).toUInt64, 400⟩) v₁).AddPut
                (ForwardKey.encode ⟨(400, 1000), (-1 : Int64).toUInt64, 400⟩) v₂) false⟩ =
            .ok (s', KVStore.putAll batch (forwardBatchWrites s.shardID s.receiverSequence s.receiverSequence
              [(⟨(400, 1000), (-1 : Int64).toUInt64, 400⟩, v₁)])) ∧
            s'.receiverSequence = s.receiverSequence + 1 := by
  refine ⟨fun a calculateShard fillTableID rowsBatch ctx ctx' h => Aggregator.HandleRows_ok h,
    fun a rowCache parent rowsBatch ctx ctx' h => ?_, ?_⟩
  · obtain ⟨out, puts, hIndex, -, hParent⟩ := Aggregator.HandleRemoteRows_ok h
    exact ⟨out, _, hIndex, hParent⟩
  · -- the changed rows of both groups reach the second aggregation with receiver index -1, so their
    -- forward keys are one; the shard they go to writes the first and drops the second
    exact ⟨_, _, _, by decide, rfl, rfl, fun env timestamp index s batch hDedup =>
      applyEntry_forward_repeat_key env timestamp s batch index hDedup 2000 _ (by decide) (by decide)⟩

theorem HandleRows_forward_keys_repeat_two_groups :
    ∃ (ctx' : ExecutionContext) (out : RowsBatch) (ctx₁ : ExecutionContext),
      Aggregator.HandleRemoteRows ⟨[⟨.firstRow, .column 1, .bigInt⟩, ⟨.count, .column 0, .bigInt⟩],
          ⟨300, [0], [.bigInt, .bigInt]⟩, [1], [.bigInt, .bigInt], -1⟩ (fun _ => none) (fun _ ctx => .ok ctx)
        ⟨[[some (.int64 1), some (.int64 5)], [some (.int64 2), some (.int64 7)]], [⟨-1, 0, 1⟩, ⟨-1, 1, 2⟩]⟩
        ⟨NewWriteBatch 1000, []⟩ = .ok ctx' ∧
      (∀ entry ∈ out.entries, entry.receiverIndex = -1) ∧
      ((fun _ ctx => .ok ctx) : RowsBatch → ExecutionContext → Except String ExecutionContext) out ctx₁ =
        .ok ctx' := by
  obtain ⟨ctx', hRun⟩ : ∃ ctx', Aggregator.HandleRemoteRows ⟨[⟨.firstRow, .column 1, .bigInt⟩,
      ⟨.count, .column 0, .bigInt⟩], ⟨300, [0], [.bigInt, .bigInt]⟩, [1], [.bigInt, .bigInt], -1⟩ (fun _ => none)
      (fun _ ctx => .ok ctx)
      ⟨[[some (.int64 1), some (.int64 5)], [some (.int64 2), some (.int64 7)]], [⟨-1, 0, 1⟩, ⟨-1, 1, 2⟩]⟩
      ⟨NewWriteBatch 1000, []⟩ = .ok ctx' := ⟨_, rfl⟩
  obtain ⟨out, ctx₁, hIndex, hParent⟩ := HandleRows_forward_keys_repeat.2.1 _ _ _ _ _ ctx' hRun
  exact ⟨ctx', out, ctx₁, hRun, hIndex, hParent⟩

end PranaDB
