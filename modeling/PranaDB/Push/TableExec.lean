import PranaDB.Push.ReceiveBatch
import PranaDB.Table.Keys
import PranaDB.Lib.ExceptRun

/-! # The table executor (`push/exec/table_exec.go`, `push/exec/rows_batch.go`)

`TableExecutor.HandleRows` writes each change of a batch to its table and
hands the changes on to the consuming nodes, each with the row it replaces.
For an insert or update that row is read from the row cache, which holds the
rows as committed: the engine updates it from the write batch only once the
whole batch is committed (`updateRowCache`). Within one batch every change
therefore sees the table as it was before the batch (`changePairs_handleRowsLoop`).

A consuming node is a function of the batch and the execution context, and the
row cache a function from keys to the committed values. While the table fills,
`captureChanges` writes the current row of each change to the fill table; the
result of `HandleRows` holds that local write batch and the executor with its
fill sequences.
-/

namespace PranaDB
set_option autoImplicit false

open ExceptRun

/-- `rows.GetRow(i)` behind an index of a `RowsEntry`, `-1` standing for no
row; another index out of range is the panic of the slice. -/
def rowAt (rows : List Row) (i : Int) : Except String (Option Row) :=
  if i = -1 then .ok none
  else
    match rows[i.toNat]? with
    | some row => if 0 ≤ i then .ok (some row) else .error "index out of range"
    | none => .error "index out of range"

/-- `RowsBatch.PreviousRow`, at the entry `entries[index]`. -/
def RowsBatch.PreviousRow (b : RowsBatch) (entry : RowsEntry) : Except String (Option Row) :=
  rowAt b.rows entry.prevIndex

/-- `RowsBatch.CurrentRow`, at the entry `entries[index]`. -/
def RowsBatch.CurrentRow (b : RowsBatch) (entry : RowsEntry) : Except String (Option Row) :=
  rowAt b.rows entry.currIndex

def RowsBatch.AppendEntry (b : RowsBatch) (rowPrev rowCurr : Option Row) (receiverIndex : Int64) : RowsBatch :=
  let (rows, pi) : List Row × Int :=
    match rowPrev with
    | none => (b.rows, -1)
    | some row => (b.rows ++ [row], b.rows.length)
  let (rows, ci) : List Row × Int :=
    match rowCurr with
    | none => (rows, -1)
    | some row => (rows ++ [row], rows.length)
  ⟨rows, b.entries ++ [⟨pi, ci, receiverIndex⟩]⟩

def changePairs (b : RowsBatch) : Except String (List (Option Row × Option Row)) :=
  b.entries.mapM fun entry => do
    let prev ← b.PreviousRow entry
    let curr ← b.CurrentRow entry
    pure (prev, curr)

/-! ## Reading a batch back -/

def InRange (n : Nat) (i : Int) : Prop := i = -1 ∨ (0 ≤ i ∧ i < n)

def RowsBatch.WellFormed (b : RowsBatch) : Prop :=
  ∀ entry ∈ b.entries, InRange b.rows.length entry.prevIndex ∧ InRange b.rows.length entry.currIndex

theorem InRange.mono {n m : Nat} {i : Int} (h : InRange n i) (hnm : n ≤ m) : InRange m i := by
  rcases h with h | ⟨h₀, h₁⟩
  · exact Or.inl h
  · exact Or.inr ⟨h₀, by omega⟩

theorem rowAt_append {rows : List Row} {i : Int} (h : InRange rows.length i) (more : List Row) :
    rowAt (rows ++ more) i = rowAt rows i := by
  rcases h with rfl | ⟨h₀, h₁⟩
  · rfl
  · have hNe : i ≠ -1 := by omega
    have hLt : i.toNat < rows.length := by omega
    simp only [rowAt, hNe, ↓reduceIte, List.getElem?_append_left hLt]

theorem rowAt_length (rows more : List Row) (row : Row) :
    rowAt (rows ++ row :: more) rows.length = .ok (some row) := by
  have hNe : (rows.length : Int) ≠ -1 := by omega
  simp [rowAt, hNe]

theorem rowAt_neg_one (rows : List Row) : rowAt rows (-1) = .ok none := rfl

theorem rowAt_of_lt {rows : List Row} {i : Nat} (h : i < rows.length) : rowAt rows i = .ok (some rows[i]) := by
  have hNe : (i : Int) ≠ -1 := by omega
  simp [rowAt, hNe, h]

theorem mapM_pairs_append (rows more : List Row) : ∀ entries : List RowsEntry,
    (∀ entry ∈ entries, InRange rows.length entry.prevIndex ∧ InRange rows.length entry.currIndex) →
      entries.mapM (fun entry => do
          let prev ← rowAt (rows ++ more) entry.prevIndex
          let curr ← rowAt (rows ++ more) entry.currIndex
          pure (prev, curr)) =
        entries.mapM (fun entry => do
          let prev ← rowAt rows entry.prevIndex
          let curr ← rowAt rows entry.currIndex
          pure (prev, curr))
  | [], _ => rfl
  | entry :: entries, h => by
    obtain ⟨hPrev, hCurr⟩ := h entry List.mem_cons_self
    rw [List.mapM_cons, List.mapM_cons, rowAt_append hPrev, rowAt_append hCurr,
      mapM_pairs_append rows more entries fun e he => h e (List.mem_cons_of_mem entry he)]

theorem AppendEntry_eq (b : RowsBatch) (rowPrev rowCurr : Option Row) (receiverIndex : Int64) :
    b.AppendEntry rowPrev rowCurr receiverIndex =
      ⟨b.rows ++ (rowPrev.toList ++ rowCurr.toList),
        b.entries ++ [⟨if rowPrev.isSome then b.rows.length else -1,
          if rowCurr.isSome then (b.rows.length + rowPrev.toList.length : Nat) else -1, receiverIndex⟩]⟩ := by
  cases rowPrev <;> cases rowCurr <;> simp [RowsBatch.AppendEntry]

theorem RowsBatch.WellFormed.AppendEntry {b : RowsBatch} (h : b.WellFormed) (rowPrev rowCurr : Option Row)
    (receiverIndex : Int64) : (b.AppendEntry rowPrev rowCurr receiverIndex).WellFormed := by
  rw [AppendEntry_eq]
  intro entry hEntry
  have hLen : b.rows.length ≤ (b.rows ++ (rowPrev.toList ++ rowCurr.toList)).length := by simp
  rcases List.mem_append.mp hEntry with hOld | hNew
  · obtain ⟨hPrev, hCurr⟩ := h entry hOld
    exact ⟨hPrev.mono hLen, hCurr.mono hLen⟩
  · rw [List.mem_singleton.mp hNew]
    constructor
    · cases rowPrev with
      | none => exact Or.inl rfl
      | some _ =>
        refine Or.inr ⟨?_, ?_⟩ <;>
          simp only [Option.isSome_some, ↓reduceIte, List.length_append, Option.toList_some, List.length_cons] <;>
          omega
    · cases rowCurr with
      | none => exact Or.inl rfl
      | some _ =>
        refine Or.inr ⟨?_, ?_⟩ <;>
          simp only [Option.isSome_some, ↓reduceIte, List.length_append, Option.toList_some, List.length_cons] <;>
          omega

theorem changePairs_AppendEntry {b : RowsBatch} (h : b.WellFormed) (rowPrev rowCurr : Option Row)
    (receiverIndex : Int64) :
    changePairs (b.AppendEntry rowPrev rowCurr receiverIndex) = (changePairs b).map (· ++ [(rowPrev, rowCurr)]) := by
  have hNewPrev : rowAt (b.rows ++ (rowPrev.toList ++ rowCurr.toList)) (if rowPrev.isSome then b.rows.length else -1)
      = .ok rowPrev := by
    cases rowPrev with
    | none => rfl
    | some row => exact rowAt_length b.rows rowCurr.toList row
  have hNewCurr : rowAt (b.rows ++ (rowPrev.toList ++ rowCurr.toList))
      (if rowCurr.isSome then (b.rows.length + rowPrev.toList.length : Nat) else -1) = .ok rowCurr := by
    cases rowCurr with
    | none => rfl
    | some row =>
      have := rowAt_length (b.rows ++ rowPrev.toList) [] row
      simpa using this
  rw [AppendEntry_eq]
  simp only [changePairs, RowsBatch.PreviousRow, RowsBatch.CurrentRow, List.mapM_append]
  rw [mapM_pairs_append b.rows _ b.entries h]
  cases b.entries.mapM (fun entry => do
      let prev ← rowAt b.rows entry.prevIndex
      let curr ← rowAt b.rows entry.currIndex
      pure (prev, curr)) with
  | error e => rfl
  | ok pairs =>
    simp only [List.mapM_cons, List.mapM_nil, hNewPrev, hNewCurr]
    rfl

theorem wellFormed_empty : RowsBatch.WellFormed ⟨[], []⟩ := fun _ h => absurd h List.not_mem_nil

/-- The fields of `TableExecutor` that `HandleRows` reads and writes. -/
structure TableExecutor where
  TableInfo : TableInfo
  consumingNodes : List (RowsBatch → ExecutionContext → Except String ExecutionContext)
  filling : Bool
  fillTableID : UInt64
  lastSequences : List (UInt64 × Int64)
  transient : Bool
  storeTombstones : Bool

namespace TableExecutor

def requiresPreviousRow (t : TableExecutor) : Bool := !t.consumingNodes.isEmpty || t.filling

/-- What the loop of `HandleRows` makes of one entry: the previous and current
row it hands on, the key it writes, and the value put there (`none` for a
delete). The previous row of an insert or update comes from the row cache and
is read only when some node needs it. -/
def entryChange (t : TableExecutor) (rowCache : Bytes → Option Bytes) (shardID : UInt64) (batch : RowsBatch)
    (entry : RowsEntry) : Except String (Option Row × Option Row × Bytes × Option Bytes) := do
  let prevRow ← batch.PreviousRow entry
  let currentRow ← batch.CurrentRow entry
  match currentRow with
  | some currentRow =>
    let some keyBuff := EncodeKeyCols currentRow t.TableInfo.PrimaryKeyCols t.TableInfo.ColumnTypes
        (EncodeTableKeyPrefix t.TableInfo.ID shardID)
      | throw "cannot encode key"
    let prev ← if t.requiresPreviousRow then
        match rowCache keyBuff with
        | none => pure none
        | some v =>
          match DecodeRow v t.TableInfo.ColumnTypes [] with
          | some row => pure (some row)
          | none => throw "cannot decode row"
      else pure none
    let some valueBuff := EncodeRow currentRow t.TableInfo.ColumnTypes [] | throw "cannot encode row"
    pure (prev, some currentRow, keyBuff, some valueBuff)
  | none =>
    -- a delete: Go dereferences the previous row
    let some prevRow := prevRow | throw "nil pointer dereference"
    let some keyBuff := EncodeKeyCols prevRow t.TableInfo.PrimaryKeyCols t.TableInfo.ColumnTypes
        (EncodeTableKeyPrefix t.TableInfo.ID shardID)
      | throw "cannot encode key"
    pure (some prevRow, none, keyBuff, if t.storeTombstones then some [] else none)

/-- One pass of the loop of `HandleRows`: the entry appended to the rows handed
on, as `AppendEntry` appends it (`rc` counts the rows appended), and its put or
delete added to the write batch. -/
def handleEntry (t : TableExecutor) (rowCache : Bytes → Option Bytes) (batch : RowsBatch)
    (s : RowsBatch × WriteBatch) (entry : RowsEntry) : Except String (RowsBatch × WriteBatch) := do
  let (prev, curr, keyBuff, value) ← t.entryChange rowCache s.2.ShardID batch entry
  let out := if t.requiresPreviousRow then s.1.AppendEntry prev curr entry.receiverIndex else s.1
  match value with
  | some valueBuff => pure (out, s.2.AddPut keyBuff valueBuff)
  | none => pure (out, s.2.AddDelete keyBuff)

def handleRowsLoop (t : TableExecutor) (rowCache : Bytes → Option Bytes) (batch : RowsBatch)
    (writeBatch : WriteBatch) : Except String (RowsBatch × WriteBatch) :=
  batch.entries.foldlM (t.handleEntry rowCache batch) (⟨[], []⟩, writeBatch)

/-- `TableExecutor.ForwardToConsumingNodes`, over the nodes in the order the
map gives them. -/
def ForwardToConsumingNodes (t : TableExecutor) (rowsBatch : RowsBatch) (ctx : ExecutionContext) :
    Except String ExecutionContext :=
  t.consumingNodes.foldlM (fun ctx node => node rowsBatch ctx) ctx

/-- The loop of `captureChanges`: each current row put under the next
sequence of the fill table. A delete has no current row, and `EncodeRow`
dereferences it as soon as the table has a column. -/
def captureLoop (t : TableExecutor) (fillTableID shardID : UInt64) (rowsBatch : RowsBatch) :
    List RowsEntry → Int64 × WriteBatch → Except String (Int64 × WriteBatch)
  | [], s => pure s
  | entry :: entries, (nextSeq, wb) => do
    let row ← rowsBatch.CurrentRow entry
    let key := KeyEncodeInt64 (EncodeTableKeyPrefix fillTableID shardID) nextSeq
    let value ← match row with
      | some row =>
        match EncodeRow row t.TableInfo.ColumnTypes [] with
        | some value => pure value
        | none => throw "cannot encode row"
      | none => if t.TableInfo.ColumnTypes = [] then pure [] else throw "nil pointer dereference"
    t.captureLoop fillTableID shardID rowsBatch entries (nextSeq + 1, wb.AddPut key value)

/-- `TableExecutor.captureChanges`: the executor with the shard's last fill
sequence, and the write batch it writes locally. -/
def captureChanges (t : TableExecutor) (fillTableID : UInt64) (rowsBatch : RowsBatch) (shardID : UInt64) :
    Except String (TableExecutor × WriteBatch) := do
  let nextSeq : Int64 :=
    match t.lastSequences.lookup shardID with
    | none => 0
    | some ls => ls + 1
  let (nextSeq, wb) ← t.captureLoop fillTableID shardID rowsBatch rowsBatch.entries (nextSeq, NewWriteBatch shardID)
  pure ({ t with lastSequences := (shardID, nextSeq - 1) :: t.lastSequences.filter (·.1 ≠ shardID) }, wb)

def handleForwardAndCapture (t : TableExecutor) (rowsBatch : RowsBatch) (ctx : ExecutionContext) :
    Except String (TableExecutor × ExecutionContext × Option WriteBatch) := do
  let ctx ← t.ForwardToConsumingNodes rowsBatch ctx
  if t.filling && rowsBatch.entries.length != 0 then
    let (t, captured) ← t.captureChanges t.fillTableID rowsBatch ctx.WriteBatch.ShardID
    pure (t, ctx, some captured)
  else pure (t, ctx, none)

/-- `TableExecutor.HandleRows`: the executor, the context with the table's
writes, and the fill write made locally, if any. -/
def HandleRows (t : TableExecutor) (rowCache : Bytes → Option Bytes) (rowsBatch : RowsBatch)
    (ctx : ExecutionContext) : Except String (TableExecutor × ExecutionContext × Option WriteBatch) :=
  if t.transient then do
    let ctx ← t.ForwardToConsumingNodes rowsBatch ctx
    pure (t, ctx, none)
  else do
    let (out, wb) ← t.handleRowsLoop rowCache rowsBatch ctx.WriteBatch
    t.handleForwardAndCapture out { ctx with WriteBatch := wb }

/-- `TableExecutor.sendFillBatchFromPairs`: the batch it hands to the new
consumer from the rows scanned out of the fill table, and the receiver
sequence it stores. Each row becomes an entry with no previous row, under a
sequence counted on from the last one stored. -/
def sendFillBatchFromPairs (t : TableExecutor) (kvp : List (Bytes × Bytes)) (lastReceiverSeq : UInt64) :
    Except String (RowsBatch × UInt64) := do
  let rows ← kvp.mapM fun kv =>
    match DecodeRow kv.2 t.TableInfo.ColumnTypes [] with
    | some row => pure row
    | none => throw "cannot decode row"
  let receiverSeq := lastReceiverSeq + 1
  let entries := (List.range rows.length).map fun (i : Nat) =>
    (⟨-1, (i : Int), (receiverSeq + UInt64.ofNat i).toInt64⟩ : RowsEntry)
  pure (⟨rows, entries⟩, receiverSeq + UInt64.ofNat rows.length)

@[simp] theorem ShardID_AddPut (wb : WriteBatch) (k v : Bytes) : (wb.AddPut k v).ShardID = wb.ShardID := rfl

@[simp] theorem ShardID_AddDelete (wb : WriteBatch) (k : Bytes) : (wb.AddDelete k).ShardID = wb.ShardID := rfl

theorem handleEntry_ok {t : TableExecutor} {rowCache : Bytes → Option Bytes} {batch : RowsBatch}
    {s s' : RowsBatch × WriteBatch} {entry : RowsEntry} (h : t.handleEntry rowCache batch s entry = .ok s') :
    ∃ prev curr keyBuff value, t.entryChange rowCache s.2.ShardID batch entry = .ok (prev, curr, keyBuff, value) ∧
      s'.1 = (if t.requiresPreviousRow then s.1.AppendEntry prev curr entry.receiverIndex else s.1) ∧
      s'.2.ShardID = s.2.ShardID := by
  unfold handleEntry at h
  obtain ⟨⟨prev, curr, keyBuff, value⟩, hChange, h⟩ := bind_eq_ok.mp h
  refine ⟨prev, curr, keyBuff, value, hChange, ?_⟩
  cases value with
  | none =>
    cases pure_eq_ok.mp h
    exact ⟨rfl, rfl⟩
  | some valueBuff =>
    cases pure_eq_ok.mp h
    exact ⟨rfl, rfl⟩

theorem foldlM_handleEntry (t : TableExecutor) (rowCache : Bytes → Option Bytes) (batch : RowsBatch)
    (hReq : t.requiresPreviousRow = true) : ∀ (entries : List RowsEntry) (s s' : RowsBatch × WriteBatch),
      s.1.WellFormed → entries.foldlM (t.handleEntry rowCache batch) s = .ok s' →
        ∃ changes, entries.mapM (t.entryChange rowCache s.2.ShardID batch) = .ok changes ∧
          changePairs s'.1 = (changePairs s.1).map (· ++ changes.map fun c => (c.1, c.2.1)) ∧
          s'.1.WellFormed ∧ s'.2.ShardID = s.2.ShardID
  | [], s, s', hWF, hRun => by
    cases pure_eq_ok.mp hRun
    refine ⟨[], rfl, ?_, hWF, rfl⟩
    cases changePairs s.1 <;> simp [Except.map]
  | entry :: entries, s, s', hWF, hRun => by
    rw [List.foldlM_cons] at hRun
    obtain ⟨s₁, hStep, hRest⟩ := bind_eq_ok.mp hRun
    obtain ⟨prev, curr, keyBuff, value, hChange, hOut, hShard⟩ := handleEntry_ok hStep
    rw [hReq, if_pos rfl] at hOut
    have hWF₁ : s₁.1.WellFormed := hOut ▸ RowsBatch.WellFormed.AppendEntry hWF prev curr entry.receiverIndex
    obtain ⟨changes, hChanges, hPairs, hWF', hShard'⟩ := foldlM_handleEntry t rowCache batch hReq entries s₁ s' hWF₁ hRest
    rw [hShard] at hChanges
    refine ⟨(prev, curr, keyBuff, value) :: changes, ?_, ?_, hWF', hShard'.trans hShard⟩
    · rw [List.mapM_cons, hChange, hChanges]
      rfl
    · rw [hPairs, hOut, changePairs_AppendEntry hWF]
      cases changePairs s.1 <;> simp [Except.map]

theorem changePairs_handleRowsLoop {t : TableExecutor} {rowCache : Bytes → Option Bytes} {batch : RowsBatch}
    {writeBatch wb' : WriteBatch} {out : RowsBatch} (hReq : t.requiresPreviousRow = true)
    (h : t.handleRowsLoop rowCache batch writeBatch = .ok (out, wb')) :
    ∃ changes, batch.entries.mapM (t.entryChange rowCache writeBatch.ShardID batch) = .ok changes ∧
      changePairs out = .ok (changes.map fun c => (c.1, c.2.1)) := by
  obtain ⟨changes, hChanges, hPairs, -⟩ :=
    foldlM_handleEntry t rowCache batch hReq batch.entries (⟨[], []⟩, writeBatch) (out, wb') wellFormed_empty h
  exact ⟨changes, hChanges, hPairs⟩

theorem entryChange_of_currentRow_none {t : TableExecutor} {rowCache : Bytes → Option Bytes} {shardID : UInt64}
    {batch : RowsBatch} {entry : RowsEntry} {c : Option Row × Option Row × Bytes × Option Bytes}
    (hCurr : batch.CurrentRow entry = .ok none) (h : t.entryChange rowCache shardID batch entry = .ok c) :
    c.2.1 = none := by
  unfold entryChange at h
  obtain ⟨prevRow, -, h⟩ := bind_eq_ok.mp h
  rw [hCurr, ok_bind] at h
  dsimp only at h
  cases prevRow with
  | none => cases h
  | some prevRow =>
    dsimp only at h
    split at h
    · cases pure_eq_ok.mp h
      rfl
    · cases h

theorem captureLoop_error_of_delete (t : TableExecutor) (fillTableID shardID : UInt64) (rowsBatch : RowsBatch)
    (hCols : t.TableInfo.ColumnTypes ≠ []) : ∀ (entries : List RowsEntry) (s : Int64 × WriteBatch),
      (∃ entry ∈ entries, rowsBatch.CurrentRow entry = .ok none) →
        ∃ err, t.captureLoop fillTableID shardID rowsBatch entries s = .error err
  | [], _, ⟨_, h, _⟩ => absurd h List.not_mem_nil
  | entry :: entries, (nextSeq, wb), ⟨e, he, hNone⟩ => by
    rw [captureLoop]
    cases hRow : rowsBatch.CurrentRow entry with
    | error err => exact ⟨err, rfl⟩
    | ok row =>
      rw [ok_bind]
      cases row with
      | none =>
        refine ⟨"nil pointer dereference", ?_⟩
        simp only [hCols, ↓reduceIte]
        rfl
      | some row =>
        have hRest : ∃ entry ∈ entries, rowsBatch.CurrentRow entry = .ok none := by
          rcases List.mem_cons.mp he with rfl | he
          · rw [hRow] at hNone
            cases hNone
          · exact ⟨e, he, hNone⟩
        dsimp only
        split
        · obtain ⟨err, hErr⟩ := captureLoop_error_of_delete t fillTableID shardID rowsBatch hCols entries _ hRest
          exact ⟨err, hErr⟩
        · exact ⟨_, rfl⟩

theorem HandleRows_error_of_delete {t : TableExecutor} {rowCache : Bytes → Option Bytes} {batch : RowsBatch}
    {ctx : ExecutionContext} {out : RowsBatch} {wb : WriteBatch} (hFill : t.filling = true)
    (hTransient : t.transient = false) (hCols : t.TableInfo.ColumnTypes ≠ [])
    (hLoop : t.handleRowsLoop rowCache batch ctx.WriteBatch = .ok (out, wb))
    (hDelete : ∃ entry ∈ batch.entries, batch.CurrentRow entry = .ok none) :
    ∃ err, t.HandleRows rowCache batch ctx = .error err := by
  have hReq : t.requiresPreviousRow = true := by simp [requiresPreviousRow, hFill]
  obtain ⟨changes, hChanges, hPairs⟩ := changePairs_handleRowsLoop hReq hLoop
  obtain ⟨entry, hEntry, hNone⟩ := hDelete
  obtain ⟨c, hc, hChange⟩ := exists_mem_mapM_ok hChanges entry hEntry
  have hCurr := entryChange_of_currentRow_none hNone hChange
  obtain ⟨e, he, hPair⟩ := exists_of_mem_mapM_ok hPairs (c.1, c.2.1) (List.mem_map_of_mem hc)
  obtain ⟨prev, -, hPair⟩ := bind_eq_ok.mp hPair
  obtain ⟨curr, hCurrOut, hPair⟩ := bind_eq_ok.mp hPair
  have hCurrNone : out.CurrentRow e = .ok none := by
    rw [hCurrOut, (Prod.mk.inj (pure_eq_ok.mp hPair)).2, hCurr]
  have hLen : (out.entries.length != 0) = true := by
    simp only [bne_iff_ne, ne_eq, List.length_eq_zero_iff]
    exact List.ne_nil_of_mem he
  rw [HandleRows, if_neg (by simp [hTransient]), hLoop, ok_bind]
  dsimp only
  unfold handleForwardAndCapture
  cases t.ForwardToConsumingNodes out { ctx with WriteBatch := wb } with
  | error err => exact ⟨err, rfl⟩
  | ok ctx' =>
    rw [ok_bind, hFill, Bool.true_and, if_pos hLen]
    unfold captureChanges
    dsimp only
    obtain ⟨err, hErr⟩ := captureLoop_error_of_delete t t.fillTableID ctx'.WriteBatch.ShardID out hCols
      out.entries _ ⟨e, he, hCurrNone⟩
    rw [hErr]
    exact ⟨err, rfl⟩

theorem mapM_fill_entries (rows : List Row) (f : Nat → Int64) : ∀ n, n ≤ rows.length →
    ((List.range n).map fun (i : Nat) => (⟨-1, (i : Int), f i⟩ : RowsEntry)).mapM (fun entry => do
        let prev ← rowAt rows entry.prevIndex
        let curr ← rowAt rows entry.currIndex
        pure (prev, curr)) = .ok ((rows.take n).map fun row => (none, some row))
  | 0, _ => rfl
  | n + 1, h => by
    rw [List.range_succ, List.map_append, List.mapM_append, mapM_fill_entries rows f n (by omega),
      List.take_add_one, List.getElem?_eq_getElem (by omega)]
    simp only [List.map_cons, List.map_nil, List.mapM_cons, List.mapM_nil, rowAt_neg_one,
      rowAt_of_lt (show n < rows.length by omega), Option.toList_some, List.map_append]
    rfl

theorem changePairs_sendFillBatchFromPairs {t : TableExecutor} {kvp : List (Bytes × Bytes)}
    {lastReceiverSeq seq : UInt64} {b : RowsBatch} (h : t.sendFillBatchFromPairs kvp lastReceiverSeq = .ok (b, seq)) :
    changePairs b = .ok (b.rows.map fun row => (none, some row)) := by
  unfold sendFillBatchFromPairs at h
  obtain ⟨rows, -, h⟩ := bind_eq_ok.mp h
  cases pure_eq_ok.mp h
  have hAll := mapM_fill_entries rows (fun i => (lastReceiverSeq + 1 + UInt64.ofNat i).toInt64) rows.length
    (Nat.le_refl _)
  rw [List.take_length] at hAll
  exact hAll

end TableExecutor

/-- The row cache after `processReceiveBatch` commits a write batch: each put
stored, each delete outside the receiver table dropped. -/
def updateRowCache (wb : WriteBatch) (rowCache : Bytes → Option Bytes) :
    Except ClusterError (Bytes → Option Bytes) := do
  let rowCache ← wb.ForEachPut (fun k v rowCache => .ok fun k' => if k' = k then some v else rowCache k') rowCache
  wb.ForEachDelete (fun k rowCache =>
    match ReadUint64FromBufferBE k 8 with
    | none => .error (.panic "index out of range")
    | some (tableID, _) =>
      .ok (if tableID ≠ ReceiverTableID then fun k' => if k' = k then none else rowCache k' else rowCache))
    rowCache

theorem HandleRows_batch_reads_committed_rows :
    (∀ (t : TableExecutor) (rowCache : Bytes → Option Bytes) (batch : RowsBatch) (writeBatch wb' : WriteBatch)
        (out : RowsBatch),
      t.requiresPreviousRow = true → t.handleRowsLoop rowCache batch writeBatch = .ok (out, wb') →
        ∃ changes, batch.entries.mapM (t.entryChange rowCache writeBatch.ShardID batch) = .ok changes ∧
          changePairs out = .ok (changes.map fun c => (c.1, c.2.1))) ∧
    (∃ out wb, (⟨⟨100, [0], [.bigInt, .bigInt]⟩, [fun _ ctx => .ok ctx], false, 0, [], false, false⟩ : TableExecutor).handleRowsLoop (fun _ => none) (⟨[[some (.int64 1), some (.int64 10)], [some (.int64 1), some (.int64 20)]], [⟨-1, 0, 1⟩, ⟨-1, 1, 2⟩]⟩ : RowsBatch) (NewWriteBatch 1000) = .ok (out, wb) ∧
      changePairs out = .ok [(none, some [some (.int64 1), some (.int64 10)]), (none, some [some (.int64 1), some (.int64 20)])]) ∧
    ∃ out₁ wb₁ rowCache₁ out₂ wb₂,
      (⟨⟨100, [0], [.bigInt, .bigInt]⟩, [fun _ ctx => .ok ctx], false, 0, [], false, false⟩ : TableExecutor).handleRowsLoop (fun _ => none) ⟨[[some (.int64 1), some (.int64 10)]], [⟨-1, 0, 1⟩]⟩ (NewWriteBatch 1000) = .ok (out₁, wb₁) ∧
      changePairs out₁ = .ok [(none, some [some (.int64 1), some (.int64 10)])] ∧ updateRowCache wb₁ (fun _ => none) = .ok rowCache₁ ∧
      (⟨⟨100, [0], [.bigInt, .bigInt]⟩, [fun _ ctx => .ok ctx], false, 0, [], false, false⟩ : TableExecutor).handleRowsLoop rowCache₁ ⟨[[some (.int64 1), some (.int64 20)]], [⟨-1, 0, 2⟩]⟩ (NewWriteBatch 1000) = .ok (out₂, wb₂) ∧
      changePairs out₂ = .ok [(some [some (.int64 1), some (.int64 10)], some [some (.int64 1), some (.int64 20)])] := by
  refine ⟨fun t rowCache batch writeBatch wb' out hReq h => TableExecutor.changePairs_handleRowsLoop hReq h,
    ⟨_, _, rfl, rfl⟩, ?_⟩
  -- one per batch, the second upsert reads the row the first one committed
  exact ⟨_, _, _, _, _, rfl, rfl, rfl, rfl, rfl⟩

theorem HandleRows_batch_reads_committed_rows_upsert_twice :
    ∃ out wb, (⟨⟨100, [0], [.bigInt, .bigInt]⟩, [fun _ ctx => .ok ctx], false, 0, [], false, false⟩ : TableExecutor).handleRowsLoop (fun _ => none) (⟨[[some (.int64 1), some (.int64 10)], [some (.int64 1), some (.int64 20)]], [⟨-1, 0, 1⟩, ⟨-1, 1, 2⟩]⟩ : RowsBatch) (NewWriteBatch 1000) = .ok (out, wb) ∧
      ∃ changes, (⟨[[some (.int64 1), some (.int64 10)], [some (.int64 1), some (.int64 20)]], [⟨-1, 0, 1⟩, ⟨-1, 1, 2⟩]⟩ : RowsBatch).entries.mapM ((⟨⟨100, [0], [.bigInt, .bigInt]⟩, [fun _ ctx => .ok ctx], false, 0, [], false, false⟩ : TableExecutor).entryChange (fun _ => none) 1000 (⟨[[some (.int64 1), some (.int64 10)], [some (.int64 1), some (.int64 20)]], [⟨-1, 0, 1⟩, ⟨-1, 1, 2⟩]⟩ : RowsBatch)) = .ok changes ∧
        changePairs out = .ok (changes.map fun c => (c.1, c.2.1)) := by
  obtain ⟨out, wb, hLoop, -⟩ := HandleRows_batch_reads_committed_rows.2.1
  exact ⟨out, wb, hLoop, HandleRows_batch_reads_committed_rows.1 (⟨⟨100, [0], [.bigInt, .bigInt]⟩, [fun _ ctx => .ok ctx], false, 0, [], false, false⟩ : TableExecutor) (fun _ => none) (⟨[[some (.int64 1), some (.int64 10)], [some (.int64 1), some (.int64 20)]], [⟨-1, 0, 1⟩, ⟨-1, 1, 2⟩]⟩ : RowsBatch) (NewWriteBatch 1000) wb out
    rfl hLoop⟩

theorem captureChanges_loses_previous_rows :
    (∀ (t : TableExecutor) (rowCache : Bytes → Option Bytes) (batch : RowsBatch) (ctx : ExecutionContext)
        (out : RowsBatch) (wb : WriteBatch),
      t.filling = true → t.transient = false → t.TableInfo.ColumnTypes ≠ [] →
        t.handleRowsLoop rowCache batch ctx.WriteBatch = .ok (out, wb) →
          (∃ entry ∈ batch.entries, batch.CurrentRow entry = .ok none) →
            ∃ err, t.HandleRows rowCache batch ctx = .error err) ∧
    (∀ (t : TableExecutor) (kvp : List (Bytes × Bytes)) (lastReceiverSeq seq : UInt64) (b : RowsBatch),
      t.sendFillBatchFromPairs kvp lastReceiverSeq = .ok (b, seq) →
        changePairs b = .ok (b.rows.map fun row => (none, some row))) ∧
    (∃ out wb, (⟨⟨100, [0], [.bigInt, .bigInt]⟩, [], true, 200, [], false, false⟩ : TableExecutor).handleRowsLoop (fun _ => EncodeRow [some (.int64 1), some (.int64 10)] [.bigInt, .bigInt] []) ⟨[[some (.int64 1), some (.int64 10)], [some (.int64 1), some (.int64 20)]], [⟨0, 1, 1⟩]⟩ (NewWriteBatch 1000) = .ok (out, wb) ∧
      changePairs out = .ok [(some [some (.int64 1), some (.int64 10)], some [some (.int64 1), some (.int64 20)])]) ∧
    (∃ t' ctx' captured kvp b seq,
      (⟨⟨100, [0], [.bigInt, .bigInt]⟩, [], true, 200, [], false, false⟩ : TableExecutor).HandleRows (fun _ => EncodeRow [some (.int64 1), some (.int64 10)] [.bigInt, .bigInt] []) ⟨[[some (.int64 1), some (.int64 10)], [some (.int64 1), some (.int64 20)]], [⟨0, 1, 1⟩]⟩ ⟨NewWriteBatch 1000, []⟩ = .ok (t', ctx', some captured) ∧
      captured.ForEachPut (fun k v l => .ok (l ++ [(k, v)])) [] = .ok kvp ∧
      (⟨⟨100, [0], [.bigInt, .bigInt]⟩, [], true, 200, [], false, false⟩ : TableExecutor).sendFillBatchFromPairs kvp 0 = .ok (b, seq) ∧ changePairs b = .ok [(none, some [some (.int64 1), some (.int64 20)])]) ∧
    (⟨⟨100, [0], [.bigInt, .bigInt]⟩, [], true, 200, [], false, false⟩ : TableExecutor).HandleRows (fun _ => EncodeRow [some (.int64 1), some (.int64 10)] [.bigInt, .bigInt] []) ⟨[[some (.int64 1), some (.int64 10)]], [⟨0, -1, 2⟩]⟩ ⟨NewWriteBatch 1000, []⟩ = .error "nil pointer dereference" := by
  refine ⟨fun t rowCache batch ctx out wb hFill hTransient hCols hLoop hDelete =>
      TableExecutor.HandleRows_error_of_delete hFill hTransient hCols hLoop hDelete,
    fun t kvp lastReceiverSeq seq b h => TableExecutor.changePairs_sendFillBatchFromPairs h, ?_, ?_, rfl⟩
  · -- the table's change is the update from the committed row
    exact ⟨_, _, rfl, rfl⟩
  · -- the fill table keeps only its current row, which the replay hands on as an insert
    exact ⟨_, _, _, _, _, _, rfl, rfl, rfl, rfl⟩

theorem captureChanges_loses_previous_rows_delete :
    (∃ out wb, (⟨⟨100, [0], [.bigInt, .bigInt]⟩, [], true, 200, [], false, false⟩ : TableExecutor).handleRowsLoop (fun _ => EncodeRow [some (.int64 1), some (.int64 10)] [.bigInt, .bigInt] []) ⟨[[some (.int64 1), some (.int64 10)]], [⟨0, -1, 2⟩]⟩ (NewWriteBatch 1000) = .ok (out, wb) ∧
      ∃ err, (⟨⟨100, [0], [.bigInt, .bigInt]⟩, [], true, 200, [], false, false⟩ : TableExecutor).HandleRows (fun _ => EncodeRow [some (.int64 1), some (.int64 10)] [.bigInt, .bigInt] []) ⟨[[some (.int64 1), some (.int64 10)]], [⟨0, -1, 2⟩]⟩ ⟨NewWriteBatch 1000, []⟩ = .error err) ∧
    ∃ kvp b seq, (⟨⟨100, [0], [.bigInt, .bigInt]⟩, [], true, 200, [], false, false⟩ : TableExecutor).sendFillBatchFromPairs kvp 0 = .ok (b, seq) ∧
      changePairs b = .ok (b.rows.map fun row => (none, some row)) := by
  obtain ⟨out, wb, hLoop⟩ : ∃ out wb, (⟨⟨100, [0], [.bigInt, .bigInt]⟩, [], true, 200, [], false, false⟩ : TableExecutor).handleRowsLoop (fun _ => EncodeRow [some (.int64 1), some (.int64 10)] [.bigInt, .bigInt] []) ⟨[[some (.int64 1), some (.int64 10)]], [⟨0, -1, 2⟩]⟩ (NewWriteBatch 1000) =
      .ok (out, wb) := ⟨_, _, rfl⟩
  obtain ⟨-, -, -, kvp, b, seq, -, -, hSend, -⟩ := captureChanges_loses_previous_rows.2.2.2.1
  refine ⟨⟨out, wb, hLoop, captureChanges_loses_previous_rows.1 (⟨⟨100, [0], [.bigInt, .bigInt]⟩, [], true, 200, [], false, false⟩ : TableExecutor) (fun _ => EncodeRow [some (.int64 1), some (.int64 10)] [.bigInt, .bigInt] []) ⟨[[some (.int64 1), some (.int64 10)]], [⟨0, -1, 2⟩]⟩
    ⟨NewWriteBatch 1000, []⟩ out wb rfl rfl (by decide) hLoop ⟨⟨0, -1, 2⟩, List.mem_singleton_self _, rfl⟩⟩,
    kvp, b, seq, hSend, captureChanges_loses_previous_rows.2.1 (⟨⟨100, [0], [.bigInt, .bigInt]⟩, [], true, 200, [], false, false⟩ : TableExecutor) kvp 0 seq b hSend⟩

end PranaDB
