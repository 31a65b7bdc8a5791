import PranaDB.Push.Reaper
import PranaDB.Lib.BinaryHeap

/-! # A run of the reaper (`Reaper.doRun`)

The reaper of a shard keeps its tables in a heap ordered by the time of each
table's next check (`tableHeap`, Go's `container/heap`). A run takes tables
from the top of the heap while their check time has come and fewer than
`maxDeleteBatchSize` rows are deleted, runs `processDeletes` on each and
pushes it back with the time it returns. The run returns the batch of
deletes to write, if it deleted a row, and the delay to the next run.

The run reads the clock before each table and once at the end: `clock k` is
the `k`-th reading. The loop is bounded by a fuel argument.
-/

namespace PranaDB
set_option autoImplicit false

structure itemHolder where
  CheckTime : Int
  Table : RetentionTableInfo
deriving DecidableEq, Repr

def itemHolder.less (a b : itemHolder) : Bool := decide (a.CheckTime < b.CheckTime)

/-- The fields of `Reaper` a run reads. -/
structure Reaper where
  started : Bool
  shardID : UInt64
  tableHeap : List itemHolder
  maxDeleteBatchSize : Nat

/-- `minBatchDelay`, 10 ms in nanoseconds. -/
def minBatchDelay : Int := 10000000

/-- `AddTable` without the scheduling of a run: a new table goes on the heap
with check time 0, so that the next run looks at it. `none` is a panic. -/
def Reaper.AddTable (r : Reaper) (table : RetentionTableInfo) : Option Reaper :=
  if table.RetentionDuration < 1000000 then none
  else if !r.started then none
  else some { r with tableHeap := BinaryHeap.push itemHolder.less r.tableHeap ⟨0, table⟩ }

/-- Where the loop of `doRun` stopped: the table it looked at last, the rows
deleted, the batch and the number of clock readings. -/
structure RunLoopEnd where
  oldest : Option itemHolder
  rowsDeleted : Nat
  wb : WriteBatch
  readings : Nat

section
variable (goTimeUnixMicro : Timestamp → Option Int) (localIterator : Bytes → Bytes → List (Bytes × Bytes))
  (clock : Nat → Int) (shardID : UInt64) (maxDeleteBatchSize : Nat)

/-- The loop of `doRun`, `for rowsDeleted < r.maxDeleteBatchSize`: the heap it
leaves and where it stopped. A failing `processDeletes` leaves the heap without
the table it popped. `none` is the end of the fuel. -/
def doRunLoop : Nat → Nat → List itemHolder → Option itemHolder → Nat → WriteBatch →
    Option (List itemHolder × Except ReaperError RunLoopEnd)
  | 0, _, _, _, _, _ => none
  | fuel + 1, k, tableHeap, oldest, rowsDeleted, wb =>
    if rowsDeleted < maxDeleteBatchSize then
      match tableHeap.head? with
      | some item =>
        if clock k - item.CheckTime ≥ 0 then do
          let (_, tableHeap) ← BinaryHeap.pop itemHolder.less tableHeap
          match processDeletes goTimeUnixMicro localIterator shardID item.Table (clock k) wb
              (maxDeleteBatchSize - rowsDeleted) with
          | .error err => some (tableHeap, .error err)
          | .ok (nextTime, numDeleted, wb) =>
            doRunLoop fuel (k + 1) (BinaryHeap.push itemHolder.less tableHeap ⟨nextTime, item.Table⟩)
              (some item) (rowsDeleted + numDeleted) wb
        else some (tableHeap, .ok ⟨some item, rowsDeleted, wb, k + 1⟩)
      | none => some (tableHeap, .ok ⟨none, rowsDeleted, wb, k + 1⟩)
    else some (tableHeap, .ok ⟨oldest, rowsDeleted, wb, k⟩)

/-- `Reaper.doRun`: the reaper after the run, and the delay to the next run in
nanoseconds (-1 for none) with the batch to write if a row was deleted. A
`none` after the loop is the nil dereference of `oldest`. -/
def doRun (r : Reaper) (fuel : Nat) : Option (Reaper × Except ReaperError (Int × Option WriteBatch)) :=
  if !r.started then some (r, .ok (0, none))
  else if r.tableHeap.length = 0 then some (r, .ok (-1, none))
  else do
    let (tableHeap, outcome) ← doRunLoop goTimeUnixMicro localIterator clock r.shardID r.maxDeleteBatchSize
      fuel 0 r.tableHeap none 0 (NewWriteBatch r.shardID)
    let r := { r with tableHeap := tableHeap }
    match outcome with
    | .error err => some (r, .error err)
    | .ok e =>
      let toWrite := if e.rowsDeleted > 0 then some e.wb else none
      if e.rowsDeleted = r.maxDeleteBatchSize then some (r, .ok (0, toWrite))
      else do
        let oldest ← e.oldest
        let delay := (oldest.CheckTime - clock e.readings) * 1000
        some (r, .ok (if delay < minBatchDelay then minBatchDelay else delay, toWrite))

theorem doRunLoop_tables :
    ∀ (fuel k : Nat) (tableHeap : List itemHolder) (oldest : Option itemHolder) (rowsDeleted : Nat)
      (wb : WriteBatch) {tableHeap' : List itemHolder} {outcome : Except ReaperError RunLoopEnd},
      doRunLoop goTimeUnixMicro localIterator clock shardID maxDeleteBatchSize fuel k tableHeap oldest
        rowsDeleted wb = some (tableHeap', outcome) →
      (outcome.isOk → (tableHeap'.map itemHolder.Table).Perm (tableHeap.map itemHolder.Table)) ∧
      (¬ outcome.isOk → ∃ table, (table :: tableHeap'.map itemHolder.Table).Perm
        (tableHeap.map itemHolder.Table))
  | 0, _, _, _, _, _, _, _, h => by cases h
  | fuel + 1, k, tableHeap, oldest, rowsDeleted, wb, tableHeap', outcome, h => by
    unfold doRunLoop at h
    split at h
    · split at h
      · rename_i item hHead
        split at h
        · simp only [Option.bind_eq_bind, Option.bind_eq_some_iff] at h
          obtain ⟨⟨top, rest⟩, hPop, h⟩ := h
          obtain ⟨hTop, hPerm⟩ := BinaryHeap.pop_eq_some itemHolder.less hPop
          rw [hHead, Option.some.injEq] at hTop
          subst hTop
          have hTables : (item.Table :: rest.map itemHolder.Table).Perm (tableHeap.map itemHolder.Table) :=
            (hPerm.map itemHolder.Table).symm
          split at h
          · -- the table that failed is off the heap
            simp only [Option.some.injEq, Prod.mk.injEq] at h
            obtain ⟨rfl, rfl⟩ := h
            exact ⟨fun hOk => by simp [Except.isOk, Except.toBool] at hOk, fun _ => ⟨item.Table, hTables⟩⟩
          · rename_i nextTime numDeleted wb' _
            obtain ⟨hOk, hErr⟩ := doRunLoop_tables fuel _ _ _ _ _ h
            have hPushed : ((BinaryHeap.push itemHolder.less rest ⟨nextTime, item.Table⟩).map itemHolder.Table).Perm
                (tableHeap.map itemHolder.Table) :=
              ((BinaryHeap.push_perm itemHolder.less rest _).map itemHolder.Table).trans hTables
            refine ⟨fun h' => (hOk h').trans hPushed, fun h' => ?_⟩
            obtain ⟨table, hTable⟩ := hErr h'
            exact ⟨table, hTable.trans hPushed⟩
        · simp only [Option.some.injEq, Prod.mk.injEq] at h
          obtain ⟨rfl, rfl⟩ := h
          exact ⟨fun _ => List.Perm.refl _, fun hOk => by simp [Except.isOk, Except.toBool] at hOk⟩
      · simp only [Option.some.injEq, Prod.mk.injEq] at h
        obtain ⟨rfl, rfl⟩ := h
        exact ⟨fun _ => List.Perm.refl _, fun hOk => by simp [Except.isOk, Except.toBool] at hOk⟩
    · simp only [Option.some.injEq, Prod.mk.injEq] at h
      obtain ⟨rfl, rfl⟩ := h
      exact ⟨fun _ => List.Perm.refl _, fun hOk => by simp [Except.isOk, Except.toBool] at hOk⟩

theorem doRunLoop_tables_bad_index_key :
    doRunLoop (fun _ => none) (fun _ _ => [([1], [])]) (fun _ => 100) 1000 5 2 0 [⟨0, ⟨7, 10000000, 11⟩⟩] none 0
        (NewWriteBatch 1000) = some ([], .error .decodeRowTime) ∧
      ∃ table, List.Perm (table :: ([] : List itemHolder).map itemHolder.Table)
        ([(⟨0, ⟨7, 10000000, 11⟩⟩ : itemHolder)].map itemHolder.Table) := by
  have hRun : doRunLoop (fun _ => none) (fun _ _ => [([1], [])]) (fun _ => 100) 1000 5 2 0 [⟨0, ⟨7, 10000000, 11⟩⟩]
      none 0 (NewWriteBatch 1000) = some ([], .error .decodeRowTime) := by
    have hKey : KeyDecodeTimestamp [1] 17 6 = none := by decide
    simp [doRunLoop, BinaryHeap.pop_singleton, processDeletes, processDeletesLoop, hKey]
  exact ⟨hRun, (doRunLoop_tables _ _ _ _ _ 2 0 _ none 0 _ hRun).2 (by decide)⟩

theorem doRunLoop_not_due (fuel k : Nat) {item : itemHolder} {rest : List itemHolder} (oldest : Option itemHolder)
    {rowsDeleted : Nat} (wb : WriteBatch) (hBudget : rowsDeleted < maxDeleteBatchSize)
    (hNotDue : clock k < item.CheckTime) :
    doRunLoop goTimeUnixMicro localIterator clock shardID maxDeleteBatchSize (fuel + 1) k (item :: rest) oldest
      rowsDeleted wb = some (item :: rest, .ok ⟨some item, rowsDeleted, wb, k + 1⟩) := by
  have hWait : ¬ clock k - item.CheckTime ≥ 0 := by omega
  simp only [doRunLoop, hBudget, ↓reduceIte, List.head?_cons, hWait]

theorem doRunLoop_due (fuel k : Nat) (tableHeap : List itemHolder) {item top : itemHolder}
    {rest : List itemHolder} (oldest : Option itemHolder) {rowsDeleted : Nat} {wb : WriteBatch} {nextTime : Int}
    {numDeleted : Nat} {wb' : WriteBatch} (hBudget : rowsDeleted < maxDeleteBatchSize)
    (hHead : tableHeap.head? = some item) (hDue : item.CheckTime ≤ clock k)
    (hPop : BinaryHeap.pop itemHolder.less tableHeap = some (top, rest))
    (hProc : processDeletes goTimeUnixMicro localIterator shardID item.Table (clock k) wb
      (maxDeleteBatchSize - rowsDeleted) = .ok (nextTime, numDeleted, wb')) :
    doRunLoop goTimeUnixMicro localIterator clock shardID maxDeleteBatchSize (fuel + 1) k tableHeap oldest
        rowsDeleted wb =
      doRunLoop goTimeUnixMicro localIterator clock shardID maxDeleteBatchSize fuel (k + 1)
        (BinaryHeap.push itemHolder.less rest ⟨nextTime, item.Table⟩) (some item) (rowsDeleted + numDeleted) wb' := by
  have hGe : clock k - item.CheckTime ≥ 0 := by omega
  simp only [doRunLoop, hBudget, ↓reduceIte, hHead, hGe, Option.bind_eq_bind, hPop, Option.bind_some, hProc]

end

/-! ## The contract of a run

A run is looked at from one time `now`, the clock reading `now` throughout, and
against the row times `times tab` of the row-time index of each table. Between
runs the heap keeps `Reaper.Scheduled`: every table is due no later than the
expiry of each of its rows. A run from such a heap deletes the expired rows of
the tables, up to `maxDeleteBatchSize` of them, and puts each table back due
no later than the expiry of each row it left. -/

/-- A table of the heap at the start of a run, the number of rows the run
deleted from it and the check time it has on the heap after the run. -/
structure Reaped where
  item : itemHolder
  deleted : Nat
  next : Int
deriving DecidableEq, Repr

def Reaped.current (s : Reaped) : itemHolder := ⟨s.next, s.item.Table⟩

def Reaped.untouched (item : itemHolder) : Reaped := ⟨item, 0, item.CheckTime⟩

@[simp] theorem Reaped.untouched_item (item : itemHolder) : (Reaped.untouched item).item = item := rfl

@[simp] theorem Reaped.untouched_deleted (item : itemHolder) : (Reaped.untouched item).deleted = 0 := rfl

@[simp] theorem Reaped.current_untouched (item : itemHolder) : (Reaped.untouched item).current = item := rfl

section Contract

variable (goTimeUnixMicro : Timestamp → Option Int) (localIterator : Bytes → Bytes → List (Bytes × Bytes))
  (now : Int) (times : RetentionTableInfo → List Int)

def expiredRows (tab : RetentionTableInfo) : Nat := (times tab).countP (expired tab.RetentionDuration now)

/-- What the heap of a reaper keeps between runs: the heap order on check times,
retentions of at least a second, the row-time index of every table, and every
table due no later than the expiry of each of its rows. -/
structure Reaper.Scheduled (r : Reaper) : Prop where
  heapOrder : BinaryHeap.HeapOrder itemHolder.CheckTime r.tableHeap.length r.tableHeap
  retention : ∀ item ∈ r.tableHeap, 1000000 ≤ item.Table.RetentionDuration
  index : ∀ item ∈ r.tableHeap, RowTimeIndex goTimeUnixMicro
    (EncodeTableKeyPrefix item.Table.RowTimeIndexID r.shardID)
    (reaperIndexEntries localIterator r.shardID item.Table) (times item.Table)
  due : ∀ item ∈ r.tableHeap, ∀ t ∈ times item.Table, item.CheckTime ≤ max (t + item.Table.RetentionDuration) 0

def Reaped.process (item : itemHolder) (budget : Nat) : Reaped :=
  ⟨item, deleteCount item.Table.RetentionDuration now budget (times item.Table),
    nextCheckTime item.Table.RetentionDuration now budget (times item.Table)
      (deleteCount item.Table.RetentionDuration now budget (times item.Table))⟩

def Reaped.rowKeys (shardID : UInt64) (s : Reaped) : List Bytes :=
  ((reaperIndexEntries localIterator shardID s.item.Table).take s.deleted).map fun p =>
    rowKeyOfIndexKey (EncodeTableKeyPrefix s.item.Table.ID shardID) p.1

@[simp] theorem Reaped.rowKeys_untouched (shardID : UInt64) (item : itemHolder) :
    (Reaped.untouched item).rowKeys localIterator shardID = [] := by
  simp [Reaped.rowKeys]

/-- The rows a run deleted from a table are expired and at most its expired
rows, and the table is due again no later than the expiry of each row left. -/
structure Reaped.Sound (s : Reaped) : Prop where
  deleted_le : s.deleted ≤ expiredRows now times s.item.Table
  expired_taken : ∀ t ∈ (times s.item.Table).take s.deleted,
    expired s.item.Table.RetentionDuration now t = true
  next_le : ∀ t ∈ (times s.item.Table).drop s.deleted, s.next ≤ max (t + s.item.Table.RetentionDuration) 0

/-- The loop of a run part way, from the heap of `r`: the tables `todo` not yet
processed and `done` processed, `total` rows deleted, and the batch `wb`
holding their deletes `ds` and the delete ranges `rs`. A table processed has
lost all its expired rows and is not due, unless the row limit is reached. -/
structure RunInv (r : Reaper) (todo : List itemHolder) (done : List Reaped) (heap : List itemHolder)
    (total : Nat) (wb : WriteBatch) (ds : List Bytes) (rs : List (Bytes × Bytes)) : Prop where
  slots : r.tableHeap.Perm (todo ++ done.map Reaped.item)
  heap_perm : heap.Perm (todo ++ done.map Reaped.current)
  heapOrder : BinaryHeap.HeapOrder itemHolder.CheckTime heap.length heap
  total_eq : total = (done.map Reaped.deleted).sum
  total_le : total ≤ r.maxDeleteBatchSize
  sound : ∀ s ∈ done, s.Sound now times
  all_deleted : ∀ s ∈ done, s.deleted = expiredRows now times s.item.Table ∨ total = r.maxDeleteBatchSize
  not_due : ∀ s ∈ done, now < s.next ∨ total = r.maxDeleteBatchSize
  holds : wb.Holds ⟨[], ds, rs⟩
  shard : wb.ShardID = r.shardID
  deletes : ds.Perm (done.flatMap (Reaped.rowKeys localIterator r.shardID))
  covered : ∀ s ∈ done, ∀ p ∈ (reaperIndexEntries localIterator r.shardID s.item.Table).take s.deleted,
    ∃ rg ∈ rs, KVStore.InRange rg.1 rg.2 p.1

/-- What a run from the heap of `r` returns: `slots` pairs every table of the
heap with what the run did to it. -/
structure RunOutcome (r : Reaper) (slots : List Reaped) (heap' : List itemHolder) (delay : Int)
    (toWrite : Option WriteBatch) : Prop where
  tables : (slots.map Reaped.item).Perm r.tableHeap
  sound : ∀ s ∈ slots, s.Sound now times
  total : (slots.map Reaped.deleted).sum =
    min r.maxDeleteBatchSize ((slots.map fun s => expiredRows now times s.item.Table).sum)
  all_deleted : (slots.map fun s => expiredRows now times s.item.Table).sum ≤ r.maxDeleteBatchSize →
    ∀ s ∈ slots, s.deleted = expiredRows now times s.item.Table
  heap_perm : heap'.Perm (slots.map Reaped.current)
  heapOrder : BinaryHeap.HeapOrder itemHolder.CheckTime heap'.length heap'
  toWrite_isSome : toWrite.isSome ↔ 0 < (slots.map Reaped.deleted).sum
  batch : ∀ wb ∈ toWrite, wb.ShardID = r.shardID ∧ ∃ ds rs, wb.Holds ⟨[], ds, rs⟩ ∧
    ds.Perm (slots.flatMap (Reaped.rowKeys localIterator r.shardID)) ∧
    ∀ s ∈ slots, ∀ p ∈ (reaperIndexEntries localIterator r.shardID s.item.Table).take s.deleted,
      ∃ rg ∈ rs, KVStore.InRange rg.1 rg.2 p.1
  delay_full : (slots.map Reaped.deleted).sum = r.maxDeleteBatchSize → delay = 0
  delay_next : (slots.map Reaped.deleted).sum < r.maxDeleteBatchSize → ∃ item, heap'.head? = some item ∧
    now < item.CheckTime ∧
    delay = if (item.CheckTime - now) * 1000 < minBatchDelay then minBatchDelay else (item.CheckTime - now) * 1000

variable {goTimeUnixMicro localIterator now times}

theorem itemHolder.less_eq (a b : itemHolder) : itemHolder.less a b = decide (a.CheckTime < b.CheckTime) := rfl

theorem Reaper.Scheduled.sound_untouched {r : Reaper} (hSched : r.Scheduled goTimeUnixMicro localIterator times)
    {item : itemHolder} (hItem : item ∈ r.tableHeap) : (Reaped.untouched item).Sound now times where
  deleted_le := Nat.zero_le _
  expired_taken := by simp [Reaped.untouched]
  next_le := by simpa [Reaped.untouched] using hSched.due item hItem

theorem Reaper.Scheduled.expiredRows_eq_zero {r : Reaper} (hSched : r.Scheduled goTimeUnixMicro localIterator times)
    (hNow : 0 ≤ now) {item : itemHolder} (hItem : item ∈ r.tableHeap) (hLater : now < item.CheckTime) :
    expiredRows now times item.Table = 0 := by
  rw [expiredRows, List.countP_eq_zero]
  intro t ht hExp
  have hDue := hSched.due item hItem t ht
  simp only [expired, decide_eq_true_eq] at hExp
  omega

theorem Reaped.sound_process {item : itemHolder} (hSorted : (times item.Table).Pairwise (· ≤ ·))
    (budget : Nat) : (Reaped.process now times item budget).Sound now times where
  deleted_le := by
    rw [Reaped.process, deleteCount_eq_min_countP hSorted]
    exact min_le_left _ _
  expired_taken := fun _ ht => expired_of_mem_take ht
  next_le := fun _ ht => nextCheckTime_le hSorted _ ht

theorem Reaper.Scheduled.addTable {r r' : Reaper} (hSched : r.Scheduled goTimeUnixMicro localIterator times)
    {table : RetentionTableInfo} (hIndex : RowTimeIndex goTimeUnixMicro
      (EncodeTableKeyPrefix table.RowTimeIndexID r.shardID) (reaperIndexEntries localIterator r.shardID table)
      (times table))
    (hAdd : r.AddTable table = some r') : r'.Scheduled goTimeUnixMicro localIterator times := by
  unfold Reaper.AddTable at hAdd
  split at hAdd
  · cases hAdd
  · rename_i hRetention
    split at hAdd
    · cases hAdd
    · cases hAdd
      have hMem : ∀ item ∈ BinaryHeap.push itemHolder.less r.tableHeap ⟨0, table⟩,
          item = ⟨0, table⟩ ∨ item ∈ r.tableHeap := fun item hItem =>
        List.mem_cons.mp ((BinaryHeap.push_perm itemHolder.less _ _).subset hItem)
      refine ⟨BinaryHeap.push_heapOrder _ itemHolder.less_eq hSched.heapOrder _, ?_, ?_, ?_⟩
      · intro item hItem
        rcases hMem item hItem with rfl | hItem
        · exact le_of_not_gt hRetention
        · exact hSched.retention item hItem
      · intro item hItem
        rcases hMem item hItem with rfl | hItem
        · exact hIndex
        · exact hSched.index item hItem
      · intro item hItem
        rcases hMem item hItem with rfl | hItem
        · exact fun _ _ => le_max_right _ _
        · exact hSched.due item hItem

section Loop

variable {r : Reaper} {todo : List itemHolder} {done : List Reaped} {heap : List itemHolder} {total : Nat}
  {wb : WriteBatch} {ds : List Bytes} {rs : List (Bytes × Bytes)}

theorem RunInv.initial (hSched : r.Scheduled goTimeUnixMicro localIterator times) :
    RunInv localIterator now times r r.tableHeap [] r.tableHeap 0 (NewWriteBatch r.shardID) [] [] where
  slots := by simp
  heap_perm := by simp
  heapOrder := hSched.heapOrder
  total_eq := rfl
  total_le := Nat.zero_le _
  sound := by simp
  all_deleted := by simp
  not_due := by simp
  holds := WriteBatch.Holds.newWriteBatch r.shardID
  shard := rfl
  deletes := by simp
  covered := by simp

theorem RunInv.length_eq (inv : RunInv localIterator now times r todo done heap total wb ds rs) :
    heap.length = r.tableHeap.length := by
  rw [inv.heap_perm.length_eq, inv.slots.length_eq]
  simp

theorem RunInv.mem_todo (inv : RunInv localIterator now times r todo done heap total wb ds rs)
    (hTotal : total < r.maxDeleteBatchSize) {item : itemHolder} (hHead : heap.head? = some item)
    (hDue : item.CheckTime ≤ now) : item ∈ todo := by
  rcases List.mem_append.mp (inv.heap_perm.subset (List.mem_of_mem_head? hHead)) with hTodo | hDone
  · exact hTodo
  · obtain ⟨s, hs, rfl⟩ := List.mem_map.mp hDone
    rcases inv.not_due s hs with hLater | hFull
    · exact absurd hDue (not_le.mpr hLater)
    · omega

theorem RunInv.step (hSched : r.Scheduled goTimeUnixMicro localIterator times)
    (inv : RunInv localIterator now times r todo done heap total wb ds rs) {item : itemHolder}
    {rest : List itemHolder} (hMem : item ∈ todo) (hPop : BinaryHeap.pop itemHolder.less heap = some (item, rest))
    (hTotal : total < r.maxDeleteBatchSize) :
    ∃ wb' rs', processDeletes goTimeUnixMicro localIterator r.shardID item.Table now wb
        (r.maxDeleteBatchSize - total) =
          .ok ((Reaped.process now times item (r.maxDeleteBatchSize - total)).next,
            (Reaped.process now times item (r.maxDeleteBatchSize - total)).deleted, wb') ∧
      RunInv localIterator now times r (todo.erase item)
        (Reaped.process now times item (r.maxDeleteBatchSize - total) :: done)
        (BinaryHeap.push itemHolder.less rest (Reaped.process now times item (r.maxDeleteBatchSize - total)).current)
        (total + (Reaped.process now times item (r.maxDeleteBatchSize - total)).deleted) wb'
        (ds ++ (Reaped.process now times item (r.maxDeleteBatchSize - total)).rowKeys localIterator r.shardID)
        (rs ++ rs') := by
  have hItem : item ∈ r.tableHeap := inv.slots.symm.subset (List.mem_append_left _ hMem)
  have hIndex := hSched.index item hItem
  have hR : 0 < item.Table.RetentionDuration := by
    have := hSched.retention item hItem
    omega
  obtain ⟨wb', rs', hProc, hHolds, hShard, hCover⟩ :=
    processDeletes_spec goTimeUnixMicro localIterator r.shardID item.Table hIndex now inv.holds
      (r.maxDeleteBatchSize - total)
  refine ⟨wb', rs', hProc, ?_⟩
  generalize hs : Reaped.process now times item (r.maxDeleteBatchSize - total) = s
  have hsItem : s.item = item := by rw [← hs]; rfl
  have hd : s.deleted = min (expiredRows now times item.Table) (r.maxDeleteBatchSize - total) := by
    rw [← hs]
    exact deleteCount_eq_min_countP hIndex.timeOrder _
  have hTodo : todo.Perm (item :: todo.erase item) := List.perm_cons_erase hMem
  have hRest : rest.Perm (todo.erase item ++ done.map Reaped.current) :=
    ((BinaryHeap.pop_eq_some itemHolder.less hPop).2.symm.trans
      (inv.heap_perm.trans (hTodo.append_right _))).cons_inv
  have hSound : s.Sound now times := hs ▸ Reaped.sound_process hIndex.timeOrder _
  have hAll : s.deleted = expiredRows now times s.item.Table ∨
      total + s.deleted = r.maxDeleteBatchSize := by
    rw [hsItem]
    omega
  have hLater : now < s.next ∨ total + s.deleted = r.maxDeleteBatchSize := by
    by_cases hRoom : s.deleted < r.maxDeleteBatchSize - total
    · subst hs
      exact .inl (lt_nextCheckTime hR hRoom)
    · omega
  constructor
  · calc r.tableHeap.Perm (todo ++ done.map Reaped.item) := inv.slots
      List.Perm _ ((item :: todo.erase item) ++ done.map Reaped.item) := hTodo.append_right _
      List.Perm _ (todo.erase item ++ (s :: done).map Reaped.item) := by
        rw [List.map_cons, hsItem]
        exact List.perm_middle.symm
  · calc (BinaryHeap.push itemHolder.less rest s.current).Perm (s.current :: rest) :=
        BinaryHeap.push_perm itemHolder.less rest _
      List.Perm _ (s.current :: (todo.erase item ++ done.map Reaped.current)) := hRest.cons _
      List.Perm _ (todo.erase item ++ (s :: done).map Reaped.current) := List.perm_middle.symm
  · exact BinaryHeap.push_heapOrder _ itemHolder.less_eq
      (BinaryHeap.pop_heapOrder _ itemHolder.less_eq inv.heapOrder hPop) _
  · simp [inv.total_eq, Nat.add_comm]
  · have := inv.total_le
    omega
  · exact List.forall_mem_cons.mpr ⟨hSound, inv.sound⟩
  · exact List.forall_mem_cons.mpr ⟨hAll, fun s' hs' => (inv.all_deleted s' hs').imp_right fun _ => by omega⟩
  · exact List.forall_mem_cons.mpr ⟨hLater, fun s' hs' => (inv.not_due s' hs').imp_right fun _ => by omega⟩
  · subst hs
    exact hHolds
  · exact hShard.trans inv.shard
  · rw [List.flatMap_cons]
    exact (inv.deletes.append_right _).trans List.perm_append_comm
  · rintro s' (_ | ⟨_, hs'⟩) p hp
    · subst hs
      obtain ⟨rg, hrg, hIn⟩ := hCover p hp
      exact ⟨rg, List.mem_append_right _ hrg, hIn⟩
    · obtain ⟨rg, hrg, hIn⟩ := inv.covered s' hs' p hp
      exact ⟨rg, List.mem_append_left _ hrg, hIn⟩

theorem doRunLoop_run (hSched : r.Scheduled goTimeUnixMicro localIterator times) (hNonempty : r.tableHeap ≠ []) :
    ∀ (fuel k : Nat) (todo : List itemHolder) (done : List Reaped) (heap : List itemHolder)
      (oldest : Option itemHolder) (total : Nat) (wb : WriteBatch) (ds : List Bytes) (rs : List (Bytes × Bytes)),
      todo.length < fuel → RunInv localIterator now times r todo done heap total wb ds rs →
      ∃ todo' done' heap' e ds' rs', doRunLoop goTimeUnixMicro localIterator (fun _ => now) r.shardID
          r.maxDeleteBatchSize fuel k heap oldest total wb = some (heap', .ok e) ∧
        RunInv localIterator now times r todo' done' heap' e.rowsDeleted e.wb ds' rs' ∧
        (e.rowsDeleted = r.maxDeleteBatchSize ∨
          ∃ item, e.oldest = some item ∧ heap'.head? = some item ∧ now < item.CheckTime)
  | 0, _, _, _, _, _, _, _, _, _, hFuel, _ => absurd hFuel (Nat.not_lt_zero _)
  | fuel + 1, k, todo, done, heap, oldest, total, wb, ds, rs, hFuel, inv => by
    by_cases hTotal : total < r.maxDeleteBatchSize
    · have hHeap : heap ≠ [] := by
        rw [← List.length_pos_iff, inv.length_eq]
        exact List.length_pos_iff.mpr hNonempty
      obtain ⟨item, rest, rfl⟩ := List.exists_cons_of_ne_nil hHeap
      by_cases hDue : item.CheckTime ≤ now
      · -- the table at the top is due: it is processed and the loop goes on
        have hMem := inv.mem_todo hTotal rfl hDue
        obtain ⟨top, rest', hPop⟩ := BinaryHeap.pop_isSome itemHolder.less hHeap
        obtain rfl : top = item := by
          have hTop := (BinaryHeap.pop_eq_some itemHolder.less hPop).1
          simp only [List.head?_cons, Option.some.injEq] at hTop
          exact hTop.symm
        obtain ⟨wb', rs', hProc, inv'⟩ := inv.step hSched hMem hPop hTotal
        have hLen : (todo.erase top).length < fuel := by
          rw [List.length_erase_of_mem hMem]
          have := List.length_pos_of_mem hMem
          omega
        rw [doRunLoop_due goTimeUnixMicro localIterator (fun _ => now) r.shardID r.maxDeleteBatchSize fuel k
          (top :: rest) oldest hTotal rfl hDue hPop hProc]
        exact doRunLoop_run hSched hNonempty fuel (k + 1) _ _ _ _ _ _ _ _ hLen inv'
      · exact ⟨todo, done, item :: rest, ⟨some item, total, wb, k + 1⟩, ds, rs,
          doRunLoop_not_due goTimeUnixMicro localIterator (fun _ => now) r.shardID r.maxDeleteBatchSize fuel k
            oldest wb hTotal (not_le.mp hDue), inv, .inr ⟨item, rfl, rfl, not_le.mp hDue⟩⟩
    · -- the row limit is reached
      exact ⟨todo, done, heap, ⟨oldest, total, wb, k⟩, ds, rs, by simp [doRunLoop, hTotal], inv,
        .inl (le_antisymm inv.total_le (not_lt.mp hTotal))⟩

theorem RunInv.total_eq_min (hSched : r.Scheduled goTimeUnixMicro localIterator times) (hNow : 0 ≤ now)
    (inv : RunInv localIterator now times r todo done heap total wb ds rs)
    (hStop : total = r.maxDeleteBatchSize ∨ ∃ item, heap.head? = some item ∧ now < item.CheckTime) :
    total = min r.maxDeleteBatchSize ((todo.map fun item => expiredRows now times item.Table).sum +
      (done.map fun s => expiredRows now times s.item.Table).sum) := by
  have hDone : total ≤ (done.map fun s => expiredRows now times s.item.Table).sum := by
    rw [inv.total_eq]
    exact List.sum_le_sum fun s hs => (inv.sound s hs).deleted_le
  by_cases hFull : total = r.maxDeleteBatchSize
  · omega
  · obtain ⟨head, hHead, hLater⟩ := hStop.resolve_left hFull
    have hTotal : total < r.maxDeleteBatchSize := lt_of_le_of_ne inv.total_le hFull
    have hTodo : (todo.map fun item => expiredRows now times item.Table).sum = 0 := by
      refine List.sum_eq_zero fun n hn => ?_
      obtain ⟨item, hItem, rfl⟩ := List.mem_map.mp hn
      have hInHeap : item ∈ heap := inv.heap_perm.symm.subset (List.mem_append_left _ hItem)
      have hLe := inv.heapOrder.head_le itemHolder.CheckTime hHead item hInHeap
      exact hSched.expiredRows_eq_zero hNow (inv.slots.symm.subset (List.mem_append_left _ hItem)) (by omega)
    have hAll : (done.map fun s => expiredRows now times s.item.Table).sum = total := by
      rw [inv.total_eq]
      congr 1
      refine List.map_congr_left fun s hs => ?_
      exact ((inv.all_deleted s hs).resolve_right hFull).symm
    omega

theorem RunInv.outcome (hSched : r.Scheduled goTimeUnixMicro localIterator times) (hNow : 0 ≤ now)
    (inv : RunInv localIterator now times r todo done heap total wb ds rs)
    (hStop : total = r.maxDeleteBatchSize ∨ ∃ item, heap.head? = some item ∧ now < item.CheckTime)
    {delay : Int} (hDelayFull : total = r.maxDeleteBatchSize → delay = 0)
    (hDelayNext : total < r.maxDeleteBatchSize → ∃ item, heap.head? = some item ∧ now < item.CheckTime ∧
      delay = if (item.CheckTime - now) * 1000 < minBatchDelay then minBatchDelay
        else (item.CheckTime - now) * 1000) :
    RunOutcome localIterator now times r (todo.map Reaped.untouched ++ done) heap delay
      (if total > 0 then some wb else none) := by
  have hSum : ((todo.map Reaped.untouched ++ done).map Reaped.deleted).sum = total := by
    simp [inv.total_eq, Function.comp_def]
  have hExpired : ((todo.map Reaped.untouched ++ done).map fun s => expiredRows now times s.item.Table).sum =
      (todo.map fun item => expiredRows now times item.Table).sum +
        (done.map fun s => expiredRows now times s.item.Table).sum := by
    simp [Function.comp_def]
  have hTotal := inv.total_eq_min hSched hNow hStop
  have hUntouched : ∀ s ∈ todo.map Reaped.untouched, s.deleted = 0 ∧ s.Sound now times := by
    intro s hs
    obtain ⟨item, hItem, rfl⟩ := List.mem_map.mp hs
    exact ⟨rfl, hSched.sound_untouched (inv.slots.symm.subset (List.mem_append_left _ hItem))⟩
  have hSound : ∀ s ∈ todo.map Reaped.untouched ++ done, s.Sound now times := by
    intro s hs
    rcases List.mem_append.mp hs with hs | hs
    · exact (hUntouched s hs).2
    · exact inv.sound s hs
  refine ⟨?tables, hSound, ?total, ?all, ?perm, inv.heapOrder, ?isSome, ?batch, ?full, ?next⟩
  case tables =>
    have hItems : (todo.map Reaped.untouched).map Reaped.item = todo := by simp [Function.comp_def]
    rw [List.map_append, hItems]
    exact inv.slots.symm
  case total => rw [hSum, hExpired]; exact hTotal
  case all =>
    intro hLe s hs
    by_contra hNe
    have hLt := List.sum_lt_sum Reaped.deleted (fun s => expiredRows now times s.item.Table)
      (fun s hs => (hSound s hs).deleted_le) ⟨s, hs, lt_of_le_of_ne (hSound s hs).deleted_le hNe⟩
    rw [hSum] at hLt
    rw [hExpired] at hLe hLt
    omega
  case perm =>
    have hCurrent : (todo.map Reaped.untouched).map Reaped.current = todo := by simp [Function.comp_def]
    rw [List.map_append, hCurrent]
    exact inv.heap_perm
  case isSome =>
    rw [hSum]
    by_cases hPos : total > 0 <;> simp [hPos]
  case batch =>
    intro wb' hwb'
    obtain rfl : wb' = wb := by
      split at hwb'
      · exact (Option.mem_some_iff.mp hwb').symm
      · cases hwb'
    refine ⟨inv.shard, ds, rs, inv.holds, ?_, ?_⟩
    · have hNone : (todo.map Reaped.untouched).flatMap (Reaped.rowKeys localIterator r.shardID) = [] := by
        simp [List.flatMap_eq_nil_iff]
      rw [List.flatMap_append, hNone, List.nil_append]
      exact inv.deletes
    · intro s hs p hp
      rcases List.mem_append.mp hs with hs | hs
      · rw [(hUntouched s hs).1, List.take_zero] at hp
        cases hp
      · exact inv.covered s hs p hp
  case full => rw [hSum]; exact hDelayFull
  case next => rw [hSum]; exact hDelayNext

end Loop

end Contract

def retainedTable : RetentionTableInfo := ⟨7, 10000000, 11⟩

end PranaDB
