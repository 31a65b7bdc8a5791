import PranaDB.Cluster.LocalWrite
import PranaDB.Pull.ScanRanges

/-! # The reaper of tables with a retention time (`push/reaper/reaper.go`)

A table with a retention duration has a row-time index whose keys are
`shard_id|index_id|1|row_time|pk`. `processDeletes` walks that index from its
oldest entry and, for every entry older than the retention time, adds a
delete of the table row `shard_id|table_id|pk` to the write batch; the index
entries it walked are removed by one delete range from the start of the index
to just past the last of them. `doRun` then writes the batch with the store's
`WriteBatchLocally`.

The iterator `LocalIterator(keyStart, keyEnd)` is a parameter, as is the
conversion `rowTime.GoTime(time.UTC)` followed by `UnixMicro()` of the time
library.
-/

namespace PranaDB
set_option autoImplicit false

/-- The fields of `common.TableInfo` the reaper reads; the retention duration
is `RetentionDuration.Microseconds()`. -/
structure RetentionTableInfo where
  ID : UInt64
  RetentionDuration : Int
  RowTimeIndexID : UInt64
deriving DecidableEq, Repr

/-- The errors `processDeletes` returns. -/
inductive ReaperError where
  /-- `KeyDecodeTimestamp` read past the end of the index key. -/
  | decodeRowTime
  /-- `rowTime.GoTime(time.UTC)` failed. -/
  | goTime
  /-- The panic of `IncrementBytesBigEndian`. -/
  | increment (err : ScanRangeError)
deriving DecidableEq, Repr

def addLastKeyRange (keyStart : Bytes) (lastKey : Option Bytes) (wb : WriteBatch) :
    Except ReaperError WriteBatch :=
  match lastKey with
  | none => .ok wb
  | some lastKey =>
    match IncrementBytesBigEndian lastKey with
    | .ok keyEnd => .ok (wb.AddDeleteRange keyStart keyEnd)
    | .error err => .error (.increment err)

/-- The end of `processDeletes` once the loop stops at the row limit or the end
of the index: the delete range, and the time of the next check. -/
def processDeletesDone (keyStart : Bytes) (retentionMicros nowUnixMicros : Int) (maxRows : Nat)
    (rowCount : Nat) (lastKey : Option Bytes) (wb : WriteBatch) :
    Except ReaperError (Int × Nat × WriteBatch) := do
  let wb ← addLastKeyRange keyStart lastKey wb
  if rowCount = maxRows then pure (0, rowCount, wb)
  else pure (nowUnixMicros + retentionMicros, rowCount, wb)

/-- The loop of `processDeletes`, `for iter.HasNext() && rowCount < maxRows`,
over the index entries the iterator has left. -/
def processDeletesLoop (goTimeUnixMicro : Timestamp → Option Int) (keyStart pkKeyBase : Bytes)
    (retentionMicros nowUnixMicros : Int) (maxRows : Nat) :
    List (Bytes × Bytes) → Nat → Option Bytes → WriteBatch →
      Except ReaperError (Int × Nat × WriteBatch)
  | [], rowCount, lastKey, wb =>
    processDeletesDone keyStart retentionMicros nowUnixMicros maxRows rowCount lastKey wb
  | pair :: pairs, rowCount, lastKey, wb =>
    if rowCount < maxRows then
      -- the row time sits after the 16-byte prefix and the not-null marker
      match KeyDecodeTimestamp pair.1 17 6 with
      | none => .error .decodeRowTime
      | some (rowTime, _) =>
        match goTimeUnixMicro rowTime with
        | none => .error .goTime
        | some rowTimeUnixMicros =>
          if nowUnixMicros - rowTimeUnixMicros < retentionMicros then do
            -- not ready to delete: close the range at the last expired entry
            let wb ← addLastKeyRange keyStart lastKey wb
            pure (rowTimeUnixMicros + retentionMicros, rowCount, wb)
          else
            processDeletesLoop goTimeUnixMicro keyStart pkKeyBase retentionMicros nowUnixMicros
              maxRows pairs (rowCount + 1) (some pair.1) (wb.AddDelete (pkKeyBase ++ pair.1.drop 25))
    else processDeletesDone keyStart retentionMicros nowUnixMicros maxRows rowCount lastKey wb

/-- `Reaper.processDeletes`: the time of the next check of the table, the
number of rows deleted and the batch with the deletes added. -/
def processDeletes (goTimeUnixMicro : Timestamp → Option Int)
    (localIterator : Bytes → Bytes → List (Bytes × Bytes)) (shardID : UInt64)
    (tab : RetentionTableInfo) (nowUnixMicros : Int) (wb : WriteBatch) (maxRows : Nat) :
    Except ReaperError (Int × Nat × WriteBatch) :=
  let keyStart := EncodeTableKeyPrefix tab.RowTimeIndexID shardID
  let keyEnd := EncodeTableKeyPrefix (tab.RowTimeIndexID + 1) shardID
  let pkKeyBase := EncodeTableKeyPrefix tab.ID shardID
  processDeletesLoop goTimeUnixMicro keyStart pkKeyBase tab.RetentionDuration nowUnixMicros maxRows
    (localIterator keyStart keyEnd) 0 none wb

def reaperIndexEntries (localIterator : Bytes → Bytes → List (Bytes × Bytes)) (shardID : UInt64)
    (tab : RetentionTableInfo) : List (Bytes × Bytes) :=
  localIterator (EncodeTableKeyPrefix tab.RowTimeIndexID shardID)
    (EncodeTableKeyPrefix (tab.RowTimeIndexID + 1) shardID)

/-! ## The batch `processDeletes` builds -/

def rowKeyOfIndexKey (pkKeyBase indexKey : Bytes) : Bytes := pkKeyBase ++ indexKey.drop 25

section Batch

variable {keyStart pkKeyBase : Bytes} {wb : WriteBatch} {b : KVStore.Batch Bytes Bytes}

theorem addLastKeyRange_holds (h : wb.Holds b) (hStart : Short keyStart) {lastKey : Option Bytes}
    (hLast : ∀ k ∈ lastKey, Short k) {wb' : WriteBatch}
    (hRun : addLastKeyRange keyStart lastKey wb = .ok wb') :
    wb'.ShardID = wb.ShardID ∧ ∃ rs, wb'.Holds { b with deleteRanges := b.deleteRanges ++ rs } := by
  unfold addLastKeyRange at hRun
  split at hRun
  · cases hRun
    exact ⟨rfl, [], by simpa using h⟩
  · rename_i lastKey
    split at hRun
    · rename_i keyEnd hInc
      cases hRun
      have hEnd : Short keyEnd := by
        rw [Short, length_IncrementBytesBigEndian hInc]
        exact hLast lastKey rfl
      exact ⟨rfl, [(keyStart, keyEnd)], h.addDeleteRange hStart hEnd⟩
    · cases hRun

theorem processDeletesDone_holds (h : wb.Holds b) (hStart : Short keyStart)
    {retentionMicros nowUnixMicros : Int} {maxRows rowCount : Nat} {lastKey : Option Bytes}
    (hLast : ∀ k ∈ lastKey, Short k) {result : Int × Nat × WriteBatch}
    (hRun : processDeletesDone keyStart retentionMicros nowUnixMicros maxRows rowCount lastKey wb =
      .ok result) :
    result.2.1 = rowCount ∧ result.2.2.ShardID = wb.ShardID ∧
      ∃ rs, result.2.2.Holds { b with deleteRanges := b.deleteRanges ++ rs } := by
  unfold processDeletesDone at hRun
  cases hAdd : addLastKeyRange keyStart lastKey wb with
  | error e => simp [hAdd, bind, Except.bind] at hRun
  | ok wb' =>
    have hHolds := addLastKeyRange_holds h hStart hLast hAdd
    simp only [hAdd, bind, Except.bind] at hRun
    split at hRun <;>
    · cases hRun
      exact ⟨rfl, hHolds⟩

theorem short_rowKeyOfIndexKey (hBase : pkKeyBase.length = 16) {indexKey : Bytes} (h : Short indexKey) :
    Short (rowKeyOfIndexKey pkKeyBase indexKey) := by
  simp only [Short, rowKeyOfIndexKey, List.length_append, List.length_drop, hBase] at h ⊢
  omega

theorem processDeletesLoop_holds (goTimeUnixMicro : Timestamp → Option Int)
    {retentionMicros nowUnixMicros : Int} {maxRows : Nat} (hStart : Short keyStart)
    (hBase : pkKeyBase.length = 16) (pairs : List (Bytes × Bytes))
    (hShort : ∀ p ∈ pairs, Short p.1) :
    ∀ (rowCount : Nat) (lastKey : Option Bytes) (wb : WriteBatch) (b : KVStore.Batch Bytes Bytes)
      (result : Int × Nat × WriteBatch),
      wb.Holds b → (∀ k ∈ lastKey, Short k) →
      processDeletesLoop goTimeUnixMicro keyStart pkKeyBase retentionMicros nowUnixMicros maxRows
        pairs rowCount lastKey wb = .ok result →
      rowCount ≤ result.2.1 ∧ result.2.2.ShardID = wb.ShardID ∧ ∃ rs, result.2.2.Holds { b with
        deletes := b.deletes ++ (pairs.take (result.2.1 - rowCount)).map
          (fun p => rowKeyOfIndexKey pkKeyBase p.1),
        deleteRanges := b.deleteRanges ++ rs } := by
  induction pairs with
  | nil =>
    intro rowCount lastKey wb b result h hLast hRun
    obtain ⟨hCount, hShard, hHolds⟩ := processDeletesDone_holds h hStart hLast hRun
    exact ⟨hCount.ge, hShard, by simpa using hHolds⟩
  | cons pair pairs ih =>
    intro rowCount lastKey wb b result h hLast hRun
    have hDone : ∀ {lastKey : Option Bytes}, (∀ k ∈ lastKey, Short k) →
        processDeletesDone keyStart retentionMicros nowUnixMicros maxRows rowCount lastKey wb =
          .ok result →
        rowCount ≤ result.2.1 ∧ result.2.2.ShardID = wb.ShardID ∧ ∃ rs, result.2.2.Holds { b with
          deletes := b.deletes ++ ((pair :: pairs).take (result.2.1 - rowCount)).map
            (fun p => rowKeyOfIndexKey pkKeyBase p.1),
          deleteRanges := b.deleteRanges ++ rs } := by
      intro lastKey hLast hRun
      obtain ⟨hCount, hShard, hHolds⟩ := processDeletesDone_holds h hStart hLast hRun
      exact ⟨hCount.ge, hShard, by simpa [hCount] using hHolds⟩
    unfold processDeletesLoop at hRun
    split at hRun
    · split at hRun
      · cases hRun
      · split at hRun
        · cases hRun
        · split at hRun
          · -- an entry not yet expired ends the loop
            cases hAdd : addLastKeyRange keyStart lastKey wb with
            | error e => simp [hAdd, bind, Except.bind] at hRun
            | ok wb' =>
              simp only [hAdd, bind, Except.bind, pure, Except.pure, Except.ok.injEq] at hRun
              subst hRun
              obtain ⟨hShard, rs, hHolds⟩ := addLastKeyRange_holds h hStart hLast hAdd
              exact ⟨le_refl _, hShard, rs, by simpa using hHolds⟩
          · -- an expired entry: its row is deleted and the loop goes on
            have hPair := hShort pair List.mem_cons_self
            have hRow := short_rowKeyOfIndexKey hBase hPair
            obtain ⟨hCount, hShard, rs, hHolds⟩ := ih (fun p hp => hShort p (List.mem_cons_of_mem pair hp))
              _ _ _ _ result (h.addDelete hRow) (fun k hk => by cases hk; exact hPair) hRun
            have hTake : result.2.1 - rowCount = (result.2.1 - (rowCount + 1)) + 1 := by omega
            refine ⟨by omega, hShard, rs, ?_⟩
            rw [hTake, List.take_succ_cons, List.map_cons]
            simpa [rowKeyOfIndexKey] using hHolds
    · exact hDone hLast hRun

end Batch

/-! ## The rows one `processDeletes` deletes

The loop walks the index in key order and stops at the row limit or at the
first entry whose row is not expired. On an index whose row times are in the
order of its keys it therefore deletes the expired rows, oldest first. -/

def entryRowTime (goTimeUnixMicro : Timestamp → Option Int) (indexKey : Bytes) : Option Int :=
  (KeyDecodeTimestamp indexKey 17 6).bind fun r => goTimeUnixMicro r.1

def expired (retentionMicros nowUnixMicros rowTime : Int) : Bool :=
  decide (retentionMicros ≤ nowUnixMicros - rowTime)

/-- The number of rows a run deletes, of the rows with these times in index
order: those before the first one not expired, at most `maxRows`. -/
def deleteCount (retentionMicros nowUnixMicros : Int) (maxRows : Nat) (times : List Int) : Nat :=
  min (times.takeWhile (expired retentionMicros nowUnixMicros)).length maxRows

def nextCheckTime (retentionMicros nowUnixMicros : Int) (maxRows : Nat) (times : List Int) (k : Nat) :
    Int :=
  if k = maxRows then 0
  else match times[k]? with
    | some t => t + retentionMicros
    | none => nowUnixMicros + retentionMicros

def addRowDeletes (pkKeyBase : Bytes) (entries : List (Bytes × Bytes)) (wb : WriteBatch) : WriteBatch :=
  entries.foldl (fun wb p => wb.AddDelete (rowKeyOfIndexKey pkKeyBase p.1)) wb

/-- The entries the iterator gives from the row-time index of a table: each key
holds the index prefix and the not-null marker, is short and decodes to its row
time, and keys and times are both in order. -/
structure RowTimeIndex (goTimeUnixMicro : Timestamp → Option Int) (keyStart : Bytes)
    (entries : List (Bytes × Bytes)) (times : List Int) : Prop where
  rowTimes : entries.map (fun p => entryRowTime goTimeUnixMicro p.1) = times.map some
  timeOrder : times.Pairwise (· ≤ ·)
  keyOrder : entries.Pairwise (fun p q => compare p.1 q.1 = .lt)
  marked : ∀ p ∈ entries, keyStart ++ [1] <+: p.1
  short : ∀ p ∈ entries, Short p.1

section Count

variable {retentionMicros nowUnixMicros : Int}

@[simp] theorem deleteCount_nil (maxRows : Nat) : deleteCount retentionMicros nowUnixMicros maxRows [] = 0 := by
  simp [deleteCount]

@[simp] theorem deleteCount_zero (times : List Int) : deleteCount retentionMicros nowUnixMicros 0 times = 0 := by
  simp [deleteCount]

theorem deleteCount_cons_of_expired {t : Int} (h : expired retentionMicros nowUnixMicros t = true)
    (maxRows : Nat) (times : List Int) :
    deleteCount retentionMicros nowUnixMicros (maxRows + 1) (t :: times) =
      deleteCount retentionMicros nowUnixMicros maxRows times + 1 := by
  simp only [deleteCount, List.takeWhile_cons, h, ↓reduceIte, List.length_cons]
  omega

theorem deleteCount_cons_of_not_expired {t : Int} (h : expired retentionMicros nowUnixMicros t = false)
    (maxRows : Nat) (times : List Int) : deleteCount retentionMicros nowUnixMicros maxRows (t :: times) = 0 := by
  simp [deleteCount, h]

theorem nextCheckTime_cons (maxRows : Nat) (t : Int) (times : List Int) (k : Nat) :
    nextCheckTime retentionMicros nowUnixMicros (maxRows + 1) (t :: times) (k + 1) =
      nextCheckTime retentionMicros nowUnixMicros maxRows times k := by
  simp [nextCheckTime]

theorem expired_of_le {t t' : Int} (hle : t ≤ t') (h : expired retentionMicros nowUnixMicros t' = true) :
    expired retentionMicros nowUnixMicros t = true := by
  simp only [expired, decide_eq_true_eq] at h ⊢
  omega

theorem length_takeWhile_expired : ∀ {times : List Int}, times.Pairwise (· ≤ ·) →
    (times.takeWhile (expired retentionMicros nowUnixMicros)).length =
      times.countP (expired retentionMicros nowUnixMicros)
  | [], _ => rfl
  | t :: times, hSorted => by
    obtain ⟨hFirst, hRest⟩ := List.pairwise_cons.mp hSorted
    cases hExp : expired retentionMicros nowUnixMicros t with
    | true =>
      simp [hExp, length_takeWhile_expired hRest]
    | false =>
      have hNone : times.countP (expired retentionMicros nowUnixMicros) = 0 := by
        rw [List.countP_eq_zero]
        intro t' ht' hExp'
        rw [expired_of_le (hFirst t' ht') hExp'] at hExp
        cases hExp
      simp [hExp, hNone]

theorem deleteCount_eq_min_countP {times : List Int} (hSorted : times.Pairwise (· ≤ ·)) (maxRows : Nat) :
    deleteCount retentionMicros nowUnixMicros maxRows times =
      min (times.countP (expired retentionMicros nowUnixMicros)) maxRows := by
  rw [deleteCount, length_takeWhile_expired hSorted]

theorem expired_of_mem_take {maxRows : Nat} {times : List Int} {t : Int}
    (ht : t ∈ times.take (deleteCount retentionMicros nowUnixMicros maxRows times)) :
    expired retentionMicros nowUnixMicros t = true := by
  have hPrefix := List.prefix_iff_eq_take.mp (List.takeWhile_prefix (expired retentionMicros nowUnixMicros)
    (l := times))
  have hk : deleteCount retentionMicros nowUnixMicros maxRows times ≤
      (times.takeWhile (expired retentionMicros nowUnixMicros)).length := Nat.min_le_left _ _
  rw [← Nat.min_eq_left hk, ← List.take_take, ← hPrefix] at ht
  exact List.mem_takeWhile_imp (List.mem_of_mem_take ht)

theorem expired_getElem?_length_takeWhile : ∀ {times : List Int} {first : Int},
    times[(times.takeWhile (expired retentionMicros nowUnixMicros)).length]? = some first →
      expired retentionMicros nowUnixMicros first = false
  | [], _, h => by simp at h
  | t :: times, first, h => by
    cases hExp : expired retentionMicros nowUnixMicros t with
    | true =>
      simp only [List.takeWhile_cons, hExp, ↓reduceIte, List.length_cons, List.getElem?_cons_succ] at h
      exact expired_getElem?_length_takeWhile h
    | false =>
      simp only [List.takeWhile_cons, hExp, Bool.false_eq_true, ↓reduceIte, List.length_nil,
        List.getElem?_cons_zero, Option.some.injEq] at h
      exact h ▸ hExp

theorem nextCheckTime_le {times : List Int} (hSorted : times.Pairwise (· ≤ ·)) (maxRows : Nat) {t : Int}
    (ht : t ∈ times.drop (deleteCount retentionMicros nowUnixMicros maxRows times)) :
    nextCheckTime retentionMicros nowUnixMicros maxRows times
        (deleteCount retentionMicros nowUnixMicros maxRows times) ≤ max (t + retentionMicros) 0 := by
  unfold nextCheckTime
  split
  · exact le_max_right _ _
  · split
    · rename_i first hFirst
      obtain ⟨hk, rfl⟩ := List.getElem?_eq_some_iff.mp hFirst
      have hDrop := List.drop_eq_getElem_cons hk
      have hSortedDrop := hSorted.sublist (List.drop_sublist (deleteCount retentionMicros nowUnixMicros
        maxRows times) times)
      rw [hDrop] at ht hSortedDrop
      have hle : times[deleteCount retentionMicros nowUnixMicros maxRows times] ≤ t := by
        rcases List.mem_cons.mp ht with rfl | ht
        · exact le_rfl
        · exact List.rel_of_pairwise_cons hSortedDrop ht
      exact le_max_of_le_left (by omega)
    · rename_i hNone
      rw [List.drop_eq_nil_iff.mpr (List.getElem?_eq_none_iff.mp hNone)] at ht
      cases ht

theorem lt_nextCheckTime (hR : 0 < retentionMicros) {maxRows : Nat} {times : List Int}
    (hRoom : deleteCount retentionMicros nowUnixMicros maxRows times < maxRows) :
    nowUnixMicros < nextCheckTime retentionMicros nowUnixMicros maxRows times
      (deleteCount retentionMicros nowUnixMicros maxRows times) := by
  have hAll : deleteCount retentionMicros nowUnixMicros maxRows times =
      (times.takeWhile (expired retentionMicros nowUnixMicros)).length := by
    unfold deleteCount at hRoom ⊢
    omega
  unfold nextCheckTime
  rw [if_neg hRoom.ne]
  split
  · rename_i first hFirst
    rw [hAll] at hFirst
    have hNot := expired_getElem?_length_takeWhile hFirst
    simp only [expired, decide_eq_false_iff_not, not_le] at hNot
    omega
  · omega

end Count

section Loop

variable (goTimeUnixMicro : Timestamp → Option Int) (keyStart pkKeyBase : Bytes)
  (retentionMicros nowUnixMicros : Int)

theorem processDeletesDone_eq (maxRows rowCount : Nat) (lastKey : Option Bytes) (wb : WriteBatch) :
    processDeletesDone keyStart retentionMicros nowUnixMicros maxRows rowCount lastKey wb =
      (addLastKeyRange keyStart lastKey wb).map fun wb =>
        (if rowCount = maxRows then 0 else nowUnixMicros + retentionMicros, rowCount, wb) := by
  unfold processDeletesDone
  cases addLastKeyRange keyStart lastKey wb <;> split <;> rfl

theorem getLast?_map_or_cons {α β : Type} (f : α → β) (a : α) (l : List α) (o : Option β) :
    ((a :: l).getLast?.map f).or o = (l.getLast?.map f).or (some (f a)) := by
  cases h : l.getLast? <;> simp [List.getLast?_cons, h]

theorem processDeletesLoop_eq (maxRows : Nat) :
    ∀ (pairs : List (Bytes × Bytes)) (times : List Int),
      pairs.map (fun p => entryRowTime goTimeUnixMicro p.1) = times.map some →
    ∀ (rowCount budget : Nat) (lastKey : Option Bytes) (wb : WriteBatch), rowCount + budget = maxRows →
      processDeletesLoop goTimeUnixMicro keyStart pkKeyBase retentionMicros nowUnixMicros maxRows pairs
          rowCount lastKey wb =
        (addLastKeyRange keyStart
            (((pairs.take (deleteCount retentionMicros nowUnixMicros budget times)).getLast?.map (·.1)).or
              lastKey)
            (addRowDeletes pkKeyBase (pairs.take (deleteCount retentionMicros nowUnixMicros budget times)) wb)).map
          fun wb => (nextCheckTime retentionMicros nowUnixMicros budget times
              (deleteCount retentionMicros nowUnixMicros budget times),
            rowCount + deleteCount retentionMicros nowUnixMicros budget times, wb)
  | [], times, hTimes, rowCount, budget, lastKey, wb, hBudget => by
    have hNil : times = [] := List.map_eq_nil_iff.mp hTimes.symm
    subst hNil
    have hFull : (rowCount = maxRows) = (0 = budget) := propext (by omega)
    simp [processDeletesLoop, processDeletesDone_eq, nextCheckTime, addRowDeletes, hFull]
  | pair :: pairs, times, hTimes, rowCount, budget, lastKey, wb, hBudget => by
    obtain ⟨t, ts, rfl, hPair, hRest⟩ : ∃ t ts, times = t :: ts ∧
        entryRowTime goTimeUnixMicro pair.1 = some t ∧
        pairs.map (fun p => entryRowTime goTimeUnixMicro p.1) = ts.map some := by
      cases times with
      | nil => cases hTimes
      | cons t ts =>
        simp only [List.map_cons, List.cons.injEq] at hTimes
        exact ⟨t, ts, rfl, hTimes.1, hTimes.2⟩
    obtain ⟨⟨rowTime, _⟩, hDecode, hGo⟩ := Option.bind_eq_some_iff.mp hPair
    cases budget with
    | zero =>
      have hFull : ¬ rowCount < maxRows := by omega
      obtain rfl : rowCount = maxRows := by omega
      rw [processDeletesLoop, if_neg hFull, processDeletesDone_eq]
      simp [nextCheckTime, addRowDeletes]
    | succ budget =>
      have hRoom : rowCount < maxRows := by omega
      rw [processDeletesLoop, if_pos hRoom]
      simp only [hDecode, hGo]
      cases hExp : expired retentionMicros nowUnixMicros t with
      | false =>
        have hNew : nowUnixMicros - t < retentionMicros := by simpa [expired] using hExp
        have hNext : nextCheckTime retentionMicros nowUnixMicros (budget + 1) (t :: ts) 0 = t + retentionMicros := by
          simp [nextCheckTime]
        rw [if_pos hNew, deleteCount_cons_of_not_expired hExp, hNext]
        simp only [List.take_zero, List.getLast?_nil, Option.map_none, Option.none_or, addRowDeletes,
          List.foldl_nil, Nat.add_zero]
        cases addLastKeyRange keyStart lastKey wb <;> rfl
      | true =>
        have hOld : ¬ nowUnixMicros - t < retentionMicros := by simpa [expired] using hExp
        have hCount : rowCount + (deleteCount retentionMicros nowUnixMicros budget ts + 1) =
            rowCount + 1 + deleteCount retentionMicros nowUnixMicros budget ts := by omega
        rw [if_neg hOld, processDeletesLoop_eq maxRows pairs ts hRest (rowCount + 1) budget _ _ (by omega),
          deleteCount_cons_of_expired hExp, List.take_succ_cons, getLast?_map_or_cons, nextCheckTime_cons, hCount]
        rfl

end Loop

section Spec

variable {keyStart pkKeyBase : Bytes}

theorem addRowDeletes_holds (hBase : pkKeyBase.length = 16) :
    ∀ (entries : List (Bytes × Bytes)) {wb : WriteBatch} {b : KVStore.Batch Bytes Bytes},
      (∀ p ∈ entries, Short p.1) → wb.Holds b →
      (addRowDeletes pkKeyBase entries wb).Holds
          { b with deletes := b.deletes ++ entries.map (fun p => rowKeyOfIndexKey pkKeyBase p.1) } ∧
        (addRowDeletes pkKeyBase entries wb).ShardID = wb.ShardID
  | [], _, _, _, h => ⟨by simpa [addRowDeletes] using h, rfl⟩
  | p :: entries, _, _, hShort, h => by
    have hRow := short_rowKeyOfIndexKey hBase (hShort p List.mem_cons_self)
    obtain ⟨hHolds, hShard⟩ := addRowDeletes_holds hBase entries
      (fun q hq => hShort q (List.mem_cons_of_mem p hq)) (h.addDelete hRow)
    exact ⟨by simpa [addRowDeletes] using hHolds, hShard⟩

theorem addLastKeyRange_getLast? (hStart : Short keyStart) {entries : List (Bytes × Bytes)}
    (hMarked : ∀ p ∈ entries, keyStart ++ [1] <+: p.1) (hShort : ∀ p ∈ entries, Short p.1)
    (hOrder : entries.Pairwise (fun p q => compare p.1 q.1 = .lt)) {wb : WriteBatch}
    {b : KVStore.Batch Bytes Bytes} (h : wb.Holds b) :
    ∃ wb' rs, addLastKeyRange keyStart (entries.getLast?.map (·.1)) wb = .ok wb' ∧
      wb'.Holds { b with deleteRanges := b.deleteRanges ++ rs } ∧ wb'.ShardID = wb.ShardID ∧
      ∀ p ∈ entries, ∃ rg ∈ rs, KVStore.InRange rg.1 rg.2 p.1 := by
  cases hLast : entries.getLast? with
  | none =>
    obtain rfl : entries = [] := List.getLast?_eq_none_iff.mp hLast
    exact ⟨wb, [], rfl, by simpa using h, rfl, by simp⟩
  | some last =>
    obtain ⟨init, rfl⟩ := List.getLast?_eq_some_iff.mp hLast
    have hMem : last ∈ init ++ [last] := by simp
    have hOne : (1 : UInt8) ∈ last.1 := (hMarked last hMem).subset (by simp)
    obtain ⟨keyEnd, hInc, hLt⟩ := IncrementBytesBigEndian_lt (allBitsSet_eq_false hOne (by decide))
    have hEnd : Short keyEnd := by
      rw [Short, length_IncrementBytesBigEndian hInc]
      exact hShort last hMem
    refine ⟨wb.AddDeleteRange keyStart keyEnd, [(keyStart, keyEnd)], by simp [addLastKeyRange, hInc],
      h.addDeleteRange hStart hEnd, rfl, fun p hp => ⟨(keyStart, keyEnd), List.mem_singleton_self _, ?_, ?_⟩⟩
    · obtain ⟨rest, hRest⟩ := hMarked p hp
      rw [← hRest, List.append_assoc]
      exact compare_self_append_ne_gt keyStart _
    · rcases List.mem_append.mp hp with hp | hp
      · exact Std.TransCmp.lt_trans ((List.pairwise_append.mp hOrder).2.2 p hp last
          (List.mem_singleton_self _)) hLt
      · rw [List.mem_singleton.mp hp]
        exact hLt

end Spec

theorem processDeletes_eq_loop (goTimeUnixMicro : Timestamp → Option Int)
    (localIterator : Bytes → Bytes → List (Bytes × Bytes)) (shardID : UInt64) (tab : RetentionTableInfo)
    (nowUnixMicros : Int) (wb : WriteBatch) (maxRows : Nat) :
    processDeletes goTimeUnixMicro localIterator shardID tab nowUnixMicros wb maxRows =
      processDeletesLoop goTimeUnixMicro (EncodeTableKeyPrefix tab.RowTimeIndexID shardID)
        (EncodeTableKeyPrefix tab.ID shardID) tab.RetentionDuration nowUnixMicros maxRows
        (reaperIndexEntries localIterator shardID tab) 0 none wb := rfl

theorem processDeletes_spec (goTimeUnixMicro : Timestamp → Option Int)
    (localIterator : Bytes → Bytes → List (Bytes × Bytes)) (shardID : UInt64) (tab : RetentionTableInfo)
    {times : List Int} (hIndex : RowTimeIndex goTimeUnixMicro (EncodeTableKeyPrefix tab.RowTimeIndexID shardID)
      (reaperIndexEntries localIterator shardID tab) times)
    (nowUnixMicros : Int) {wb : WriteBatch} {b : KVStore.Batch Bytes Bytes} (h : wb.Holds b) (maxRows : Nat) :
    ∃ wb' rs, processDeletes goTimeUnixMicro localIterator shardID tab nowUnixMicros wb maxRows =
        .ok (nextCheckTime tab.RetentionDuration nowUnixMicros maxRows times
            (deleteCount tab.RetentionDuration nowUnixMicros maxRows times),
          deleteCount tab.RetentionDuration nowUnixMicros maxRows times, wb') ∧
      wb'.Holds { b with
        deletes := b.deletes ++ ((reaperIndexEntries localIterator shardID tab).take
          (deleteCount tab.RetentionDuration nowUnixMicros maxRows times)).map
            (fun p => rowKeyOfIndexKey (EncodeTableKeyPrefix tab.ID shardID) p.1),
        deleteRanges := b.deleteRanges ++ rs } ∧
      wb'.ShardID = wb.ShardID ∧
      ∀ p ∈ (reaperIndexEntries localIterator shardID tab).take
        (deleteCount tab.RetentionDuration nowUnixMicros maxRows times), ∃ rg ∈ rs, KVStore.InRange rg.1 rg.2 p.1 := by
  have hTaken : ∀ p ∈ (reaperIndexEntries localIterator shardID tab).take
      (deleteCount tab.RetentionDuration nowUnixMicros maxRows times),
      p ∈ reaperIndexEntries localIterator shardID tab := fun p hp => List.mem_of_mem_take hp
  obtain ⟨hDeletes, hShard⟩ := addRowDeletes_holds (length_EncodeTableKeyPrefix tab.ID shardID) _
    (fun p hp => hIndex.short p (hTaken p hp)) h
  obtain ⟨wb', rs, hRange, hHolds, hShard', hCover⟩ := addLastKeyRange_getLast? (by simp [Short])
    (fun p hp => hIndex.marked p (hTaken p hp)) (fun p hp => hIndex.short p (hTaken p hp))
    (hIndex.keyOrder.sublist (List.take_sublist _ _)) hDeletes
  refine ⟨wb', rs, ?_, hHolds, hShard'.trans hShard, hCover⟩
  rw [processDeletes_eq_loop, processDeletesLoop_eq goTimeUnixMicro _ _ _ _ maxRows _ times hIndex.rowTimes 0
    maxRows none wb (Nat.zero_add maxRows), Option.or_none, hRange, Nat.zero_add]
  rfl

/-! ## What the reaper leaves in Dragon's store -/

theorem rowKey_ne_indexKey {shardID tableID indexID : UInt64} (hIDs : tableID ≠ indexID)
    {indexKey' : Bytes} (hIndex : EncodeTableKeyPrefix indexID shardID <+: indexKey') (x : Bytes) :
    EncodeTableKeyPrefix tableID shardID ++ x ≠ indexKey' := by
  intro hEq
  have hPre : EncodeTableKeyPrefix indexID shardID <+: EncodeTableKeyPrefix tableID shardID ++ x :=
    hEq ▸ hIndex
  have hSame : EncodeTableKeyPrefix indexID shardID = EncodeTableKeyPrefix tableID shardID :=
    (List.prefix_of_prefix_length_le hPre (List.prefix_append _ x) (by simp)).eq_of_length (by simp)
  exact hIDs (EncodeTableKeyPrefix_inj shardID hSame).symm

section Dragon

variable (goTimeUnixMicro : Timestamp → Option Int)
  (localIterator : Bytes → Bytes → List (Bytes × Bytes)) (shardID : UInt64) (tab : RetentionTableInfo)

theorem processDeletes_Dragon_WriteBatchLocally (s : LocalStore) (nowUnixMicros : Int)
    (maxRows : Nat) (result : Int × Nat × WriteBatch)
    (hShard : DataShardIDBase ≤ shardID) (hIDs : tab.ID ≠ tab.RowTimeIndexID)
    (hIter : ∀ p ∈ reaperIndexEntries localIterator shardID tab,
      s p.1 = some p.2 ∧ EncodeTableKeyPrefix tab.RowTimeIndexID shardID <+: p.1 ∧ Short p.1)
    (hRun : processDeletes goTimeUnixMicro localIterator shardID tab nowUnixMicros
      (NewWriteBatch shardID) maxRows = .ok result) :
    ∃ s', Dragon.WriteBatchLocally s result.2.2 = .ok s' ∧
      ∀ p ∈ (reaperIndexEntries localIterator shardID tab).take result.2.1,
        s' (rowKeyOfIndexKey (EncodeTableKeyPrefix tab.ID shardID) p.1) = none ∧ s' p.1 = some p.2 := by
  have hStart : Short (EncodeTableKeyPrefix tab.RowTimeIndexID shardID) := by
    simp [Short]
  obtain ⟨-, hShardID, rs, hHolds⟩ := processDeletesLoop_holds goTimeUnixMicro hStart
    (length_EncodeTableKeyPrefix tab.ID shardID) _ (fun p hp => (hIter p hp).2.2) 0 none _ _ result
    (WriteBatch.Holds.newWriteBatch shardID) (by simp) hRun
  refine ⟨_, Dragon.WriteBatchLocally_eq hHolds (hShardID ▸ hShard) s, ?_⟩
  intro p hp
  have hp' := List.mem_of_mem_take hp
  simp only [KVStore.Batch.apply_withoutRanges, KVStore.putAll_nil, List.nil_append,
    Nat.sub_zero]
  constructor
  · -- the row's delete is in the batch
    exact KVStore.eraseAll_of_mem _ _ (List.mem_map_of_mem hp)
  · -- no delete of the batch names an index key
    rw [KVStore.eraseAll_of_not_mem _ _ ?_, (hIter p hp').1]
    simp only [List.mem_map, not_exists, not_and]
    intro q _ hq
    exact rowKey_ne_indexKey hIDs (hIter p hp').2.1 _ hq

end Dragon

/-! ## Dragon and the fake cluster on delete ranges -/

theorem WriteBatchLocally_Dragon_FakeCluster_deleteRanges :
    (∀ (s : LocalStore) (wb : WriteBatch) (b : KVStore.Batch Bytes Bytes), wb.Holds b →
      DataShardIDBase ≤ wb.ShardID → KVStore.allPresent (KVStore.putAll s b.puts) b.deletes = true →
      Dragon.WriteBatchLocally s wb = .ok (b.withoutRanges.apply s) ∧
      FakeCluster.WriteBatchLocally s wb = .ok (b.apply s) ∧
      ∀ lo hi k v, (lo, hi) ∈ b.deleteRanges → KVStore.InRange lo hi k →
        b.withoutRanges.apply s k = some v →
        Dragon.WriteBatchLocally s wb ≠ FakeCluster.WriteBatchLocally s wb) ∧
    (∀ (goTimeUnixMicro : Timestamp → Option Int) (localIterator : Bytes → Bytes → List (Bytes × Bytes))
      (shardID : UInt64) (tab : RetentionTableInfo) (s : LocalStore) (nowUnixMicros : Int)
      (maxRows : Nat) (result : Int × Nat × WriteBatch),
      DataShardIDBase ≤ shardID → tab.ID ≠ tab.RowTimeIndexID →
      (∀ p ∈ reaperIndexEntries localIterator shardID tab,
        s p.1 = some p.2 ∧ EncodeTableKeyPrefix tab.RowTimeIndexID shardID <+: p.1 ∧ Short p.1) →
      processDeletes goTimeUnixMicro localIterator shardID tab nowUnixMicros
        (NewWriteBatch shardID) maxRows = .ok result →
      ∃ s', Dragon.WriteBatchLocally s result.2.2 = .ok s' ∧
        ∀ p ∈ (reaperIndexEntries localIterator shardID tab).take result.2.1,
          s' (rowKeyOfIndexKey (EncodeTableKeyPrefix tab.ID shardID) p.1) = none ∧
            s' p.1 = some p.2) := by
  refine ⟨?_, fun goTimeUnixMicro localIterator shardID tab s nowUnixMicros maxRows result hShard
    hIDs hIter hRun => processDeletes_Dragon_WriteBatchLocally goTimeUnixMicro localIterator shardID
      tab s nowUnixMicros maxRows result hShard hIDs hIter hRun⟩
  intro s wb b hHolds hShard hPresent
  have hDragon := Dragon.WriteBatchLocally_eq hHolds hShard s
  have hFake := FakeCluster.WriteBatchLocally_eq hHolds hShard s hPresent
  refine ⟨hDragon, hFake, ?_⟩
  intro lo hi k v hRange hIn hSome hEq
  -- the two stores differ at `k`: Dragon keeps `v`, the range removes it in the fake one
  rw [hDragon, hFake, Except.ok.injEq] at hEq
  have hAt := congrFun hEq k
  rw [hSome, KVStore.Batch.apply_of_inRange b s hRange hIn] at hAt
  cases hAt

def reapedIndexKey : Bytes := EncodeTableKeyPrefix 11 1000 ++ [1, 0, 0, 0, 0, 0, 0, 0, 0, 5]

def reapedRowKey : Bytes := EncodeTableKeyPrefix 7 1000 ++ [5]

def reapedStore : LocalStore := KVStore.put (KVStore.put (fun _ => none) reapedIndexKey []) reapedRowKey [9]

theorem WriteBatchLocally_Dragon_FakeCluster_deleteRanges_reaper :
    Dragon.WriteBatchLocally (KVStore.put (fun _ => none) [2] [7])
        ((NewWriteBatch 1000).AddDeleteRange [1] [3]) ≠
      FakeCluster.WriteBatchLocally (KVStore.put (fun _ => none) [2] [7])
        ((NewWriteBatch 1000).AddDeleteRange [1] [3]) ∧
    ∃ s', Dragon.WriteBatchLocally reapedStore
        ((((NewWriteBatch 1000).AddDelete reapedRowKey)).AddDeleteRange (EncodeTableKeyPrefix 11 1000)
          (EncodeTableKeyPrefix 11 1000 ++ [1, 0, 0, 0, 0, 0, 0, 0, 0, 6])) = .ok s' ∧
      s' reapedRowKey = none ∧ s' reapedIndexKey = some [] := by
  have hHolds : ((NewWriteBatch 1000).AddDeleteRange [1] [3]).Holds ⟨[], [], [([1], [3])]⟩ :=
    (WriteBatch.Holds.newWriteBatch 1000).addDeleteRange (by decide) (by decide)
  have hRun : processDeletes (fun _ => some 0) (fun _ _ => [(reapedIndexKey, [])]) 1000 ⟨7, 10, 11⟩
      100 (NewWriteBatch 1000) 5 =
      .ok (110, 1, (((NewWriteBatch 1000).AddDelete reapedRowKey)).AddDeleteRange
        (EncodeTableKeyPrefix 11 1000) (EncodeTableKeyPrefix 11 1000 ++ [1, 0, 0, 0, 0, 0, 0, 0, 0, 6])) := by
    decide
  obtain ⟨s', hWrite, hKeys⟩ := WriteBatchLocally_Dragon_FakeCluster_deleteRanges.2 (fun _ => some 0)
    (fun _ _ => [(reapedIndexKey, [])]) 1000 ⟨7, 10, 11⟩ reapedStore 100 5 _ (by decide) (by decide)
    (by decide) hRun
  obtain ⟨hRow, hIndex⟩ := hKeys (reapedIndexKey, []) (by decide)
  exact ⟨WriteBatchLocally_Dragon_FakeCluster_deleteRanges.1 _ _ _ hHolds (by decide) rfl |>.2.2
    [1] [3] [2] [7] List.mem_cons_self (by decide) (by decide), s', hWrite, hRow, hIndex⟩

end PranaDB
