import Mathlib
import PranaDB.Pull.TableScan
import PranaDB.Cluster.LocalWrite

/-! # Copying a table's initial state (`push/engine.go`)

`Engine.LoadInitialStateForTable` copies the rows of one table into another on
each listed shard. It scans the source table's range in batches of
`getInitBatchSize()` rows, puts each row under the target table's key prefix,
and stops after a short batch. A new batch starts at the last key of the
previous one, which the scan returns again and the round skips.

Pebble is the sorted list of its rows, and the copy writes into it between
two scans. The loops run on fuel and give `none` when it runs out; the result
holds the store and the rows put, in order. Cancellation through the
interruptor and the final `SyncStore` are left out.
-/

namespace PranaDB
set_option autoImplicit false

/-- `initBatchSize`, the batch size outside tests. -/
def initBatchSize : Nat := 10000

def SortedStore.get (st : SortedStore) : LocalStore := RangeScan.toStore st.rows

def SortedStore.putAll (st : SortedStore) (puts : List (Bytes × Bytes)) : SortedStore :=
  ⟨RangeScan.insertAll st.rows puts, st.sorted.insertAll puts⟩

/-- `Dragon.WriteBatchLocally` of a batch of puts, on pebble's rows. -/
def SortedStore.WriteBatchLocally (st : SortedStore) (shardID : UInt64) (puts : List (Bytes × Bytes)) :
    Except ClusterError SortedStore :=
  if shardID < DataShardIDBase then .error (invalidShardPanic shardID) else .ok (st.putAll puts)

def copiedKey (newKeyPrefix key : Bytes) : Except ClusterError Bytes :=
  if 16 ≤ key.length then .ok (newKeyPrefix ++ key.drop 16) else .error sliceBoundsOutOfRange

def initBatchPuts (newKeyPrefix : Bytes) (skipFirst : Bool) (pairs : List (Bytes × Bytes)) :
    Except ClusterError (List (Bytes × Bytes)) :=
  (pairs.drop (if skipFirst then 1 else 0)).mapM fun kv =>
    (copiedKey newKeyPrefix kv.1).map fun key => (key, kv.2)

/-- The loop of `LoadInitialStateForTable` on one shard, from `scanStart`;
`written` holds the rows put so far. -/
def loadShardLoop (batchSize : Nat) (shardID : UInt64) (scanEnd newKeyPrefix : Bytes) :
    Nat → SortedStore → Bytes → Bool → List (Bytes × Bytes) →
      Option (Except ClusterError (SortedStore × List (Bytes × Bytes)))
  | 0, _, _, _, _ => none
  | fuel + 1, st, scanStart, skipFirst, written =>
    let pairs := st.LocalScan scanStart scanEnd batchSize
    match initBatchPuts newKeyPrefix skipFirst pairs with
    | .error e => some (.error e)
    | .ok puts =>
      match st.WriteBatchLocally shardID puts with
      | .error e => some (.error e)
      | .ok st =>
        if pairs.length < batchSize then some (.ok (st, written ++ puts))
        else
          match pairs.getLast? with
          | none => some (.error (.panic "index out of range"))
          | some last => loadShardLoop batchSize shardID scanEnd newKeyPrefix fuel st last.1 true (written ++ puts)

def loadShards (batchSize fuel : Nat) (initTableID targetTableID : UInt64) :
    List UInt64 → SortedStore → List (Bytes × Bytes) →
      Option (Except ClusterError (SortedStore × List (Bytes × Bytes)))
  | [], st, written => some (.ok (st, written))
  | shardID :: shardIDs, st, written =>
    match loadShardLoop batchSize shardID (EncodeTableKeyPrefix (initTableID + 1) shardID)
        (EncodeTableKeyPrefix targetTableID shardID) fuel st (EncodeTableKeyPrefix initTableID shardID) false
        written with
    | some (.ok (st, written)) => loadShards batchSize fuel initTableID targetTableID shardIDs st written
    | r => r

/-- `Engine.LoadInitialStateForTable`, with `batchSize` for `getInitBatchSize()`. -/
def Engine.LoadInitialStateForTable (st : SortedStore) (shardIDs : List UInt64)
    (initTableID targetTableID : UInt64) (batchSize fuel : Nat) :
    Option (Except ClusterError (SortedStore × List (Bytes × Bytes))) :=
  loadShards batchSize fuel initTableID targetTableID shardIDs st []

/-! ## What the copy is for -/

def SortedStore.tableRows (st : SortedStore) (tableID shardID : UInt64) : List (Bytes × Bytes) :=
  RangeScan.rangeRows st.rows (EncodeTableKeyPrefix tableID shardID) (EncodeTableKeyPrefix (tableID + 1) shardID)

def copyRows (newKeyPrefix : Bytes) (rows : List (Bytes × Bytes)) : List (Bytes × Bytes) :=
  rows.map fun kv => (newKeyPrefix ++ kv.1.drop 16, kv.2)

def copiedRows (st : SortedStore) (shardIDs : List UInt64) (initTableID targetTableID : UInt64) :
    List (Bytes × Bytes) :=
  shardIDs.flatMap fun shardID =>
    copyRows (EncodeTableKeyPrefix targetTableID shardID) (st.tableRows initTableID shardID)

/-- The rows a shard's loop still has to put: the scan from `scanStart`,
without its first row when resuming. -/
def pendingRows (st : SortedStore) (scanStart scanEnd : Bytes) (skipFirst : Bool) : List (Bytes × Bytes) :=
  (RangeScan.rangeRows st.rows scanStart scanEnd).drop (if skipFirst then 1 else 0)

/-! ## One shard -/

theorem SortedStore.putAll_putAll (st : SortedStore) (ps qs : List (Bytes × Bytes)) :
    (st.putAll ps).putAll qs = st.putAll (ps ++ qs) := by
  simp [SortedStore.putAll, RangeScan.insertAll_append]

theorem WriteBatchLocally_ok {shardID : UInt64} (hShard : DataShardIDBase ≤ shardID) (st : SortedStore)
    (puts : List (Bytes × Bytes)) : st.WriteBatchLocally shardID puts = .ok (st.putAll puts) := by
  rw [SortedStore.WriteBatchLocally, if_neg (UInt64.not_lt.mpr hShard)]

/-! ## Pebble's rows and the Go batch -/

def addPuts (wb : WriteBatch) (puts : List (Bytes × Bytes)) : WriteBatch :=
  puts.foldl (fun wb p => wb.AddPut p.1 p.2) wb

theorem holds_addPuts (puts : List (Bytes × Bytes)) (hShort : ∀ p ∈ puts, Short p.1 ∧ Short p.2) :
    ∀ {wb : WriteBatch} {b : KVStore.Batch Bytes Bytes}, wb.Holds b → (addPuts wb puts).Holds { b with puts := b.puts ++ puts } := by
  induction puts with
  | nil => intro wb b h; simpa [addPuts] using h
  | cons p puts ih =>
    intro wb b h
    have hHead := hShort p List.mem_cons_self
    have hRest := ih (fun q hq => hShort q (List.mem_cons_of_mem _ hq)) (h.addPut hHead.1 hHead.2)
    simpa [addPuts] using hRest

theorem shardID_addPuts (wb : WriteBatch) (puts : List (Bytes × Bytes)) : (addPuts wb puts).ShardID = wb.ShardID := by
  induction puts generalizing wb with
  | nil => rfl
  | cons p puts ih => exact ih _

/-- Writing the Go batch of a round into pebble's store is the model's write:
the same error for a system shard, and otherwise the store of the new rows. -/
theorem Dragon_WriteBatchLocally_addPuts (st : SortedStore) (shardID : UInt64) (puts : List (Bytes × Bytes))
    (hShort : ∀ p ∈ puts, Short p.1 ∧ Short p.2) :
    Dragon.WriteBatchLocally st.get (addPuts (NewWriteBatch shardID) puts) =
      (st.WriteBatchLocally shardID puts).map SortedStore.get := by
  have hID : (addPuts (NewWriteBatch shardID) puts).ShardID = shardID := shardID_addPuts _ _
  by_cases hShard : shardID < DataShardIDBase
  · rw [Dragon.WriteBatchLocally, SortedStore.WriteBatchLocally, hID, if_pos hShard, if_pos hShard]
    rfl
  · have hHolds := holds_addPuts puts hShort (WriteBatch.Holds.newWriteBatch shardID)
    rw [Dragon.WriteBatchLocally_eq hHolds (by rw [hID]; exact UInt64.not_lt.mp hShard),
      WriteBatchLocally_ok (UInt64.not_lt.mp hShard)]
    simp [SortedStore.get, SortedStore.putAll, RangeScan.toStore_insertAll, Except.map]

theorem Dragon_WriteBatchLocally_addPuts_one_put :
    (∀ p ∈ [(([1] : Bytes), ([2] : Bytes))], Short p.1 ∧ Short p.2) ∧
      Dragon.WriteBatchLocally (SortedStore.get ⟨[], List.Pairwise.nil⟩)
          (addPuts (NewWriteBatch 1000) [([1], [2])]) =
        ((SortedStore.WriteBatchLocally ⟨[], List.Pairwise.nil⟩ 1000 [([1], [2])]).map SortedStore.get) := by
  have hShort : ∀ p ∈ [(([1] : Bytes), ([2] : Bytes))], Short p.1 ∧ Short p.2 := by decide
  exact ⟨hShort, Dragon_WriteBatchLocally_addPuts _ 1000 _ hShort⟩

theorem initBatchPuts_ok (newKeyPrefix : Bytes) (skipFirst : Bool) {pairs : List (Bytes × Bytes)}
    (hKeys : ∀ kv ∈ pairs.drop (if skipFirst then 1 else 0), 16 ≤ kv.1.length) :
    initBatchPuts newKeyPrefix skipFirst pairs =
      .ok (copyRows newKeyPrefix (pairs.drop (if skipFirst then 1 else 0))) := by
  unfold initBatchPuts
  generalize pairs.drop (if skipFirst then 1 else 0) = rest at hKeys
  induction rest with
  | nil => rfl
  | cons kv rest ih =>
    have hHead := hKeys kv List.mem_cons_self
    rw [List.mapM_cons, ih fun x hx => hKeys x (List.mem_cons_of_mem _ hx)]
    simp [copiedKey, hHead, copyRows, Except.map]

section ShardLoop

variable {batchSize : Nat} {shardID : UInt64} {lo hi newKeyPrefix : Bytes} {R : List (Bytes × Bytes)}

theorem rangeRows_resume {st : SortedStore} {scanStart : Bytes} {last : Bytes × Bytes}
    (hLast : ((RangeScan.rangeRows st.rows scanStart hi).take batchSize).getLast? = some last) :
    RangeScan.rangeRows st.rows last.1 hi = last :: (RangeScan.rangeRows st.rows scanStart hi).drop batchSize := by
  have hMem : last ∈ RangeScan.rangeRows st.rows scanStart hi := List.mem_of_mem_take (List.mem_of_getLast? hLast)
  obtain ⟨hRow, hIn⟩ := RangeScan.mem_rangeRows.mp hMem
  rw [RangeScan.rangeRows_of_mem st.sorted hRow hIn.1 hIn.2, RangeScan.after_getLast_take (st.sorted.rangeRows _ _) hLast]

theorem loadShardLoop_short (hShard : DataShardIDBase ≤ shardID) {st : SortedStore} {scanStart : Bytes}
    {skipFirst : Bool} (written : List (Bytes × Bytes)) (fuel : Nat)
    (hKeys : ∀ kv ∈ pendingRows st scanStart hi skipFirst, 16 ≤ kv.1.length)
    (hShort : (RangeScan.rangeRows st.rows scanStart hi).length < batchSize) :
    loadShardLoop batchSize shardID hi newKeyPrefix (fuel + 1) st scanStart skipFirst written =
      some (.ok (st.putAll (copyRows newKeyPrefix (pendingRows st scanStart hi skipFirst)),
        written ++ copyRows newKeyPrefix (pendingRows st scanStart hi skipFirst))) := by
  have hAll := List.take_of_length_le (Nat.le_of_lt hShort)
  rw [loadShardLoop]
  simp only [SortedStore.LocalScan, hAll, initBatchPuts_ok newKeyPrefix skipFirst hKeys, WriteBatchLocally_ok hShard,
    if_pos hShort]
  rfl

theorem loadShardLoop_full (hShard : DataShardIDBase ≤ shardID) {st : SortedStore} {scanStart : Bytes}
    {skipFirst : Bool} (last : Bytes × Bytes) (written : List (Bytes × Bytes)) (fuel : Nat)
    (hKeys : ∀ kv ∈ ((RangeScan.rangeRows st.rows scanStart hi).take batchSize).drop (if skipFirst then 1 else 0),
      16 ≤ kv.1.length)
    (hFull : batchSize ≤ (RangeScan.rangeRows st.rows scanStart hi).length)
    (hLast : ((RangeScan.rangeRows st.rows scanStart hi).take batchSize).getLast? = some last) :
    loadShardLoop batchSize shardID hi newKeyPrefix (fuel + 1) st scanStart skipFirst written =
      loadShardLoop batchSize shardID hi newKeyPrefix fuel
        (st.putAll (copyRows newKeyPrefix (((RangeScan.rangeRows st.rows scanStart hi).take batchSize).drop
          (if skipFirst then 1 else 0)))) last.1 true
        (written ++ copyRows newKeyPrefix (((RangeScan.rangeRows st.rows scanStart hi).take batchSize).drop
          (if skipFirst then 1 else 0))) := by
  have hLen : ¬ ((RangeScan.rangeRows st.rows scanStart hi).take batchSize).length < batchSize := by
    rw [List.length_take]
    omega
  rw [loadShardLoop]
  simp only [SortedStore.LocalScan, initBatchPuts_ok newKeyPrefix skipFirst hKeys, WriteBatchLocally_ok hShard,
    if_neg hLen, hLast]

theorem loadShardLoop_eq (hBatch : 2 ≤ batchSize) (hShard : DataShardIDBase ≤ shardID)
    (hKeys : ∀ kv ∈ R, 16 ≤ kv.1.length ∧ ¬ KVStore.InRange lo hi (newKeyPrefix ++ kv.1.drop 16)) (fuel : Nat) :
    ∀ (st : SortedStore) (scanStart : Bytes) (skipFirst : Bool) (written : List (Bytes × Bytes)),
      RangeScan.rangeRows st.rows lo hi = R → compare lo scanStart ≠ .gt →
      (pendingRows st scanStart hi skipFirst).length < fuel →
      loadShardLoop batchSize shardID hi newKeyPrefix fuel st scanStart skipFirst written =
        some (.ok (st.putAll (copyRows newKeyPrefix (pendingRows st scanStart hi skipFirst)),
          written ++ copyRows newKeyPrefix (pendingRows st scanStart hi skipFirst))) := by
  induction fuel with
  | zero => intro _ _ _ _ _ _ hFuel; exact absurd hFuel (Nat.not_lt_zero _)
  | succ fuel ih =>
    intro st scanStart skipFirst written hR hLo hFuel
    have hInR : ∀ kv ∈ RangeScan.rangeRows st.rows scanStart hi, kv ∈ R :=
      fun kv hkv => hR ▸ RangeScan.mem_rangeRows_of_le hLo hkv
    by_cases hShort : (RangeScan.rangeRows st.rows scanStart hi).length < batchSize
    · exact loadShardLoop_short hShard written fuel
        (fun kv hkv => (hKeys kv (hInR kv (List.mem_of_mem_drop hkv))).1) hShort
    · have hFull : batchSize ≤ (RangeScan.rangeRows st.rows scanStart hi).length := Nat.le_of_not_lt hShort
      have hNe : (RangeScan.rangeRows st.rows scanStart hi).take batchSize ≠ [] :=
        List.ne_nil_of_length_pos (by rw [List.length_take]; omega)
      obtain ⟨last, hLast⟩ := Option.isSome_iff_exists.mp (List.getLast?_isSome.mpr hNe)
      obtain ⟨scan, hScan⟩ : ∃ scan, RangeScan.rangeRows st.rows scanStart hi = scan := ⟨_, rfl⟩
      rw [loadShardLoop_full hShard last written fuel
        (fun kv hkv => (hKeys kv (hInR kv (List.mem_of_mem_take (List.mem_of_mem_drop hkv)))).1) hFull hLast]
      rw [hScan] at hInR hFull hLast
      obtain ⟨puts, hPutsEq⟩ : ∃ puts,
          copyRows newKeyPrefix ((scan.take batchSize).drop (if skipFirst then 1 else 0)) = puts := ⟨_, rfl⟩
      rw [hScan, hPutsEq]
      have hOut : ∀ p ∈ puts, ¬ KVStore.InRange lo hi p.1 := by
        intro p hp
        rw [← hPutsEq] at hp
        obtain ⟨kv, hkv, rfl⟩ := List.mem_map.mp hp
        exact (hKeys kv (hInR kv (List.mem_of_mem_take (List.mem_of_mem_drop hkv)))).2
      have hLastMem : last ∈ scan := List.mem_of_mem_take (List.mem_of_getLast? hLast)
      have hLoLast : compare lo last.1 ≠ .gt :=
        Std.TransCmp.le_trans hLo (RangeScan.mem_rangeRows.mp (hScan ▸ hLastMem)).2.1
      have hR' : RangeScan.rangeRows (st.putAll puts).rows lo hi = R :=
        (RangeScan.rangeRows_insertAll_of_not_inRange st.sorted hOut).trans hR
      have hResume : RangeScan.rangeRows (st.putAll puts).rows last.1 hi = last :: scan.drop batchSize := by
        rw [SortedStore.putAll, RangeScan.rangeRows_insertAll_of_not_inRange st.sorted
          (fun p hp hIn => hOut p hp (RangeScan.inRange_of_le hLoLast hIn)), rangeRows_resume (hScan ▸ hLast), hScan]
      have hPending : pendingRows st scanStart hi skipFirst = scan.drop (if skipFirst then 1 else 0) := by
        rw [pendingRows, hScan]
      have hPending' : pendingRows (st.putAll puts) last.1 hi true = scan.drop batchSize := by
        rw [pendingRows, hResume]
        rfl
      have hSkip : (if skipFirst then 1 else 0) < batchSize := by split <;> omega
      have hFuel' : (scan.drop batchSize).length < fuel := by
        rw [hPending, List.length_drop] at hFuel
        rw [List.length_drop]
        omega
      rw [ih _ _ _ _ hR' hLoLast (hPending' ▸ hFuel'), hPending', SortedStore.putAll_putAll, hPending,
        List.append_assoc, ← hPutsEq, copyRows, copyRows, copyRows, ← List.map_append,
        ← List.drop_append_of_le_length (by simp; omega), List.take_append_drop]

end ShardLoop

/-! ## All shards -/

section Shards

variable {initTableID targetTableID : UInt64} (hInit : initTableID.toNat + 1 < 2 ^ 64)
  (hTarget : targetTableID ≠ initTableID)
include hInit hTarget

theorem copyRows_not_inRange (shardID shardID' : UInt64) (rows : List (Bytes × Bytes)) :
    ∀ p ∈ copyRows (EncodeTableKeyPrefix targetTableID shardID) rows,
      ¬ KVStore.InRange (EncodeTableKeyPrefix initTableID shardID')
        (EncodeTableKeyPrefix (initTableID + 1) shardID') p.1 := by
  intro p hp
  obtain ⟨kv, -, rfl⟩ := List.mem_map.mp hp
  exact not_inRange_EncodeTableKeyPrefix_append hInit (fun h => hTarget (EncodeTableKeyPrefix_eq_iff.mp h).1) _

theorem tableRows_putAll_copyRows (st : SortedStore) (shardID shardID' : UInt64) (rows : List (Bytes × Bytes)) :
    (st.putAll (copyRows (EncodeTableKeyPrefix targetTableID shardID) rows)).tableRows initTableID shardID' =
      st.tableRows initTableID shardID' :=
  RangeScan.rangeRows_insertAll_of_not_inRange st.sorted (copyRows_not_inRange hInit hTarget shardID shardID' rows)

theorem loadShards_eq {batchSize : Nat} (hBatch : 2 ≤ batchSize) (fuel : Nat) :
    ∀ (shardIDs : List UInt64) (st : SortedStore) (written : List (Bytes × Bytes)),
      (∀ s ∈ shardIDs, DataShardIDBase ≤ s) →
      (∀ s ∈ shardIDs, ∀ kv ∈ st.tableRows initTableID s, 16 ≤ kv.1.length) →
      (∀ s ∈ shardIDs, (st.tableRows initTableID s).length < fuel) →
      loadShards batchSize fuel initTableID targetTableID shardIDs st written =
        some (.ok (st.putAll (copiedRows st shardIDs initTableID targetTableID),
          written ++ copiedRows st shardIDs initTableID targetTableID)) := by
  intro shardIDs
  induction shardIDs with
  | nil =>
    intro st written _ _ _
    simp [loadShards, copiedRows, SortedStore.putAll]
  | cons shardID shardIDs ih =>
    intro st written hData hKeys hFuel
    have hMem : shardID ∈ shardID :: shardIDs := List.mem_cons_self
    have hLoop := loadShardLoop_eq hBatch (hData shardID hMem)
      (fun kv hkv => ⟨hKeys shardID hMem kv hkv, copyRows_not_inRange hInit hTarget shardID shardID [kv] _
        List.mem_cons_self⟩) fuel st (EncodeTableKeyPrefix initTableID shardID) false written rfl
      (by rw [Std.ReflOrd.compare_self]; decide) (hFuel shardID hMem)
    have hPending : pendingRows st (EncodeTableKeyPrefix initTableID shardID)
        (EncodeTableKeyPrefix (initTableID + 1) shardID) false = st.tableRows initTableID shardID := rfl
    rw [hPending] at hLoop
    rw [loadShards, hLoop]
    have hSame := tableRows_putAll_copyRows hInit hTarget st shardID
    have hCopied : copiedRows (st.putAll (copyRows (EncodeTableKeyPrefix targetTableID shardID)
        (st.tableRows initTableID shardID))) shardIDs initTableID targetTableID =
        copiedRows st shardIDs initTableID targetTableID := by
      simp only [copiedRows, hSame]
    dsimp only
    rw [ih _ _ (fun s hs => hData s (List.mem_cons_of_mem _ hs))
      (fun s hs => by rw [hSame]; exact hKeys s (List.mem_cons_of_mem _ hs))
      (fun s hs => by rw [hSame]; exact hFuel s (List.mem_cons_of_mem _ hs)),
      hCopied, SortedStore.putAll_putAll, List.append_assoc]
    rfl

end Shards

theorem sorted_copyRows {initTableID : UInt64} (hInit : initTableID.toNat + 1 < 2 ^ 64) {st : SortedStore} {shardID : UInt64}
    (hKeys : ∀ kv ∈ st.tableRows initTableID shardID, 16 ≤ kv.1.length) (newKeyPrefix : Bytes) :
    RangeScan.Sorted (copyRows newKeyPrefix (st.tableRows initTableID shardID)) := by
  have hPrefix : ∀ kv ∈ st.tableRows initTableID shardID,
      kv.1 = EncodeTableKeyPrefix initTableID shardID ++ kv.1.drop 16 :=
    fun kv hkv => eq_prefix_of_inRange hInit (hKeys kv hkv) (RangeScan.mem_rangeRows.mp hkv).2
  unfold RangeScan.Sorted copyRows
  rw [List.pairwise_map]
  refine (st.sorted.rangeRows _ _).imp_of_mem ?_
  intro a b ha hb hab
  rw [hPrefix a ha, hPrefix b hb, ListOrder.compare_append_left] at hab
  rw [ListOrder.compare_append_left]
  exact hab

theorem flatMap_eq_of_nodup {α β : Type} {l : List α} (hl : l.Nodup) {a : α} (ha : a ∈ l) {f : α → List β}
    (hf : ∀ b ∈ l, b ≠ a → f b = []) : l.flatMap f = f a := by
  induction l with
  | nil => cases ha
  | cons b l ih =>
    obtain ⟨hb, hl⟩ := List.nodup_cons.mp hl
    rw [List.flatMap_cons]
    by_cases hba : b = a
    · subst hba
      have hRest : l.flatMap f = [] :=
        List.flatMap_eq_nil_iff.mpr fun c hc => hf c (List.mem_cons_of_mem _ hc) (fun h => hb (h ▸ hc))
      rw [hRest, List.append_nil]
    · rw [hf b List.mem_cons_self hba, List.nil_append]
      exact ih hl ((List.mem_cons.mp ha).resolve_left (Ne.symm hba)) fun c hc => hf c (List.mem_cons_of_mem _ hc)

section Target

variable {initTableID targetTableID : UInt64} (hInit : initTableID.toNat + 1 < 2 ^ 64)
  (hTargetMax : targetTableID.toNat + 1 < 2 ^ 64)
include hInit hTargetMax

theorem tableRows_target {st : SortedStore} {shardIDs : List UInt64} (hNodup : shardIDs.Nodup)
    {shardID : UInt64} (hMem : shardID ∈ shardIDs) (hKeys : ∀ kv ∈ st.tableRows initTableID shardID, 16 ≤ kv.1.length)
    (hEmpty : st.tableRows targetTableID shardID = []) :
    (st.putAll (copiedRows st shardIDs initTableID targetTableID)).tableRows targetTableID shardID =
      copyRows (EncodeTableKeyPrefix targetTableID shardID) (st.tableRows initTableID shardID) := by
  have hFilter : (copiedRows st shardIDs initTableID targetTableID).filter
      (fun p => decide (KVStore.InRange (EncodeTableKeyPrefix targetTableID shardID)
        (EncodeTableKeyPrefix (targetTableID + 1) shardID) p.1)) =
      copyRows (EncodeTableKeyPrefix targetTableID shardID) (st.tableRows initTableID shardID) := by
    rw [copiedRows, List.filter_flatMap, flatMap_eq_of_nodup hNodup hMem]
    · apply List.filter_eq_self.mpr
      intro p hp
      obtain ⟨kv, -, rfl⟩ := List.mem_map.mp hp
      simpa using inRange_EncodeTableKeyPrefix_append hTargetMax _
    · intro other _ hne
      apply List.filter_eq_nil_iff.mpr
      intro p hp
      obtain ⟨kv, -, rfl⟩ := List.mem_map.mp hp
      simpa using not_inRange_EncodeTableKeyPrefix_append hTargetMax
        (fun h => hne (EncodeTableKeyPrefix_eq_iff.mp h).2) _
  show RangeScan.rangeRows (RangeScan.insertAll st.rows _) _ _ = _
  rw [RangeScan.rangeRows_insertAll st.sorted, hFilter]
  rw [SortedStore.tableRows] at hEmpty
  rw [hEmpty]
  exact RangeScan.insertAll_of_sorted (by simpa using sorted_copyRows hInit hKeys _)

end Target

theorem nodup_keys_copiedRows {initTableID targetTableID : UInt64} (hInit : initTableID.toNat + 1 < 2 ^ 64)
    {st : SortedStore} {shardIDs : List UInt64} (hNodup : shardIDs.Nodup)
    (hKeys : ∀ s ∈ shardIDs, ∀ kv ∈ st.tableRows initTableID s, 16 ≤ kv.1.length) :
    ((copiedRows st shardIDs initTableID targetTableID).map Prod.fst).Nodup := by
  have hPrefix : ∀ (s : UInt64) (rows : List (Bytes × Bytes)),
      ∀ x ∈ (copyRows (EncodeTableKeyPrefix targetTableID s) rows).map Prod.fst,
        x.take 16 = EncodeTableKeyPrefix targetTableID s := by
    intro s rows x hx
    obtain ⟨kv, -, rfl⟩ := List.mem_map.mp (List.map_map ▸ hx)
    exact List.take_left' (by simp)
  rw [copiedRows, List.map_flatMap, List.nodup_flatMap]
  constructor
  · intro s hs
    have hSorted := sorted_copyRows hInit (hKeys s hs) (EncodeTableKeyPrefix targetTableID s)
    apply List.pairwise_map.mpr
    refine hSorted.imp ?_
    intro a b hab heq
    rw [heq, Std.ReflOrd.compare_self] at hab
    cases hab
  · refine hNodup.imp ?_
    intro a b hne x hxa hxb
    have hSame : EncodeTableKeyPrefix targetTableID a = EncodeTableKeyPrefix targetTableID b :=
      (hPrefix a _ x hxa).symm.trans (hPrefix b _ x hxb)
    exact hne (EncodeTableKeyPrefix_eq_iff.mp hSame).2

/-! ## The copy -/

/-- With batches of at least two rows the copy ends, puts each source row once
under the target prefix, and leaves each listed shard's target table holding
exactly the source table's rows. -/
theorem LoadInitialStateForTable_copies {st : SortedStore} {shardIDs : List UInt64}
    {initTableID targetTableID : UInt64} {batchSize fuel : Nat} (hBatch : 2 ≤ batchSize)
    (hInit : initTableID.toNat + 1 < 2 ^ 64) (hTargetMax : targetTableID.toNat + 1 < 2 ^ 64)
    (hTarget : targetTableID ≠ initTableID) (hNodup : shardIDs.Nodup) (hData : ∀ s ∈ shardIDs, DataShardIDBase ≤ s)
    (hKeys : ∀ s ∈ shardIDs, ∀ kv ∈ st.tableRows initTableID s, 16 ≤ kv.1.length)
    (hEmpty : ∀ s ∈ shardIDs, st.tableRows targetTableID s = []) (hFuel : st.rows.length < fuel) :
    Engine.LoadInitialStateForTable st shardIDs initTableID targetTableID batchSize fuel =
        some (.ok (st.putAll (copiedRows st shardIDs initTableID targetTableID),
          copiedRows st shardIDs initTableID targetTableID)) ∧
      (∀ s ∈ shardIDs, (st.putAll (copiedRows st shardIDs initTableID targetTableID)).tableRows targetTableID s =
        copyRows (EncodeTableKeyPrefix targetTableID s) (st.tableRows initTableID s)) ∧
      ((copiedRows st shardIDs initTableID targetTableID).map Prod.fst).Nodup := by
  refine ⟨?_, fun s hs => tableRows_target hInit hTargetMax hNodup hs (hKeys s hs) (hEmpty s hs),
    nodup_keys_copiedRows hInit hNodup hKeys⟩
  have hShardFuel : ∀ s ∈ shardIDs, (st.tableRows initTableID s).length < fuel :=
    fun s _ => Nat.lt_of_le_of_lt (List.length_filter_le _ _) hFuel
  rw [Engine.LoadInitialStateForTable, loadShards_eq hInit hTarget hBatch fuel shardIDs st [] hData hKeys hShardFuel,
    List.nil_append]

theorem LoadInitialStateForTable_copies_three_rows :
    ∃ r, Engine.LoadInitialStateForTable
        ⟨[(EncodeTableKeyPrefix 2000 1000 ++ [1], [7]), (EncodeTableKeyPrefix 2000 1000 ++ [2], [8]),
          (EncodeTableKeyPrefix 2000 1000 ++ [3], [9])], by decide⟩ [1000] 2000 2001 2 4 = some (.ok r) ∧
      r.1.tableRows 2001 1000 = [(EncodeTableKeyPrefix 2001 1000 ++ [1], [7]),
        (EncodeTableKeyPrefix 2001 1000 ++ [2], [8]), (EncodeTableKeyPrefix 2001 1000 ++ [3], [9])] := by
  have hKeys : ∀ s ∈ [(1000 : UInt64)], ∀ kv ∈ SortedStore.tableRows
      ⟨[(EncodeTableKeyPrefix 2000 1000 ++ [1], [7]), (EncodeTableKeyPrefix 2000 1000 ++ [2], [8]),
        (EncodeTableKeyPrefix 2000 1000 ++ [3], [9])], by decide⟩ 2000 s, 16 ≤ kv.1.length := by
    intro s _ kv hkv
    have hRow := (RangeScan.mem_rangeRows.mp hkv).1
    simp only [List.mem_cons, List.not_mem_nil, or_false] at hRow
    rcases hRow with rfl | rfl | rfl <;> simp
  have hEmpty : ∀ s ∈ [(1000 : UInt64)], SortedStore.tableRows
      ⟨[(EncodeTableKeyPrefix 2000 1000 ++ [1], [7]), (EncodeTableKeyPrefix 2000 1000 ++ [2], [8]),
        (EncodeTableKeyPrefix 2000 1000 ++ [3], [9])], by decide⟩ 2001 s = [] := by
    intro s hs
    rw [List.mem_singleton.mp hs]
    apply List.filter_eq_nil_iff.mpr
    intro kv hkv
    have hOther : EncodeTableKeyPrefix 2000 1000 ≠ EncodeTableKeyPrefix 2001 1000 :=
      fun h => by simp [EncodeTableKeyPrefix_eq_iff] at h
    simp only [List.mem_cons, List.not_mem_nil, or_false] at hkv
    rcases hkv with rfl | rfl | rfl <;>
      simpa using not_inRange_EncodeTableKeyPrefix_append (by decide) hOther _
  obtain ⟨hRun, hRows, -⟩ := @LoadInitialStateForTable_copies
    ⟨[(EncodeTableKeyPrefix 2000 1000 ++ [1], [7]), (EncodeTableKeyPrefix 2000 1000 ++ [2], [8]),
      (EncodeTableKeyPrefix 2000 1000 ++ [3], [9])], by decide⟩ [1000] 2000 2001 2 4 (by decide) (by decide)
    (by decide) (by decide) (List.nodup_singleton 1000) (fun s hs => by rw [List.mem_singleton.mp hs]; decide)
    hKeys hEmpty (by decide)
  refine ⟨_, hRun, ?_⟩
  rw [hRows 1000 List.mem_cons_self]
  decide

theorem loadShardLoop_batch_one {shardID : UInt64} (hShard : DataShardIDBase ≤ shardID) {hi newKeyPrefix : Bytes}
    {st : SortedStore} (kv : Bytes × Bytes) (hMem : kv ∈ st.rows) (hHi : compare kv.1 hi = .lt) (fuel : Nat) :
    ∀ written, loadShardLoop 1 shardID hi newKeyPrefix fuel st kv.1 true written = none := by
  have hScan : RangeScan.rangeRows st.rows kv.1 hi = kv :: RangeScan.after kv.1 (RangeScan.rangeRows st.rows kv.1 hi) :=
    RangeScan.rangeRows_of_mem st.sorted hMem (by rw [Std.ReflOrd.compare_self]; decide) hHi
  have hTake : (RangeScan.rangeRows st.rows kv.1 hi).take 1 = [kv] := by rw [hScan]; rfl
  induction fuel with
  | zero => intro _; rfl
  | succ fuel ih =>
    intro written
    rw [loadShardLoop_full hShard kv written fuel (by simp [hTake]) (by rw [hScan]; simp) (by rw [hTake]; rfl), hTake]
    exact ih _

theorem LoadInitialStateForTable_batch_one_none (fuel : Nat) :
    Engine.LoadInitialStateForTable ⟨[(EncodeTableKeyPrefix 2000 1000 ++ [1], [7])], by decide⟩ [1000]
      2000 2001 1 fuel = none := by
  cases fuel with
  | zero => rfl
  | succ fuel =>
    rw [Engine.LoadInitialStateForTable, loadShards, loadShardLoop_full (by decide)
      (EncodeTableKeyPrefix 2000 1000 ++ [1], [7]) [] fuel (by decide) (by decide) (by decide),
      loadShardLoop_batch_one (by decide) (EncodeTableKeyPrefix 2000 1000 ++ [1], [7]) (by decide) (by decide)]

theorem LoadInitialStateForTable_batch_one_never_ends :
    Engine.LoadInitialStateForTable ⟨[(EncodeTableKeyPrefix 2000 1000 ++ [1], [7])], by decide⟩ [1000]
      2000 2001 1 100 = none :=
  LoadInitialStateForTable_batch_one_none 100

end PranaDB
