import PranaDB.Cluster.ShardStateMachine
import PranaDB.Lib.ExceptRun

/-! # The proposals a shard state machine applies (`cluster/dragon/dragon.go`)

`Dragon.WriteBatch`, `Dragon.WriteForwardBatch` and `Dragon.setLeader` build
the bytes of the Raft proposals that `ShardOnDiskStateMachine.Update` reads.
Here the state machine is shown to read back what they wrote: a serialized
batch deserializes to the groups it holds (`deserializeWriteBatch_Serialize`),
and `applyEntry` on each proposal runs the handler of its command.
-/

namespace PranaDB
set_option autoImplicit false

def Dragon.writeBatchProposal (batch : WriteBatch) : Bytes :=
  batch.Serialize [shardStateMachineCommandWrite]

/-- The bytes `Dragon.WriteForwardBatch` builds: the command, the fill flag, one
batch. -/
def Dragon.writeForwardBatchProposal (batch : WriteBatch) (fill : Bool) : Bytes :=
  batch.Serialize [shardStateMachineCommandForwardWrite, if fill then 1 else 0, 1]

def Dragon.setLeaderProposal (nodeID term : UInt64) : Bytes :=
  AppendUint64ToBufferLE (AppendUint64ToBufferLE [shardStateMachineCommandSetLeader] nodeID) term

/-- A forward write of the batches `wbs` as the state machine receives it,
directly or through the scheduler. -/
def forwardWriteBytes (fill : Bool) (wbs : List WriteBatch) : Bytes :=
  [shardStateMachineCommandForwardWrite, if fill then 1 else 0, UInt8.ofNat wbs.length] ++
    (wbs.map fun wb => wb.Serialize []).flatten

theorem writeForwardBatchProposal_eq (batch : WriteBatch) (fill : Bool) :
    Dragon.writeForwardBatchProposal batch fill = forwardWriteBytes fill [batch] := by
  rw [Dragon.writeForwardBatchProposal, WriteBatch.Serialize_eq, forwardWriteBytes]
  simp

/-! ## Reading a serialized batch back -/

theorem readBytesWithLength_of_prefix {buff pre bytes : Bytes}
    (hPre : pre ++ lengthPrefixed bytes <+: buff) (hShort : Short bytes) :
    readBytesWithLength buff pre.length = some (bytes, (pre ++ lengthPrefixed bytes).length) := by
  obtain ⟨suf, rfl⟩ := hPre
  exact readBytesWithLength_append _ _ _ hShort

theorem ReadUint32FromBufferLE_of_prefix {buff pre : Bytes} {v : UInt32}
    (hPre : AppendUint32ToBufferLE pre v <+: buff) :
    ReadUint32FromBufferLE buff pre.length = some (v, (AppendUint32ToBufferLE pre v).length) := by
  obtain ⟨suf, rfl⟩ := hPre
  rw [ReadUint32FromBufferLE_append pre suf v]
  simp [AppendUint32ToBufferLE]

theorem prefix_AppendUint32ToBufferLE (buff : Bytes) (v : UInt32) :
    buff <+: AppendUint32ToBufferLE buff v := by
  rw [AppendUint32ToBufferLE_eq]
  exact List.prefix_append _ _

theorem readPairs_encodePairs {buff : Bytes} :
    ∀ {ps : List (Bytes × Bytes)} {pre : Bytes}, (∀ p ∈ ps, Short p.1 ∧ Short p.2) →
      pre ++ encodePairs ps <+: buff →
      readPairs buff ps.length pre.length = .ok (ps, (pre ++ encodePairs ps).length)
  | [], _, _, _ => by simp [readPairs]
  | p :: ps, pre, hShort, hPre => by
    obtain ⟨hk, hv⟩ := hShort p List.mem_cons_self
    have hShape : pre ++ encodePairs (p :: ps) =
        pre ++ lengthPrefixed p.1 ++ lengthPrefixed p.2 ++ encodePairs ps := by simp
    rw [hShape] at hPre ⊢
    have hK := readBytesWithLength_of_prefix ((List.prefix_append _ _).trans
      ((List.prefix_append _ _).trans hPre)) hk
    have hV := readBytesWithLength_of_prefix ((List.prefix_append _ _).trans hPre) hv
    have hRest := readPairs_encodePairs (fun q hq => hShort q (List.mem_cons_of_mem p hq)) hPre
    simp only [List.length_cons, readPairs, hK, orPanic_some, ExceptRun.ok_bind, hV, hRest]
    rfl

theorem readKeys_encodeKeys {buff : Bytes} :
    ∀ {ks : List Bytes} {pre : Bytes}, (∀ k ∈ ks, Short k) → pre ++ encodeKeys ks <+: buff →
      readKeys buff ks.length pre.length = .ok (ks, (pre ++ encodeKeys ks).length)
  | [], _, _, _ => by simp [readKeys]
  | k :: ks, pre, hShort, hPre => by
    rw [encodeKeys_cons, ← List.append_assoc] at hPre ⊢
    have hK := readBytesWithLength_of_prefix ((List.prefix_append _ _).trans hPre)
      (hShort k List.mem_cons_self)
    have hRest := readKeys_encodeKeys (fun l hl => hShort l (List.mem_cons_of_mem k hl)) hPre
    simp only [List.length_cons, readKeys, hK, orPanic_some, ExceptRun.ok_bind, hRest]
    rfl

theorem toNat_ofNat_count {n : Nat} (h : n < 2 ^ 32) : (UInt32.ofNat n).toNat = n := by
  rw [UInt32.toNat_ofNat']
  exact Nat.mod_eq_of_lt h

def WriteBatch.serializedGroups (wb : WriteBatch) (buff : Bytes) : Bytes :=
  AppendUint32ToBufferLE (AppendUint32ToBufferLE (AppendUint32ToBufferLE buff
    (UInt32.ofNat wb.NumPuts)) (UInt32.ofNat wb.NumDeletes)) (UInt32.ofNat wb.NumDeleteRanges) ++
    wb.Puts ++ wb.Deletes ++ wb.DeleteRanges

def batchIDBytes : Option Bytes → Bytes
  | none => [0]
  | some id => 1 :: id

theorem WriteBatch.Serialize_eq_groups (wb : WriteBatch) (buff : Bytes) :
    wb.Serialize buff = wb.serializedGroups buff ++ batchIDBytes wb.BatchID := by
  cases h : wb.BatchID <;> simp [WriteBatch.Serialize, WriteBatch.serializedGroups, batchIDBytes, h]

theorem deserializeWriteBatch_Serialize (s : ShardOnDiskStateMachine) {wb : WriteBatch}
    {b : KVStore.Batch Bytes Bytes} (h : wb.Holds b) (hc : wb.Counted b) (pre suf : Bytes)
    (forward : Bool) :
    deserializeWriteBatch s (wb.Serialize pre ++ suf) pre.length forward =
      .ok ⟨if forward then b.puts.map fun p => (AppendUint64ToBufferBE p.1 s.receiverSequence, p.2)
          else b.puts, b.deletes, b.deleteRanges, wb.BatchID, (wb.Serialize pre).length⟩ := by
  set buff := wb.Serialize pre ++ suf with hBuff
  have hSplit : buff = wb.serializedGroups pre ++ (batchIDBytes wb.BatchID ++ suf) := by
    rw [hBuff, WriteBatch.Serialize_eq_groups, List.append_assoc]
  have hRanges : AppendUint32ToBufferLE (AppendUint32ToBufferLE (AppendUint32ToBufferLE pre
      (UInt32.ofNat wb.NumPuts)) (UInt32.ofNat wb.NumDeletes)) (UInt32.ofNat wb.NumDeleteRanges) ++
      encodePairs b.puts ++ encodeKeys b.deletes ++ encodePairs b.deleteRanges <+: buff := by
    rw [← h.puts_eq, ← h.deletes_eq, ← h.deleteRanges_eq, hSplit]
    exact List.prefix_append _ _
  have hDeletes := (List.prefix_append _ _).trans hRanges
  have hPuts := (List.prefix_append _ _).trans hDeletes
  have hP2 := (List.prefix_append _ _).trans hPuts
  have hP1 := (prefix_AppendUint32ToBufferLE _ _).trans hP2
  have hP0 := (prefix_AppendUint32ToBufferLE _ _).trans hP1
  have hCountPuts : (UInt32.ofNat wb.NumPuts).toNat = b.puts.length := by
    rw [toNat_ofNat_count (hc.numPuts_eq ▸ hc.numPuts_lt), hc.numPuts_eq]
  have hCountDeletes : (UInt32.ofNat wb.NumDeletes).toNat = b.deletes.length := by
    rw [toNat_ofNat_count (hc.numDeletes_eq ▸ hc.numDeletes_lt), hc.numDeletes_eq]
  have hCountRanges : (UInt32.ofNat wb.NumDeleteRanges).toNat = b.deleteRanges.length := by
    rw [toNat_ofNat_count (hc.numDeleteRanges_eq ▸ hc.numDeleteRanges_lt), hc.numDeleteRanges_eq]
  have hGroups : (AppendUint32ToBufferLE (AppendUint32ToBufferLE (AppendUint32ToBufferLE pre
      (UInt32.ofNat wb.NumPuts)) (UInt32.ofNat wb.NumDeletes)) (UInt32.ofNat wb.NumDeleteRanges) ++
      encodePairs b.puts ++ encodeKeys b.deletes ++ encodePairs b.deleteRanges).length =
      (wb.serializedGroups pre).length := by
    rw [WriteBatch.serializedGroups, h.puts_eq, h.deletes_eq, h.deleteRanges_eq]
  have hFlag : buff[(wb.serializedGroups pre).length]? = (batchIDBytes wb.BatchID ++ suf)[0]? := by
    rw [hSplit, List.getElem?_append_right (le_refl _), Nat.sub_self]
  simp only [deserializeWriteBatch, ReadUint32FromBufferLE_of_prefix hP0,
    ReadUint32FromBufferLE_of_prefix hP1, ReadUint32FromBufferLE_of_prefix hP2, orPanic_some,
    ExceptRun.ok_bind, hCountPuts, hCountDeletes, hCountRanges,
    readPairs_encodePairs h.puts_short hPuts, readKeys_encodeKeys h.deletes_short hDeletes,
    readPairs_encodePairs h.deleteRanges_short hRanges, hGroups, hFlag]
  rw [WriteBatch.Serialize_eq_groups]
  cases hID : wb.BatchID with
  | none =>
    simp only [batchIDBytes, List.cons_append, List.nil_append, List.getElem?_cons_zero,
      orPanic_some, ExceptRun.ok_bind]
    simp [pure, Except.pure]
  | some id =>
    have hLen := hc.batchID_length id hID
    have hID16 : (buff.drop ((wb.serializedGroups pre).length + 1)).take 16 = id := by
      rw [hSplit, hID, batchIDBytes, ← List.drop_drop, List.drop_left]
      simp [List.take_left' hLen]
    have hBuffLen : buff.length = (wb.serializedGroups pre).length + 1 + 16 + suf.length := by
      rw [hSplit, hID]
      simp [batchIDBytes, hLen]
      omega
    simp only [batchIDBytes, List.cons_append, List.getElem?_cons_zero, orPanic_some,
      ExceptRun.ok_bind, beq_self_eq_true, if_true, if_pos (show (wb.serializedGroups pre).length +
        1 + 16 ≤ buff.length by omega), hID16]
    simp [pure, Except.pure, hLen]

/-! ## Applying each proposal -/

section Apply

variable (env : SMEnv) (timestamp : UInt64) (s : ShardOnDiskStateMachine) (batch : LocalStore)

theorem handleWrite_Serialize {wb : WriteBatch} {b : KVStore.Batch Bytes Bytes} (h : wb.Holds b)
    (hc : wb.Counted b) (pre suf : Bytes) (forward fill : Bool) :
    handleWrite env s batch pre.length (wb.Serialize pre ++ suf) forward fill timestamp = (do
      let (s', batch') ← handleWritePuts env timestamp forward fill
        (if forward then b.puts.map fun p => (AppendUint64ToBufferBE p.1 s.receiverSequence, p.2)
          else b.puts) s batch
      if forward && !b.deletes.isEmpty then throw (.panic "deletes not supported for forward write")
      else do
        let batch' ← handleWriteDeletes env s' batch' b.deletes
        pure (s', KVStore.eraseRanges batch' b.deleteRanges, (wb.Serialize pre).length)) := by
  simp only [handleWrite, deserializeWriteBatch_Serialize s h hc, ExceptRun.ok_bind]

/-! The dispatch of `applyEntry` on the command byte. The lemmas are stated for
any command bytes: on a concrete proposal the kernel would otherwise unfold its
bytes while checking the branch conditions. -/

theorem applyEntry_write (index : UInt64) {cmd : Bytes}
    (hHead : cmd[0]? = some shardStateMachineCommandWrite) :
    applyEntry env timestamp (s, batch) ⟨index, cmd⟩ = (do
      let (s', batch', _) ← handleWrite env s batch 1 cmd false false timestamp
      pure (s', batch')) := by
  simp only [applyEntry, hHead, orPanic_some, ExceptRun.ok_bind]
  rw [if_neg (by decide), if_pos trivial]

theorem applyEntry_forwardWrite (index : UInt64) {cmd : Bytes} {fill numBatches : UInt8}
    (hHead : cmd[0]? = some shardStateMachineCommandForwardWrite) (hFill : cmd[1]? = some fill)
    (hNum : cmd[2]? = some numBatches) :
    applyEntry env timestamp (s, batch) ⟨index, cmd⟩ =
      handleForwardWrites env timestamp (fill == 1) cmd numBatches.toNat s batch 3 := by
  simp only [applyEntry, hHead, hFill, hNum, orPanic_some, ExceptRun.ok_bind, if_true]

theorem applyEntry_setLeader (index : UInt64) {cmd : Bytes}
    (hHead : cmd[0]? = some shardStateMachineCommandSetLeader) :
    applyEntry env timestamp (s, batch) ⟨index, cmd⟩ = handleSetLeader s batch cmd := by
  simp only [applyEntry, hHead, orPanic_some, ExceptRun.ok_bind]
  rw [if_neg (by decide), if_neg (by decide), if_pos trivial]

theorem applyEntry_writeBatchProposal (index : UInt64) (wb : WriteBatch) :
    applyEntry env timestamp (s, batch) ⟨index, Dragon.writeBatchProposal wb⟩ = (do
      let (s', batch', _) ← handleWrite env s batch 1 (Dragon.writeBatchProposal wb) false false timestamp
      pure (s', batch')) := by
  apply applyEntry_write
  rw [Dragon.writeBatchProposal, WriteBatch.Serialize_eq]
  rfl

theorem applyEntry_forwardWriteBytes (index : UInt64) (fill : Bool) (wbs : List WriteBatch)
    (hLen : wbs.length < 256) :
    applyEntry env timestamp (s, batch) ⟨index, forwardWriteBytes fill wbs⟩ =
      handleForwardWrites env timestamp fill (forwardWriteBytes fill wbs) wbs.length s batch 3 := by
  have hFill : ((if fill then 1 else 0 : UInt8) == 1) = fill := by cases fill <;> rfl
  have hCount : (UInt8.ofNat wbs.length).toNat = wbs.length := by
    rw [UInt8.toNat_ofNat']
    exact Nat.mod_eq_of_lt hLen
  rw [applyEntry_forwardWrite env timestamp s batch index rfl rfl rfl, hFill, hCount]

theorem applyEntry_setLeaderProposal (index nodeID term : UInt64) :
    applyEntry env timestamp (s, batch) ⟨index, Dragon.setLeaderProposal nodeID term⟩ =
      handleSetLeader s batch (Dragon.setLeaderProposal nodeID term) := by
  apply applyEntry_setLeader
  rw [Dragon.setLeaderProposal, AppendUint64ToBufferLE, AppendUint64ToBufferLE]
  rfl

end Apply

end PranaDB
