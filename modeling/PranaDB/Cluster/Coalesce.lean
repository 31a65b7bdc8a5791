import Mathlib
import PranaDB.Cluster.Proposals
import PranaDB.Push.Scheduler

/-! # Forward writes combined by the scheduler

A batch built by the `WriteBatch` methods deserializes to the groups it was
built with. The scheduler queues forward writes that `Dragon.WriteForwardBatch`
built (`QueuedForwardWrite`), and `getForwardWriteBatch` proposes a prefix of
them as one forward write. The state machine reads that write batch by batch,
each one as it reads the write it came from, so one `Update` of the combined
write and one of the writes it combines agree. They may differ only in the
fill flag of the rows handed to the listener: the combined write carries the
flag of the first. `withoutRows` forgets those rows, and each step of the state
machine commutes with it.
-/

namespace PranaDB
set_option autoImplicit false

theorem deserializeWriteBatch_Serialize_built (s : ShardOnDiskStateMachine) {wb : WriteBatch}
    {b : KVStore.Batch Bytes Bytes} (h : wb.Built b) :
    deserializeWriteBatch s (wb.Serialize []) 0 false =
      .ok ⟨b.puts, b.deletes, b.deleteRanges, wb.BatchID, (wb.Serialize []).length⟩ := by
  have hRead := deserializeWriteBatch_Serialize s h.holds_counted.1 h.holds_counted.2 [] [] false
  simpa using hRead

/-! ## The rows for the listener -/

namespace ShardOnDiskStateMachine

def withoutRows (s : ShardOnDiskStateMachine) : ShardOnDiskStateMachine := { s with forwardRows := [] }

theorem eq_withRows_of_withoutRows_eq {s t : ShardOnDiskStateMachine} (h : s.withoutRows = t.withoutRows) :
    t = { s with forwardRows := t.forwardRows } := by
  cases s
  cases t
  simp only [withoutRows, mk.injEq] at h
  obtain ⟨rfl, rfl, rfl, rfl, rfl, -, rfl, rfl⟩ := h
  rfl

theorem receiverSequence_eq_of_withoutRows_eq {s t : ShardOnDiskStateMachine}
    (h : s.withoutRows = t.withoutRows) : s.receiverSequence = t.receiverSequence := by
  rw [eq_withRows_of_withoutRows_eq h]

theorem shardID_eq_of_withoutRows_eq {s t : ShardOnDiskStateMachine}
    (h : s.withoutRows = t.withoutRows) : s.shardID = t.shardID := by
  rw [eq_withRows_of_withoutRows_eq h]

end ShardOnDiskStateMachine

open ShardOnDiskStateMachine

def forgetRows (st : ShardOnDiskStateMachine × LocalStore) : ShardOnDiskStateMachine × LocalStore :=
  (st.1.withoutRows, st.2)

theorem checkDedup_withRows (s : ShardOnDiskStateMachine) (rows : List ForwardRow) (key : Bytes)
    (batch : LocalStore) :
    checkDedup { s with forwardRows := rows } key batch =
      (checkDedup s key batch).map fun r => (r.1, { r.2.1 with forwardRows := rows }, r.2.2) := by
  simp only [checkDedup]
  cases DoDedup key s.dedupSequences with
  | error e => rfl
  | ok r =>
    obtain ⟨ignore, dedupMap⟩ := r
    cases ignore <;> rfl

theorem acceptForwardPut_forgetRows (timestamp : UInt64) (fill fill' : Bool) (s : ShardOnDiskStateMachine)
    (rows : List ForwardRow) (batch : LocalStore) (kvPair : Bytes × Bytes) :
    (acceptForwardPut timestamp fill s batch kvPair).map forgetRows =
      (acceptForwardPut timestamp fill' { s with forwardRows := rows } batch kvPair).map forgetRows := by
  simp only [acceptForwardPut, ShardOnDiskStateMachine.isProcessor]
  by_cases hProc : (s.nodeID == s.leaderNodeID) = true
  · simp only [hProc, ↓reduceIte]
    cases ReadUint64FromBufferBE (kvPair.1.drop 24) 0 with
    | none => rfl
    | some r => rfl
  · simp only [hProc, Bool.false_eq_true, ↓reduceIte]
    rfl

theorem handleWriteDeletes_congr (env : SMEnv) {s t : ShardOnDiskStateMachine} (h : s.shardID = t.shardID)
    (batch : LocalStore) (deletes : List Bytes) :
    handleWriteDeletes env s batch deletes = handleWriteDeletes env t batch deletes := by
  simp only [handleWriteDeletes, checkKey, h]

theorem handleWritePuts_forgetRows (env : SMEnv) (timestamp : UInt64) (forward fill fill' : Bool) :
    ∀ (puts : List (Bytes × Bytes)) (s t : ShardOnDiskStateMachine) (batch : LocalStore),
      s.withoutRows = t.withoutRows →
      (handleWritePuts env timestamp forward fill puts s batch).map forgetRows =
        (handleWritePuts env timestamp forward fill' puts t batch).map forgetRows
  | [], s, t, batch, h => by
    show Except.ok (s.withoutRows, batch) = Except.ok (t.withoutRows, batch)
    rw [h]
  | kvPair :: puts, s, t, batch, h => by
    rw [eq_withRows_of_withoutRows_eq h]
    cases forward with
    | false =>
      have hKey : checkKey env { s with forwardRows := t.forwardRows } kvPair.1 = checkKey env s kvPair.1 := rfl
      simp only [handleWritePuts, Bool.false_eq_true, if_false, hKey]
      cases checkKey env s kvPair.1 with
      | error e => rfl
      | ok write =>
        cases write with
        | false => exact handleWritePuts_forgetRows env timestamp false fill fill' puts s _ batch rfl
        | true => exact handleWritePuts_forgetRows env timestamp false fill fill' puts s _ _ rfl
    | true =>
      simp only [handleWritePuts, if_true]
      by_cases hShort : kvPair.1.length < 24
      · rw [if_pos hShort, if_pos hShort]
      · rw [if_neg hShort, if_neg hShort, checkDedup_withRows s t.forwardRows]
        cases checkDedup s (kvPair.1.take 24) batch with
        | error e => rfl
        | ok r =>
          obtain ⟨ignore, s₁, batch₁⟩ := r
          cases ignore with
          | true => exact handleWritePuts_forgetRows env timestamp true fill fill' puts s₁ _ batch₁ rfl
          | false =>
            rcases ExceptRun.map_eq_map
                (acceptForwardPut_forgetRows timestamp fill fill' s₁ t.forwardRows batch₁ kvPair) with
              ⟨e, hAccept, hAccept'⟩ | ⟨⟨s₂, batch₂⟩, ⟨t₂, batch₂'⟩, hAccept, hAccept', hSame⟩
            · simp only [Except.map, hAccept, hAccept']
            · simp only [forgetRows, Prod.mk.injEq] at hSame
              obtain ⟨hRows, rfl⟩ := hSame
              simp only [Except.map, hAccept, hAccept']
              exact handleWritePuts_forgetRows env timestamp true fill fill' puts s₂ t₂ batch₂ hRows

/-- What `handleWrite` does with a forward write of a batch holding `b`, once
it has read the batch. -/
def forwardWriteBody (env : SMEnv) (timestamp : UInt64) (fill : Bool) (b : KVStore.Batch Bytes Bytes)
    (s : ShardOnDiskStateMachine) (batch : LocalStore) : Except SMError (ShardOnDiskStateMachine × LocalStore) := do
  let (s', batch') ← handleWritePuts env timestamp true fill
    (b.puts.map fun p => (AppendUint64ToBufferBE p.1 s.receiverSequence, p.2)) s batch
  if !b.deletes.isEmpty then throw (.panic "deletes not supported for forward write")
  else do
    let batch' ← handleWriteDeletes env s' batch' b.deletes
    pure (s', KVStore.eraseRanges batch' b.deleteRanges)

theorem forwardWriteBody_forgetRows (env : SMEnv) (timestamp : UInt64) (fill fill' : Bool)
    (b : KVStore.Batch Bytes Bytes) (s t : ShardOnDiskStateMachine) (batch : LocalStore)
    (h : s.withoutRows = t.withoutRows) :
    (forwardWriteBody env timestamp fill b s batch).map forgetRows =
      (forwardWriteBody env timestamp fill' b t batch).map forgetRows := by
  unfold forwardWriteBody
  rw [receiverSequence_eq_of_withoutRows_eq h]
  rcases ExceptRun.map_eq_map (handleWritePuts_forgetRows env timestamp true fill fill'
      (b.puts.map fun p => (AppendUint64ToBufferBE p.1 t.receiverSequence, p.2)) s t batch h) with
    ⟨e, hPuts, hPuts'⟩ | ⟨⟨s₁, batch₁⟩, ⟨t₁, batch₁'⟩, hPuts, hPuts', hSame⟩
  · rw [hPuts, hPuts']
  · simp only [forgetRows, Prod.mk.injEq] at hSame
    obtain ⟨hRows, rfl⟩ := hSame
    rw [hPuts, hPuts', ExceptRun.ok_bind, ExceptRun.ok_bind]
    dsimp only
    by_cases hDeletes : (!b.deletes.isEmpty) = true
    · rw [if_pos hDeletes, if_pos hDeletes]
    · rw [if_neg hDeletes, if_neg hDeletes, handleWriteDeletes_congr env (shardID_eq_of_withoutRows_eq hRows)]
      cases handleWriteDeletes env t₁ batch₁ b.deletes with
      | error e => rfl
      | ok batch₂ =>
        show Except.ok (s₁.withoutRows, _) = Except.ok (t₁.withoutRows, _)
        rw [hRows]

/-! ## Reading a forward write batch by batch -/

theorem handleWrite_forward_built (env : SMEnv) (timestamp : UInt64) (s : ShardOnDiskStateMachine)
    (batch : LocalStore) {wb : WriteBatch} {b : KVStore.Batch Bytes Bytes} (h : wb.Built b)
    (pre suf : Bytes) (fill : Bool) :
    handleWrite env s batch pre.length (wb.Serialize pre ++ suf) true fill timestamp =
      (forwardWriteBody env timestamp fill b s batch).map fun r => (r.1, r.2, (wb.Serialize pre).length) := by
  rw [handleWrite_Serialize env timestamp s batch h.holds_counted.1 h.holds_counted.2 pre suf true fill,
    forwardWriteBody]
  simp only [if_true, Bool.true_and]
  cases handleWritePuts env timestamp true fill
      (b.puts.map fun p => (AppendUint64ToBufferBE p.1 s.receiverSequence, p.2)) s batch with
  | error e => rfl
  | ok r =>
    by_cases hDeletes : (!b.deletes.isEmpty) = true
    · simp only [ExceptRun.ok_bind, if_pos hDeletes]
      rfl
    · simp only [ExceptRun.ok_bind, if_neg hDeletes]
      cases handleWriteDeletes env r.1 r.2 b.deletes <;> rfl

theorem handleForwardWrites_built (env : SMEnv) (timestamp : UInt64) (fill : Bool) :
    ∀ (srcs : List (WriteBatch × KVStore.Batch Bytes Bytes)), (∀ src ∈ srcs, src.1.Built src.2) →
      ∀ (pre suf : Bytes) (s : ShardOnDiskStateMachine) (batch : LocalStore),
        handleForwardWrites env timestamp fill (pre ++ (srcs.map fun src => src.1.Serialize []).flatten ++ suf)
            srcs.length s batch pre.length =
          srcs.foldlM (fun st src => forwardWriteBody env timestamp fill src.2 st.1 st.2) (s, batch)
  | [], _, _, _, _, _ => rfl
  | src :: srcs, hBuilt, pre, suf, s, batch => by
    have hBuff : pre ++ ((src :: srcs).map fun src => src.1.Serialize []).flatten ++ suf =
        src.1.Serialize pre ++ ((srcs.map fun src => src.1.Serialize []).flatten ++ suf) := by
      rw [WriteBatch.Serialize_eq src.1 pre]
      simp
    rw [hBuff, List.length_cons, handleForwardWrites,
      handleWrite_forward_built env timestamp s batch (hBuilt src List.mem_cons_self) pre _ fill,
      List.foldlM_cons]
    cases forwardWriteBody env timestamp fill src.2 s batch with
    | error e => rfl
    | ok r =>
      have hRest := handleForwardWrites_built env timestamp fill srcs
        (fun src' h' => hBuilt src' (List.mem_cons_of_mem src h')) (src.1.Serialize pre) suf r.1 r.2
      rw [List.append_assoc] at hRest
      exact hRest

/-! ## The scheduler's queue -/

/-- A forward write on the queue, as `addForwardBatch` queues what
`Dragon.WriteForwardBatch` builds from a built batch. -/
structure QueuedForwardWrite (e : WriteBatchEntry) (wb : WriteBatch) (b : KVStore.Batch Bytes Bytes)
    (fill : Bool) : Prop where
  built : wb.Built b
  writeBatch_eq : e.writeBatch = Dragon.writeForwardBatchProposal wb fill
  channel : ∃ ch, e.completionChannels = [ch]

namespace QueuedForwardWrite

variable {e : WriteBatchEntry} {wb : WriteBatch} {b : KVStore.Batch Bytes Bytes} {fill : Bool}

theorem writeBatch_eq' (h : QueuedForwardWrite e wb b fill) :
    e.writeBatch = [shardStateMachineCommandForwardWrite, if fill then 1 else 0, 1] ++ wb.Serialize [] := by
  rw [h.writeBatch_eq, Dragon.writeForwardBatchProposal, WriteBatch.Serialize_eq]

theorem drop_three (h : QueuedForwardWrite e wb b fill) : e.writeBatch.drop 3 = wb.Serialize [] := by
  rw [h.writeBatch_eq']
  rfl

theorem getNumPuts_eq (h : QueuedForwardWrite e wb b fill) :
    getNumPuts e.writeBatch = some (UInt32.ofNat b.puts.length) := by
  have hCounts : AppendUint32ToBufferLE (AppendUint32ToBufferLE (AppendUint32ToBufferLE
      [shardStateMachineCommandForwardWrite, if fill then 1 else 0, 1] (UInt32.ofNat wb.NumPuts))
      (UInt32.ofNat wb.NumDeletes)) (UInt32.ofNat wb.NumDeleteRanges) <+: e.writeBatch :=
    ⟨wb.Puts ++ wb.Deletes ++ wb.DeleteRanges ++ batchIDBytes wb.BatchID, by
      rw [h.writeBatch_eq, Dragon.writeForwardBatchProposal, WriteBatch.Serialize_eq_groups,
        WriteBatch.serializedGroups]
      simp⟩
  have hPre := (prefix_AppendUint32ToBufferLE _ _).trans ((prefix_AppendUint32ToBufferLE _ _).trans hCounts)
  show (ReadUint32FromBufferLE e.writeBatch
    [shardStateMachineCommandForwardWrite, if fill then 1 else 0, 1].length).map Prod.fst = _
  rw [ ReadUint32FromBufferLE_of_prefix hPre, h.built.holds_counted.2.numPuts_eq]
  rfl

theorem toNat_numPuts (h : QueuedForwardWrite e wb b fill) :
    (UInt32.ofNat b.puts.length).toNat = b.puts.length := by
  rw [UInt32.toNat_ofNat']
  exact Nat.mod_eq_of_lt h.built.holds_counted.2.numPuts_lt

theorem applyEntry_eq (h : QueuedForwardWrite e wb b fill) (env : SMEnv) (timestamp : UInt64)
    (s : ShardOnDiskStateMachine) (batch : LocalStore) (index : UInt64) :
    applyEntry env timestamp (s, batch) ⟨index, e.writeBatch⟩ = forwardWriteBody env timestamp fill b s batch := by
  have hOne := handleForwardWrites_built env timestamp fill [(wb, b)] (by simpa using h.built)
    [shardStateMachineCommandForwardWrite, if fill then 1 else 0, UInt8.ofNat 1] [] s batch
  simp only [List.map_cons, List.map_nil, List.flatten_cons, List.flatten_nil, List.append_nil,
    List.length_cons, List.length_nil, List.foldlM_cons, List.foldlM_nil] at hOne
  rw [h.writeBatch_eq, writeForwardBatchProposal_eq,
    applyEntry_forwardWriteBytes env timestamp s batch index fill [wb] (by simp)]
  simp only [forwardWriteBytes, List.map_cons, List.map_nil, List.flatten_cons, List.flatten_nil,
    List.append_nil, List.length_cons, List.length_nil]
  rw [hOne]
  cases forwardWriteBody env timestamp fill b s batch <;> rfl

end QueuedForwardWrite

/-- The writes a queue is made of: each entry with the batch, the groups and the
fill flag it was built from. -/
def QueuedFrom (forwardWrites : List WriteBatchEntry)
    (srcs : List (WriteBatch × KVStore.Batch Bytes Bytes × Bool)) : Prop :=
  List.Forall₂ (fun e src => QueuedForwardWrite e src.1 src.2.1 src.2.2) forwardWrites srcs

theorem combineForwardWrites_queued (maxForwardWriteBatchSize : Int) :
    ∀ {q : List WriteBatchEntry} {srcs : List (WriteBatch × KVStore.Batch Bytes Bytes × Bool)},
      QueuedFrom q srcs → q ≠ [] →
      ∀ (combined : Bytes) (entries : Int) (next : Nat) (channels : List Nat), next < 255 →
        ∃ j, 1 ≤ j ∧ j ≤ q.length ∧ next + j ≤ 255 ∧
          combineForwardWrites maxForwardWriteBatchSize q combined entries next channels =
            some (combined ++ ((srcs.take j).map fun src => src.1.Serialize []).flatten,
              entries + sumNumPuts (q.take j), next + j,
              channels ++ (q.take j).flatMap WriteBatchEntry.completionChannels)
  | [], [], .nil, hne, _, _, _, _, _ => absurd rfl hne
  | e :: q, src :: srcs, .cons hHead hRest, _, combined, entries, next, channels, hNext => by
    obtain ⟨ch, hCh⟩ := hHead.channel
    have hStep : combineForwardWrites maxForwardWriteBatchSize (e :: q) combined entries next channels =
        if entries + (src.2.1.puts.length : Int) ≥ maxForwardWriteBatchSize ∨ next + 1 = 255 then
          some (combined ++ src.1.Serialize [], entries + src.2.1.puts.length, next + 1, channels ++ [ch])
        else combineForwardWrites maxForwardWriteBatchSize q (combined ++ src.1.Serialize [])
          (entries + src.2.1.puts.length) (next + 1) (channels ++ [ch]) := by
      simp only [combineForwardWrites, hHead.getNumPuts_eq, hHead.drop_three, hCh, Option.bind_eq_bind,
        Option.bind_some, List.getElem?_cons_zero, hHead.toNat_numPuts]
    have hPuts : sumNumPuts [e] = src.2.1.puts.length := by
      simp [sumNumPuts, hHead.getNumPuts_eq, hHead.toNat_numPuts]
    by_cases hStop : entries + (src.2.1.puts.length : Int) ≥ maxForwardWriteBatchSize ∨ next + 1 = 255
    · refine ⟨1, le_rfl, by simp, by omega, ?_⟩
      rw [hStep, if_pos hStop]
      simp [hPuts, hCh]
    · rw [hStep, if_neg hStop]
      cases q with
      | nil =>
        cases hRest
        refine ⟨1, le_rfl, le_rfl, by omega, ?_⟩
        simp [combineForwardWrites, hPuts, hCh]
      | cons e' q =>
        obtain ⟨j, hj1, hjLen, hjNext, hLoop⟩ := combineForwardWrites_queued maxForwardWriteBatchSize hRest
          (List.cons_ne_nil e' q) (combined ++ src.1.Serialize []) (entries + src.2.1.puts.length) (next + 1)
          (channels ++ [ch]) (by omega)
        refine ⟨j + 1, by omega, by simpa using hjLen, by omega, ?_⟩
        rw [hLoop]
        simp [sumNumPuts_cons, hHead.getNumPuts_eq, hHead.toNat_numPuts, hCh, add_assoc]
        omega

theorem QueuedFrom.built :
    ∀ {q : List WriteBatchEntry} {srcs : List (WriteBatch × KVStore.Batch Bytes Bytes × Bool)},
      QueuedFrom q srcs → ∀ src ∈ srcs, src.1.Built src.2.1
  | [], [], .nil => by simp
  | _ :: _, _ :: _, .cons hHead hRest => by
    rintro src (_ | ⟨_, hMem⟩)
    · exact hHead.built
    · exact QueuedFrom.built hRest src hMem

theorem getForwardWriteBatch_queued {sched : ShardScheduler} {src : WriteBatch × KVStore.Batch Bytes Bytes × Bool}
    {srcs : List (WriteBatch × KVStore.Batch Bytes Bytes × Bool)} (hQ : QueuedFrom sched.forwardWrites (src :: srcs)) :
    ∃ k entry, 1 ≤ k ∧ k ≤ srcs.length + 1 ∧ k ≤ 255 ∧
      sched.getForwardWriteBatch = some (entry,
        { sched with
            forwardWrites := sched.forwardWrites.drop k,
            queuedWriteRows := sched.queuedWriteRows - sumNumPuts (sched.forwardWrites.take k) }) ∧
      entry.writeBatch = forwardWriteBytes src.2.2 (((src :: srcs).take k).map Prod.fst) ∧
      entry.completionChannels = (sched.forwardWrites.take k).flatMap WriteBatchEntry.completionChannels := by
  cases hFW : sched.forwardWrites with
  | nil =>
    rw [hFW] at hQ
    cases hQ
  | cons e q =>
    rw [hFW] at hQ
    obtain ⟨hHead, hRest⟩ := List.forall₂_cons.mp hQ
    obtain ⟨ch, hCh⟩ := hHead.channel
    have hPuts : sumNumPuts [e] = src.2.1.puts.length := by
      simp [sumNumPuts, hHead.getNumPuts_eq, hHead.toNat_numPuts]
    cases q with
    | nil =>
      cases hRest
      refine ⟨1, e, le_rfl, le_rfl, by omega, ?_, ?_, by simp [hCh]⟩
      · simp [ShardScheduler.getForwardWriteBatch, hFW, hHead.getNumPuts_eq, hPuts, hHead.toNat_numPuts]
      · rw [hHead.writeBatch_eq, writeForwardBatchProposal_eq]
        rfl
    | cons e' q =>
      obtain ⟨j, hj1, hjLen, hjMax, hLoop⟩ :=
        combineForwardWrites_queued sched.maxForwardWriteBatchSize hQ (List.cons_ne_nil e (e' :: q)) [] 0 0 []
          (by omega)
      have hjSrcs : j ≤ (src :: srcs).length := hjLen.trans (List.Forall₂.length_eq hQ).le
      have hHeader : e.writeBatch[0]? = some shardStateMachineCommandForwardWrite ∧
          e.writeBatch[1]? = some (if src.2.2 then 1 else 0) := by
        rw [hHead.writeBatch_eq']
        exact ⟨rfl, rfl⟩
      refine ⟨j, ⟨[shardStateMachineCommandForwardWrite, if src.2.2 then 1 else 0, UInt8.ofNat j] ++
          (((src :: srcs).take j).map fun src => src.1.Serialize []).flatten,
          ((e :: e' :: q).take j).flatMap WriteBatchEntry.completionChannels⟩,
        hj1, by simpa using hjSrcs, by omega, ?_, ?_, rfl⟩
      · simp only [ShardScheduler.getForwardWriteBatch, hFW, List.length_cons]
        rw [if_pos (by omega)]
        simp only [List.getElem?_cons_zero, Option.bind_eq_bind, Option.bind_some, hLoop, hHeader.1,
          hHeader.2, zero_add, List.nil_append]
      · simp only [forwardWriteBytes, List.map_map, List.length_map, List.length_take,
          Nat.min_eq_left hjSrcs]
        rfl

/-! ## One update of the combined write, one of the writes it combines -/

theorem foldlM_applyEntry_queued (env : SMEnv) (timestamp : UInt64) :
    ∀ {q : List WriteBatchEntry} {srcs : List (WriteBatch × KVStore.Batch Bytes Bytes × Bool)},
      QueuedFrom q srcs → ∀ (singles : List Entry), singles.map Entry.Cmd = q.map WriteBatchEntry.writeBatch →
      ∀ st, singles.foldlM (applyEntry env timestamp) st =
        srcs.foldlM (fun st src => forwardWriteBody env timestamp src.2.2 src.2.1 st.1 st.2) st
  | [], [], .nil, [], _, _ => rfl
  | [], [], .nil, _ :: _, hCmds, _ => by simp at hCmds
  | _ :: _, _ :: _, .cons _ _, [], hCmds, _ => by simp at hCmds
  | e :: q, src :: srcs, .cons hHead hRest, single :: singles, hCmds, (s, batch) => by
    simp only [List.map_cons, List.cons.injEq] at hCmds
    obtain ⟨hCmd, hCmds⟩ := hCmds
    obtain ⟨index, cmd⟩ := single
    simp only at hCmd
    subst hCmd
    rw [List.foldlM_cons, List.foldlM_cons, hHead.applyEntry_eq]
    congr 1
    funext st
    exact foldlM_applyEntry_queued env timestamp hRest singles hCmds st

theorem applyEntry_combined (env : SMEnv) (timestamp : UInt64) (s : ShardOnDiskStateMachine)
    (batch : LocalStore) (index : UInt64) (fill : Bool) {q : List WriteBatchEntry}
    {srcs : List (WriteBatch × KVStore.Batch Bytes Bytes × Bool)} (hQ : QueuedFrom q srcs)
    (hLen : srcs.length < 256) :
    applyEntry env timestamp (s, batch) ⟨index, forwardWriteBytes fill (srcs.map Prod.fst)⟩ =
      srcs.foldlM (fun st src => forwardWriteBody env timestamp fill src.2.1 st.1 st.2) (s, batch) := by
  have hBuilt : ∀ p ∈ srcs.map (fun src => (src.1, src.2.1)), p.1.Built p.2 := by
    intro p hp
    obtain ⟨src, hSrc, rfl⟩ := List.mem_map.mp hp
    exact QueuedFrom.built hQ src hSrc
  have hRead := handleForwardWrites_built env timestamp fill (srcs.map fun src => (src.1, src.2.1)) hBuilt
    [shardStateMachineCommandForwardWrite, if fill then 1 else 0, UInt8.ofNat srcs.length] [] s batch
  simp only [List.map_map, Function.comp_def, List.length_map, List.append_nil, List.foldlM_map] at hRead
  rw [applyEntry_forwardWriteBytes env timestamp s batch index fill _ (by simpa using hLen)]
  simp only [forwardWriteBytes, List.map_map, Function.comp_def, List.length_map]
  exact hRead

/-- A run of `Update` with the rows for the listener, and those it handed
over, forgotten. -/
def forgetDelivered (r : ShardOnDiskStateMachine × LocalStore × List ForwardRow) :
    ShardOnDiskStateMachine × LocalStore :=
  (r.1.withoutRows, r.2.1)

def commitUpdate (lastLogIndex : UInt64) (st : ShardOnDiskStateMachine × LocalStore) :
    ShardOnDiskStateMachine × LocalStore :=
  (st.1, writeSequences (KVStore.put st.2 (sequencesKey st.1.shardID) []) lastLogIndex st.1.receiverSequence
    st.1.shardID)

theorem Update_forgetDelivered (env : SMEnv) (timestamp : UInt64) (s : ShardOnDiskStateMachine)
    (pebble : LocalStore) {entries : List Entry} {last : Entry} (hLast : entries.getLast? = some last) :
    (Update env timestamp s pebble entries).map forgetDelivered =
      ((entries.foldlM (applyEntry env timestamp) (s, pebble)).map forgetRows).map (commitUpdate last.Index) := by
  unfold Update
  cases entries.foldlM (applyEntry env timestamp) (s, pebble) with
  | error e => rfl
  | ok st =>
    obtain ⟨s', batch⟩ := st
    simp only [ExceptRun.ok_bind, hLast, orPanic_some]
    by_cases hDeliver : (s'.shardListener && !s'.forwardRows.isEmpty) = true
    · rw [if_pos hDeliver]
      rfl
    · rw [if_neg hDeliver]
      rfl

/-- The write-batch wire format and the scheduler's coalescing. A built batch
deserializes to the groups it was built with, in order, with its id and the
offset past it. On a queue of built forward writes, `getForwardWriteBatch`
proposes the first `k` of them as one write, with `k` in its count byte. It
leaves the rest queued and counted, and returns their channels. One `Update` of
the combined write agrees with one `Update` of the `k` writes, up to the rows
handed to the listener. -/
theorem Serialize_deserializeWriteBatch_getForwardWriteBatch :
    (∀ (s : ShardOnDiskStateMachine) (wb : WriteBatch) (b : KVStore.Batch Bytes Bytes), wb.Built b →
      deserializeWriteBatch s (wb.Serialize []) 0 false =
        .ok ⟨b.puts, b.deletes, b.deleteRanges, wb.BatchID, (wb.Serialize []).length⟩) ∧
    ∀ (sched : ShardScheduler) (src : WriteBatch × KVStore.Batch Bytes Bytes × Bool)
      (srcs : List (WriteBatch × KVStore.Batch Bytes Bytes × Bool)), QueuedFrom sched.forwardWrites (src :: srcs) →
      ∃ k entry sched', sched.getForwardWriteBatch = some (entry, sched') ∧ 1 ≤ k ∧ k ≤ 255 ∧
        k ≤ sched.forwardWrites.length ∧ entry.writeBatch[2]? = some (UInt8.ofNat k) ∧
        sched'.forwardWrites = sched.forwardWrites.drop k ∧
        (sched.queuedWriteRows = sumNumPuts sched.forwardWrites →
          sched'.queuedWriteRows = sumNumPuts sched'.forwardWrites) ∧
        entry.completionChannels = (sched.forwardWrites.take k).flatMap WriteBatchEntry.completionChannels ∧
        (∀ o : LoopOutcome, sched.chooseWork = .forwardBatch → ∃ sched'' turn,
          sched.innerLoop false o = some (sched'', turn) ∧
          ((sched.forwardWrites.take k).flatMap WriteBatchEntry.completionChannels).map
            (fun ch => (ch, o.executed)) <+: turn.signalled) ∧
        ∀ (env : SMEnv) (timestamp : UInt64) (s : ShardOnDiskStateMachine) (pebble : LocalStore)
          (index : UInt64) (singles : List Entry),
          singles.map Entry.Cmd = (sched.forwardWrites.take k).map WriteBatchEntry.writeBatch →
          singles.getLast?.map Entry.Index = some index →
          (Update env timestamp s pebble [⟨index, entry.writeBatch⟩]).map forgetDelivered =
            (Update env timestamp s pebble singles).map forgetDelivered := by
  refine ⟨fun s wb b h => deserializeWriteBatch_Serialize_built s h, ?_⟩
  intro sched src srcs hQ
  obtain ⟨k, entry, hk1, hkLen, hk255, hGet, hBytes, hChannels⟩ := getForwardWriteBatch_queued hQ
  have hLenQ : sched.forwardWrites.length = srcs.length + 1 := by simpa using List.Forall₂.length_eq hQ
  refine ⟨k, entry, _, hGet, hk1, hk255, by omega, ?_, rfl, ?_, hChannels, ?_, ?_⟩
  · rw [hBytes, forwardWriteBytes]
    simp [List.length_take, Nat.min_eq_left hkLen]
  · intro hCount
    show sched.queuedWriteRows - sumNumPuts (sched.forwardWrites.take k) = sumNumPuts (sched.forwardWrites.drop k)
    rw [hCount, ← sumNumPuts_take_add_drop sched.forwardWrites k, add_sub_cancel_left]
  · intro o hChoice
    obtain ⟨sched'', turn, hLoop, -, hSignalled⟩ := ShardScheduler.innerLoop_forwardBatch hChoice hGet o
    rw [← hChannels]
    exact ⟨sched'', turn, hLoop, hSignalled⟩
  · intro env timestamp s pebble index singles hCmds hLast
    obtain ⟨last, hLast', rfl⟩ := Option.map_eq_some_iff.mp hLast
    rw [Update_forgetDelivered env timestamp s pebble (rfl : [⟨last.Index, entry.writeBatch⟩].getLast? = _),
      Update_forgetDelivered env timestamp s pebble hLast']
    congr 1
    have hTake : QueuedFrom (sched.forwardWrites.take k) ((src :: srcs).take k) := List.forall₂_take k hQ
    simp only [List.foldlM_cons, List.foldlM_nil, bind_pure]
    rw [hBytes,
      applyEntry_combined env timestamp s pebble last.Index src.2.2 hTake (by simp; omega),
      foldlM_applyEntry_queued env timestamp hTake singles hCmds]
    -- batch by batch, the combined write's fill flag against each write's own
    refine ExceptRun.foldlM_map_congr forgetRows forgetRows _ _ _ ?_ (s, pebble) (s, pebble) rfl
    intro src' _ st st' hSt
    simp only [forgetRows, Prod.mk.injEq] at hSt
    obtain ⟨hRows, hBatch⟩ := hSt
    rw [hBatch]
    exact forwardWriteBody_forgetRows env timestamp _ _ src'.2.1 st.1 st'.1 st'.2 hRows

theorem deserializeWriteBatch_Serialize_wrapped_key (s : ShardOnDiskStateMachine) (shardID : UInt64) :
    deserializeWriteBatch s (((NewWriteBatch shardID).AddPut (List.replicate (2 ^ 32) 0) []).Serialize []) 0
      false = .ok ⟨[([], [])], [], [], none, 21⟩ := by
  have hBuff : ((NewWriteBatch shardID).AddPut (List.replicate (2 ^ 32) 0) []).Serialize [] =
      AppendUint32ToBufferLE (AppendUint32ToBufferLE (AppendUint32ToBufferLE [] (UInt32.ofNat 1))
        (UInt32.ofNat 0)) (UInt32.ofNat 0) ++ (AppendUint32ToBufferLE (AppendUint32ToBufferLE []
        (UInt32.ofNat (List.replicate (2 ^ 32) (0 : UInt8)).length) ++ List.replicate (2 ^ 32) 0)
        (UInt32.ofNat ([] : Bytes).length) ++ []) ++ [] ++ [] ++ [0] := rfl
  have hWrap : UInt32.ofNat (List.replicate (2 ^ 32) (0 : UInt8)).length = 0 := by
    rw [List.length_replicate]
    decide
  have hSplit : List.replicate (2 ^ 32) (0 : UInt8) = List.replicate (5 + (2 ^ 32 - 5)) 0 := by
    congr 1
  rw [hBuff, hWrap, hSplit, List.replicate_add]
  clear hBuff hWrap hSplit
  generalize List.replicate (2 ^ 32 - 5) (0 : UInt8) = tail
  obtain ⟨counts, hCounts⟩ : ∃ counts : Bytes, counts = AppendUint32ToBufferLE (AppendUint32ToBufferLE
      (AppendUint32ToBufferLE [] (UInt32.ofNat 1)) (UInt32.ofNat 0)) (UInt32.ofNat 0) := ⟨_, rfl⟩
  have hShape : AppendUint32ToBufferLE (AppendUint32ToBufferLE (AppendUint32ToBufferLE [] (UInt32.ofNat 1))
        (UInt32.ofNat 0)) (UInt32.ofNat 0) ++ (AppendUint32ToBufferLE (AppendUint32ToBufferLE [] 0 ++
        (List.replicate 5 0 ++ tail)) (UInt32.ofNat ([] : Bytes).length) ++ []) ++ [] ++ [] ++ [0] =
      counts ++ encodePairs [([], [])] ++ (0 :: (tail ++ [0, 0, 0, 0, 0])) := by
    subst hCounts
    simp [AppendUint32ToBufferLE, encodePairs, lengthPrefixed, appendBytesWithLength, List.replicate]
  have hLen : (counts ++ encodePairs [([], [])]).length = 20 := by
    subst hCounts
    simp [AppendUint32ToBufferLE, lengthPrefixed, appendBytesWithLength]
  rw [hShape]
  generalize hB : counts ++ encodePairs [([], [])] ++ (0 :: (tail ++ [0, 0, 0, 0, 0])) = buff
  have hPre : counts ++ encodePairs [([], [])] <+: buff := hB ▸ List.prefix_append _ _
  have hFlag : buff[20]? = some 0 := by
    rw [← hB, List.getElem?_append_right hLen.le, hLen]
    rfl
  rw [hCounts] at hPre
  have hPre₁ : AppendUint32ToBufferLE [] (UInt32.ofNat 1) <+: buff :=
    (prefix_AppendUint32ToBufferLE _ _).trans ((prefix_AppendUint32ToBufferLE _ _).trans
      ((List.prefix_append _ _).trans hPre))
  have hPre₂ : AppendUint32ToBufferLE (AppendUint32ToBufferLE [] (UInt32.ofNat 1)) (UInt32.ofNat 0) <+: buff :=
    (prefix_AppendUint32ToBufferLE _ _).trans ((List.prefix_append _ _).trans hPre)
  have hPre₃ : AppendUint32ToBufferLE (AppendUint32ToBufferLE (AppendUint32ToBufferLE [] (UInt32.ofNat 1))
      (UInt32.ofNat 0)) (UInt32.ofNat 0) <+: buff := (List.prefix_append _ _).trans hPre
  have hRead₁ := ReadUint32FromBufferLE_of_prefix hPre₁
  have hRead₂ := ReadUint32FromBufferLE_of_prefix hPre₂
  have hRead₃ := ReadUint32FromBufferLE_of_prefix hPre₃
  rw [← hCounts] at hPre
  have hPairs := readPairs_encodePairs (by simp [Short]) hPre
  rw [hLen] at hPairs
  simp only [AppendUint32ToBufferLE, List.length_nil, List.length_append, List.length_cons] at hRead₁ hRead₂ hRead₃
  have hCounts₁ : (UInt32.ofNat 1).toNat = 1 := toNat_ofNat_count (by decide)
  have hCounts₀ : (UInt32.ofNat 0).toNat = 0 := toNat_ofNat_count (by decide)
  have hLen₁₂ : counts.length = 12 := by
    subst hCounts
    simp [AppendUint32ToBufferLE]
  rw [hLen₁₂] at hPairs
  simp only [deserializeWriteBatch, hRead₁, hRead₂, hRead₃, orPanic_some, ExceptRun.ok_bind, hCounts₁,
    hCounts₀]
  have hPairs₁ : readPairs buff 1 12 = .ok ([([], [])], 20) := hPairs
  simp only [Nat.zero_add, Nat.reduceAdd]
  rw [hPairs₁]
  simp only [ExceptRun.ok_bind, readKeys, readPairs, hFlag, orPanic_some]
  rfl

theorem deserializeWriteBatch_Serialize_long_key :
    deserializeWriteBatch (newShardODStateMachine 1 1000)
      (((NewWriteBatch 1000).AddPut (List.replicate (2 ^ 32) 0) []).Serialize []) 0 false =
        .ok ⟨[([], [])], [], [], none, 21⟩ :=
  deserializeWriteBatch_Serialize_wrapped_key _ _

end PranaDB
