import PranaDB.Cluster.Proposals
import PranaDB.Lib.Dedup

/-! # Forwarded rows: deduplication and receiver sequences

A row forwarded to a shard (from a Kafka source, or a partial aggregation sent
by another shard) carries a dedup key, an originator id and a sequence, in
front of the remote consumer id (`push/util/util.go`). The shard state machine
drops a row whose sequence is not above the last one accepted from its
originator (`cluster.DoDedup`), records the new last sequence in the forward
dedup table, and writes the row into its receiver table under the next receiver
sequence.

This module proves that on the rows the producers encode, the state machine
does what `Dedup.accepted` says: a forward write entry writes, in order, a dedup
row and a receiver row for exactly the rows the reference accepts, numbered on
from the receiver sequence (`applyEntry_forwardWrite_writes`), provided the
in-memory dedup map is the reference's maximum map (`Dedup.IsMaxMap`).
-/

namespace PranaDB
set_option autoImplicit false

/-! ## The keys of forwarded rows -/

/-- The key of a forwarded row: the two words of the originator id, the
sequence and the remote consumer id, big-endian. -/
def encodeForwardKey (originatorHi originatorLo sequence remoteConsumerID : UInt64) : Bytes :=
  AppendUint64ToBufferBE (AppendUint64ToBufferBE (AppendUint64ToBufferBE
    (AppendUint64ToBufferBE [] originatorHi) originatorLo) sequence) remoteConsumerID

/-- `util.EncodeKeyForForwardIngest`: the source and the Kafka partition are the
originator, the offset is the sequence. -/
def EncodeKeyForForwardIngest (sourceID partitionID offset remoteConsumerID : UInt64) : Bytes :=
  encodeForwardKey sourceID partitionID offset remoteConsumerID

/-- `util.EncodeKeyForForwardAggregation`: the aggregate table and the sending
shard are the originator. -/
def EncodeKeyForForwardAggregation (originatorTableID sendingShardID sequence remoteConsumerID : UInt64) :
    Bytes :=
  encodeForwardKey originatorTableID sendingShardID sequence remoteConsumerID

/-- The fields of a forwarded row's key. -/
structure ForwardKey where
  originator : UInt64 × UInt64
  sequence : UInt64
  remoteConsumerID : UInt64
deriving DecidableEq, Repr

def ForwardKey.encode (fk : ForwardKey) : Bytes :=
  encodeForwardKey fk.originator.1 fk.originator.2 fk.sequence fk.remoteConsumerID

def oidBytes (o : UInt64 × UInt64) : Bytes :=
  AppendUint64ToBufferBE (AppendUint64ToBufferBE [] o.1) o.2

def rowID (r : ForwardKey × Bytes) : (UInt64 × UInt64) × Nat := (r.1.originator, r.1.sequence.toNat)

/-- The bytes after the dedup key in a forwarded put once `deserializeWriteBatch`
has appended the receiver sequence `rs0` of the moment it read the batch. -/
def remoteConsumerBytes (fk : ForwardKey) (rs0 : UInt64) : Bytes :=
  AppendUint64ToBufferBE (AppendUint64ToBufferBE [] fk.remoteConsumerID) rs0

@[simp] theorem length_oidBytes (o : UInt64 × UInt64) : (oidBytes o).length = 16 := by
  simp [oidBytes]

theorem oidBytes_inj {a b : UInt64 × UInt64} (h : oidBytes a = oidBytes b) : a = b := by
  have hSplit : ∀ o : UInt64 × UInt64,
      oidBytes o = AppendUint64ToBufferBE [] o.1 ++ AppendUint64ToBufferBE [] o.2 := by
    intro o
    simp [oidBytes, AppendUint64ToBufferBE]
  have hFirst : ∀ o : UInt64 × UInt64, ReadUint64FromBufferBE (oidBytes o) 0 = some (o.1, 8) := by
    intro o
    rw [hSplit]
    exact ReadUint64FromBufferBE_append [] _ o.1
  have hSecond : ∀ o : UInt64 × UInt64, ReadUint64FromBufferBE (oidBytes o) 8 = some (o.2, 16) := by
    intro o
    have := ReadUint64FromBufferBE_append (AppendUint64ToBufferBE [] o.1) [] o.2
    simpa [oidBytes] using this
  have h1 := (hFirst a).symm.trans (h ▸ hFirst b)
  have h2 := (hSecond a).symm.trans (h ▸ hSecond b)
  simp only [Option.some.injEq, Prod.mk.injEq, and_true] at h1 h2
  exact Prod.ext h1 h2

theorem forwardPut_parts (fk : ForwardKey) (rs0 : UInt64) :
    (AppendUint64ToBufferBE fk.encode rs0).take 24 = AppendUint64ToBufferBE (oidBytes fk.originator) fk.sequence ∧
      (AppendUint64ToBufferBE fk.encode rs0).drop 24 = remoteConsumerBytes fk rs0 ∧
      (AppendUint64ToBufferBE fk.encode rs0).length = 40 := by
  simp [ForwardKey.encode, encodeForwardKey, oidBytes, remoteConsumerBytes, AppendUint64ToBufferBE]

theorem remoteConsumerBytes_read (fk : ForwardKey) (rs0 : UInt64) :
    ReadUint64FromBufferBE (remoteConsumerBytes fk rs0) 0 = some (fk.remoteConsumerID, 8) := by
  have := ReadUint64FromBufferBE_append [] (AppendUint64ToBufferBE [] rs0) fk.remoteConsumerID
  simpa [remoteConsumerBytes, AppendUint64ToBufferBE] using this

/-! ## `DoDedup` refines the reference -/

def absDedup (m : Bytes → Option UInt64) : UInt64 × UInt64 → Option Nat :=
  fun o => (m (oidBytes o)).map UInt64.toNat

theorem absDedup_put (m : Bytes → Option UInt64) (o : UInt64 × UInt64) (q : UInt64) :
    absDedup (KVStore.put m (oidBytes o) q) = Function.update (absDedup m) o (some q.toNat) := by
  funext o'
  by_cases h : o' = o
  · subst h
    simp [absDedup]
  · rw [Function.update_of_ne h, absDedup, absDedup,
      KVStore.put_of_ne _ _ fun hEq => h (oidBytes_inj hEq)]

theorem DoDedup_eq_step (m : Bytes → Option UInt64) (o : UInt64 × UInt64) (q : UInt64) :
    DoDedup (AppendUint64ToBufferBE (oidBytes o) q) m =
      .ok (if (Dedup.step (absDedup m) o q.toNat).1 then (true, m)
        else (false, KVStore.put m (oidBytes o) q)) := by
  have hOid : (AppendUint64ToBufferBE (oidBytes o) q).take 16 = oidBytes o := by
    simp [AppendUint64ToBufferBE, List.take_left']
  have hSeq : ReadUint64FromBufferBE (AppendUint64ToBufferBE (oidBytes o) q) 16 = some (q, 24) := by
    have := ReadUint64FromBufferBE_append (oidBytes o) [] q
    simpa using this
  simp only [DoDedup, hOid, hSeq, orPanic_some, ExceptRun.ok_bind, Dedup.step, absDedup]
  obtain hm | ⟨prev, hm⟩ : m (oidBytes o) = none ∨ ∃ prev, m (oidBytes o) = some prev := by
    cases m (oidBytes o) <;> simp
  · simp only [hm, Option.map_none]
    rfl
  · simp only [hm, Option.map_some]
    by_cases hGe : prev ≥ q
    · have hGe' : prev.toNat ≥ q.toNat := UInt64.le_iff_toNat_le.mp hGe
      simp [hGe, hGe', pure, Except.pure]
    · have hGe' : ¬ prev.toNat ≥ q.toNat := fun h' => hGe (UInt64.le_iff_toNat_le.mpr h')
      simp [hGe, hGe', pure, Except.pure]

theorem checkDedup_dedupKey (s : ShardOnDiskStateMachine) (batch : LocalStore)
    {acc : List ((UInt64 × UInt64) × Nat)} (h : Dedup.IsMaxMap (absDedup s.dedupSequences) acc)
    (o : UInt64 × UInt64) (q : UInt64) :
    checkDedup s (AppendUint64ToBufferBE (oidBytes o) q) batch =
      .ok (if Dedup.accept acc o q.toNat then
          (false, { s with dedupSequences := KVStore.put s.dedupSequences (oidBytes o) q },
            KVStore.put batch (dedupRowKey s.shardID (oidBytes o)) (AppendUint64ToBufferBE [] q))
        else (true, s, batch)) := by
  have hIgnore := (Dedup.step_spec h o q.toNat).1
  have hKey : AppendUint64ToBufferBE (oidBytes o) q = oidBytes o ++ AppendUint64ToBufferBE [] q := by
    simp [AppendUint64ToBufferBE]
  simp only [checkDedup, DoDedup_eq_step, ExceptRun.ok_bind, hIgnore]
  cases hAcc : Dedup.accept acc o q.toNat with
  | true =>
    simp only [Bool.not_true, Bool.false_eq_true, if_false, if_true, hKey]
    rw [List.take_left' (length_oidBytes o), List.drop_left' (length_oidBytes o)]
    rfl
  | false => rfl

theorem acceptForwardPut_forwardKey (timestamp : UInt64) (fill : Bool) (s : ShardOnDiskStateMachine)
    (batch : LocalStore) (fk : ForwardKey) (rs0 : UInt64) (v : Bytes) :
    acceptForwardPut timestamp fill s batch (AppendUint64ToBufferBE fk.encode rs0, v) =
      .ok ({ s with
              receiverSequence := s.receiverSequence + 1,
              forwardRows := s.forwardRows ++ (if s.isProcessor then
                [⟨s.receiverSequence + 1, fk.remoteConsumerID,
                  receiverKey s.shardID (s.receiverSequence + 1) (remoteConsumerBytes fk rs0), v,
                  timestamp, fill⟩] else []) },
        KVStore.put batch (receiverKey s.shardID (s.receiverSequence + 1) (remoteConsumerBytes fk rs0)) v) := by
  obtain ⟨-, hRest, -⟩ := forwardPut_parts fk rs0
  have hProc : ({ s with receiverSequence := s.receiverSequence + 1 } : ShardOnDiskStateMachine).isProcessor =
      s.isProcessor := rfl
  simp only [acceptForwardPut, hRest, hProc]
  cases s.isProcessor with
  | true => simp [remoteConsumerBytes_read]
  | false => simp

/-! ## The writes of a forward write, by the reference -/

def dedupEntry (r : ForwardKey × Bytes) : Bytes × UInt64 := (oidBytes r.1.originator, r.1.sequence)

/-- The writes of the accepted rows of one forwarded batch: for each, the dedup
row of its originator and its row in the receiver table, numbered on from
`receiverSequence`. -/
def forwardBatchWrites (shardID rs0 : UInt64) : UInt64 → List (ForwardKey × Bytes) → List (Bytes × Bytes)
  | _, [] => []
  | receiverSequence, r :: rows =>
    (dedupRowKey shardID (oidBytes r.1.originator), AppendUint64ToBufferBE [] r.1.sequence) ::
      (receiverKey shardID (receiverSequence + 1) (remoteConsumerBytes r.1 rs0), r.2) ::
        forwardBatchWrites shardID rs0 (receiverSequence + 1) rows

def forwardBatchRows (shardID rs0 timestamp : UInt64) (fill : Bool) :
    UInt64 → List (ForwardKey × Bytes) → List ForwardRow
  | _, [] => []
  | receiverSequence, r :: rows =>
    ⟨receiverSequence + 1, r.1.remoteConsumerID,
      receiverKey shardID (receiverSequence + 1) (remoteConsumerBytes r.1 rs0), r.2, timestamp, fill⟩ ::
      forwardBatchRows shardID rs0 timestamp fill (receiverSequence + 1) rows

/-- The writes of a forward write of several batches: each batch's accepted rows
after the history and the batches before it. -/
def forwardWrites (shardID : UInt64) :
    List ((UInt64 × UInt64) × Nat) → UInt64 → List (List (ForwardKey × Bytes)) → List (Bytes × Bytes)
  | _, _, [] => []
  | acc, receiverSequence, rows :: rowss =>
    forwardBatchWrites shardID receiverSequence receiverSequence (Dedup.accepted rowID acc rows) ++
      forwardWrites shardID (acc ++ (Dedup.accepted rowID acc rows).map rowID)
        (receiverSequence + UInt64.ofNat (Dedup.accepted rowID acc rows).length) rowss

def forwardBatch (rows : List (ForwardKey × Bytes)) : KVStore.Batch Bytes Bytes :=
  ⟨rows.map fun r => (r.1.encode, r.2), [], []⟩

theorem isMaxMap_putAll_accepted :
    ∀ (rows : List (ForwardKey × Bytes)) (m : Bytes → Option UInt64) (acc : List ((UInt64 × UInt64) × Nat)),
      Dedup.IsMaxMap (absDedup m) acc →
      Dedup.IsMaxMap (absDedup (KVStore.putAll m ((Dedup.accepted rowID acc rows).map dedupEntry)))
        (acc ++ (Dedup.accepted rowID acc rows).map rowID)
  | [], _, _, h => by simpa using h
  | r :: rows, m, acc, h => by
    by_cases hr : Dedup.accept acc (rowID r).1 (rowID r).2
    · have hNext : Dedup.IsMaxMap (absDedup (KVStore.put m (oidBytes r.1.originator) r.1.sequence))
          (acc ++ [rowID r]) := by
        rw [absDedup_put]
        exact Dedup.isMaxMap_update h ((Dedup.accept_iff _ _ _).mp hr)
      have := isMaxMap_putAll_accepted rows _ _ hNext
      rw [Dedup.accepted_cons, if_pos hr]
      simpa [dedupEntry] using this
    · rw [Dedup.accepted_cons, if_neg hr]
      exact isMaxMap_putAll_accepted rows m acc h

theorem handleWritePuts_forward (env : SMEnv) (timestamp : UInt64) (fill : Bool) (rs0 : UInt64) :
    ∀ (rows : List (ForwardKey × Bytes)) (s : ShardOnDiskStateMachine) (batch : LocalStore)
      (acc : List ((UInt64 × UInt64) × Nat)), Dedup.IsMaxMap (absDedup s.dedupSequences) acc →
      handleWritePuts env timestamp true fill
          (rows.map fun r => (AppendUint64ToBufferBE r.1.encode rs0, r.2)) s batch =
        .ok ({ s with
            dedupSequences :=
              KVStore.putAll s.dedupSequences ((Dedup.accepted rowID acc rows).map dedupEntry),
            receiverSequence :=
              s.receiverSequence + UInt64.ofNat (Dedup.accepted rowID acc rows).length,
            forwardRows := s.forwardRows ++ (if s.isProcessor then
              forwardBatchRows s.shardID rs0 timestamp fill s.receiverSequence
                (Dedup.accepted rowID acc rows) else []) },
          KVStore.putAll batch
            (forwardBatchWrites s.shardID rs0 s.receiverSequence (Dedup.accepted rowID acc rows)))
  | [], s, batch, _, _ => by
    cases hProc : s.isProcessor <;> simp [handleWritePuts, forwardBatchRows, forwardBatchWrites]
  | r :: rows, s, batch, acc, h => by
    obtain ⟨hDedupKey, -, hLen⟩ := forwardPut_parts r.1 rs0
    have hStep := checkDedup_dedupKey s batch h r.1.originator r.1.sequence
    simp only [List.map_cons, handleWritePuts, if_true, hLen, show ¬ (40 < 24) by omega, if_false,
      hDedupKey, hStep]
    by_cases hr : Dedup.accept acc (rowID r).1 (rowID r).2
    · -- accepted: the dedup row, then the receiver row under the next sequence
      have hAcc : Dedup.accept acc r.1.originator r.1.sequence.toNat = true := hr
      have hNext : Dedup.IsMaxMap (absDedup (KVStore.put s.dedupSequences (oidBytes r.1.originator)
          r.1.sequence)) (acc ++ [rowID r]) := by
        rw [absDedup_put]
        exact Dedup.isMaxMap_update h ((Dedup.accept_iff _ _ _).mp hr)
      simp only [hAcc, if_true, acceptForwardPut_forwardKey]
      rw [handleWritePuts_forward env timestamp fill rs0 rows _ _ (acc ++ [rowID r]) hNext,
        Dedup.accepted_cons, if_pos hr]
      have hSeq : ∀ x : UInt64, s.receiverSequence + 1 + x = s.receiverSequence + (x + 1) :=
        fun x => by ac_rfl
      by_cases hProc : s.nodeID = s.leaderNodeID <;>
        simp [hProc, dedupEntry, forwardBatchRows, forwardBatchWrites, hSeq,
          ShardOnDiskStateMachine.isProcessor]
    · -- a duplicate: nothing is written
      have hAcc : Dedup.accept acc r.1.originator r.1.sequence.toNat = false := by
        simpa [rowID] using hr
      simp only [hAcc, Bool.false_eq_true, if_false]
      rw [handleWritePuts_forward env timestamp fill rs0 rows s batch acc h, Dedup.accepted_cons,
        if_neg hr]

def ForwardBatches (wbs : List WriteBatch) (rowss : List (List (ForwardKey × Bytes))) : Prop :=
  List.Forall₂ (fun wb rows => wb.Holds (forwardBatch rows) ∧ wb.Counted (forwardBatch rows)) wbs rowss

theorem handleForwardWrites_forward (env : SMEnv) (timestamp : UInt64) (fill : Bool) (cmd : Bytes) :
    ∀ {wbs : List WriteBatch} {rowss : List (List (ForwardKey × Bytes))}, ForwardBatches wbs rowss →
      ∀ (pre : Bytes) (s : ShardOnDiskStateMachine) (batch : LocalStore)
        (acc : List ((UInt64 × UInt64) × Nat)),
        pre ++ (wbs.map fun wb => wb.Serialize []).flatten <+: cmd →
        Dedup.IsMaxMap (absDedup s.dedupSequences) acc →
        ∃ s', handleForwardWrites env timestamp fill cmd wbs.length s batch pre.length =
            .ok (s', KVStore.putAll batch (forwardWrites s.shardID acc s.receiverSequence rowss)) ∧
          s'.dedupSequences =
            KVStore.putAll s.dedupSequences ((Dedup.accepted rowID acc rowss.flatten).map dedupEntry) ∧
          s'.receiverSequence =
            s.receiverSequence + UInt64.ofNat (Dedup.accepted rowID acc rowss.flatten).length ∧
          s'.shardID = s.shardID := by
  intro wbs rowss hBatches
  induction hBatches with
  | nil => exact fun _ s batch _ _ _ => ⟨s, by simp [handleForwardWrites, forwardWrites]⟩
  | @cons wb rows wbs rowss hWb hRest ih =>
    intro pre s batch acc hPre hMax
    obtain ⟨hHolds, hCounted⟩ := hWb
    obtain ⟨suf, hCmd⟩ := hPre
    have hThis : cmd = wb.Serialize pre ++ ((wbs.map fun wb => wb.Serialize []).flatten ++ suf) := by
      rw [← hCmd, WriteBatch.Serialize_eq]
      simp
    have hPuts : ((forwardBatch rows).puts.map fun p =>
        (AppendUint64ToBufferBE p.1 s.receiverSequence, p.2)) =
        rows.map fun r => (AppendUint64ToBufferBE r.1.encode s.receiverSequence, r.2) := by
      simp [forwardBatch]
    have hWrite := handleWrite_Serialize env timestamp s batch hHolds hCounted pre
      ((wbs.map fun wb => wb.Serialize []).flatten ++ suf) true fill
    rw [← hThis, if_pos rfl, hPuts,
      handleWritePuts_forward env timestamp fill s.receiverSequence rows s batch acc hMax] at hWrite
    simp only [ExceptRun.ok_bind, forwardBatch, List.isEmpty_nil, Bool.not_true, Bool.and_false,
      Bool.false_eq_true, if_false, handleWriteDeletes, List.foldlM_nil, KVStore.eraseRanges_nil,
      pure_bind] at hWrite
    set A := Dedup.accepted rowID acc rows with hA
    obtain ⟨s₁, hWrite₁, hDedup₁, hSeq₁, hShard₁⟩ : ∃ s₁ : ShardOnDiskStateMachine,
        handleWrite env s batch pre.length cmd true fill timestamp =
          .ok (s₁, KVStore.putAll batch (forwardBatchWrites s.shardID s.receiverSequence
            s.receiverSequence A), (wb.Serialize pre).length) ∧
        s₁.dedupSequences = KVStore.putAll s.dedupSequences (A.map dedupEntry) ∧
        s₁.receiverSequence = s.receiverSequence + UInt64.ofNat A.length ∧ s₁.shardID = s.shardID :=
      ⟨_, hWrite, rfl, rfl, rfl⟩
    have hNextPre : wb.Serialize pre ++ (wbs.map fun wb => wb.Serialize []).flatten <+: cmd := by
      rw [hThis, ← List.append_assoc]
      exact List.prefix_append _ _
    have hMax₁ : Dedup.IsMaxMap (absDedup s₁.dedupSequences) (acc ++ A.map rowID) :=
      hDedup₁ ▸ isMaxMap_putAll_accepted rows _ acc hMax
    obtain ⟨s', hRun, hDedup, hSeq, hShard⟩ := ih (wb.Serialize pre) s₁ _ (acc ++ A.map rowID) hNextPre hMax₁
    refine ⟨s', ?_, ?_, ?_, hShard.trans hShard₁⟩
    · simp only [List.length_cons, handleForwardWrites, hWrite₁]
      rw [hRun, hShard₁, hSeq₁, forwardWrites, ← hA, KVStore.putAll_append]
    · rw [hDedup, hDedup₁, List.flatten_cons, Dedup.accepted_append, ← hA, List.map_append,
        KVStore.putAll_append]
    · rw [hSeq, hSeq₁, List.flatten_cons, Dedup.accepted_append, ← hA, List.length_append,
        UInt64.ofNat_add, UInt64.add_assoc]

theorem applyEntry_forwardWrite_writes (env : SMEnv) (timestamp : UInt64) (s : ShardOnDiskStateMachine)
    (batch : LocalStore) (index : UInt64) (fill : Bool) {wbs : List WriteBatch}
    {rowss : List (List (ForwardKey × Bytes))} (h : ForwardBatches wbs rowss) (hLen : wbs.length < 256)
    {acc : List ((UInt64 × UInt64) × Nat)} (hMax : Dedup.IsMaxMap (absDedup s.dedupSequences) acc) :
    ∃ s', applyEntry env timestamp (s, batch) ⟨index, forwardWriteBytes fill wbs⟩ =
        .ok (s', KVStore.putAll batch (forwardWrites s.shardID acc s.receiverSequence rowss)) ∧
      s'.dedupSequences =
        KVStore.putAll s.dedupSequences ((Dedup.accepted rowID acc rowss.flatten).map dedupEntry) ∧
      s'.receiverSequence =
        s.receiverSequence + UInt64.ofNat (Dedup.accepted rowID acc rowss.flatten).length ∧
      s'.shardID = s.shardID := by
  rw [applyEntry_forwardWriteBytes env timestamp s batch index fill wbs hLen]
  exact handleForwardWrites_forward env timestamp fill _ h
    [shardStateMachineCommandForwardWrite, if fill then 1 else 0, UInt8.ofNat wbs.length] s batch acc
    (List.prefix_refl _) hMax

theorem applyEntry_forward_repeat_key (env : SMEnv) (timestamp : UInt64) (s : ShardOnDiskStateMachine)
    (batch : LocalStore) (index : UInt64) (hDedup : s.dedupSequences = fun _ => none) (shardID : UInt64)
    (fk : ForwardKey) {v₁ v₂ : Bytes} (h₁ : Short v₁) (h₂ : Short v₂) :
    ∃ s', applyEntry env timestamp (s, batch) ⟨index, Dragon.writeForwardBatchProposal
        (((NewWriteBatch shardID).AddPut fk.encode v₁).AddPut fk.encode v₂) false⟩ =
        .ok (s', KVStore.putAll batch
          (forwardBatchWrites s.shardID s.receiverSequence s.receiverSequence [(fk, v₁)])) ∧
      s'.receiverSequence = s.receiverSequence + 1 := by
  have hKey : Short fk.encode := by
    simp [Short, ForwardKey.encode, encodeForwardKey, AppendUint64ToBufferBE]
  have hBatch : ForwardBatches [((NewWriteBatch shardID).AddPut fk.encode v₁).AddPut fk.encode v₂]
      [[(fk, v₁), (fk, v₂)]] :=
    .cons (WriteBatch.Built.addPut _ _ (.addPut _ _ (.new shardID) hKey h₁ (by simp)) hKey h₂
      (by simp)).holds_counted .nil
  have hMax : Dedup.IsMaxMap (absDedup s.dedupSequences) [] := by
    rw [hDedup]
    exact Dedup.isMaxMap_nil
  have hAccepted : Dedup.accepted rowID [] [(fk, v₁), (fk, v₂)] = [(fk, v₁)] := by
    rw [Dedup.accepted_repeat rowID [] (x := (fk, v₁)) (y := (fk, v₂)) rfl rfl [], Dedup.accepted_nil]
  obtain ⟨s', hApply, -, hSeq, -⟩ := applyEntry_forwardWrite_writes env timestamp s batch index false hBatch
    (by simp) hMax
  rw [List.flatten_singleton, hAccepted] at hSeq
  refine ⟨s', ?_, hSeq⟩
  rw [writeForwardBatchProposal_eq, hApply, forwardWrites, hAccepted, forwardWrites, List.append_nil]

end PranaDB
