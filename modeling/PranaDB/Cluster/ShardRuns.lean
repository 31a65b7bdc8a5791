import PranaDB.Cluster.ForwardDedup

/-! # Runs of a shard replica: updates and restarts

A replica applies batches of Raft entries with `Update`, and after a crash it
starts again as a new state machine that `Open` fills from pebble. `Reach`
gives the states a replica can be in between updates, with the forwarded rows
it has applied so far; `Pending` adds the states inside an update, after some
of its entries. The entries are the proposals the cluster builds (`Proposal`):
an ordinary write that stays clear of the shard's own rows, a forward write of
encoded forwarded rows, and a set-leader command.

Over every such run the dedup map and the receiver sequence in memory are
those of the reference `Dedup.accepted` over everything forwarded so far, and
the rows `Open` reads back hold them (`Update_Open_forwardDedup`).
-/

namespace PranaDB
set_option autoImplicit false

/-! ## The rows of a shard that `Open` reads -/

def shardLeaderKey (shardID : UInt64) : Bytes := EncodeTableKeyPrefix ShardLeaderTableID shardID

/-- A row `Open` reads back: a forward dedup row of a 16-byte originator id, the
row of the sequences, the leader row. -/
def SystemKey (shardID : UInt64) (k : Bytes) : Prop :=
  (∃ oid : Bytes, oid.length = 16 ∧ k = dedupRowKey shardID oid) ∨ k = sequencesKey shardID ∨
    k = shardLeaderKey shardID

theorem tableKey_ne {a b : UInt64} (shardID : UInt64) (h : a ≠ b) (x y : Bytes) :
    EncodeTableKeyPrefix a shardID ++ x ≠ EncodeTableKeyPrefix b shardID ++ y := by
  intro hEq
  have hTake := congrArg (List.take 16) hEq
  rw [List.take_left' (length_EncodeTableKeyPrefix a shardID),
    List.take_left' (length_EncodeTableKeyPrefix b shardID)] at hTake
  exact h (EncodeTableKeyPrefix_inj shardID hTake)

theorem not_systemKey_of_table {t : UInt64} (shardID : UInt64) (h11 : t ≠ ForwardDedupTableID)
    (h4 : t ≠ LastLogIndexReceivedTableID) (h12 : t ≠ ShardLeaderTableID) (x : Bytes) :
    ¬ SystemKey shardID (EncodeTableKeyPrefix t shardID ++ x) := by
  rintro (⟨oid, -, hk⟩ | hk | hk)
  · exact tableKey_ne shardID h11 x oid hk
  · exact tableKey_ne shardID h4 x [] (by rw [hk, sequencesKey, List.append_nil])
  · exact tableKey_ne shardID h12 x [] (by rw [hk, shardLeaderKey, List.append_nil])

theorem receiverKey_eq (shardID receiverSequence : UInt64) (bytes : Bytes) :
    receiverKey shardID receiverSequence bytes =
      EncodeTableKeyPrefix ReceiverTableID shardID ++ (AppendUint64ToBufferBE [] receiverSequence ++ bytes) := by
  simp [receiverKey, AppendUint64ToBufferBE]

theorem not_systemKey_receiverKey (shardID receiverSequence : UInt64) (bytes : Bytes) :
    ¬ SystemKey shardID (receiverKey shardID receiverSequence bytes) := by
  rw [receiverKey_eq]
  exact not_systemKey_of_table shardID (by decide) (by decide) (by decide) _

theorem dedupRowKey_ne_sequencesKey (shardID : UInt64) (oid : Bytes) :
    dedupRowKey shardID oid ≠ sequencesKey shardID := by
  have := tableKey_ne shardID (show ForwardDedupTableID ≠ LastLogIndexReceivedTableID by decide) oid []
  rwa [List.append_nil] at this

theorem dedupRowKey_ne_shardLeaderKey (shardID : UInt64) (oid : Bytes) :
    dedupRowKey shardID oid ≠ shardLeaderKey shardID := by
  have := tableKey_ne shardID (show ForwardDedupTableID ≠ ShardLeaderTableID by decide) oid []
  rwa [List.append_nil] at this

theorem sequencesKey_ne_shardLeaderKey (shardID : UInt64) :
    sequencesKey shardID ≠ shardLeaderKey shardID := by
  have := tableKey_ne shardID (show LastLogIndexReceivedTableID ≠ ShardLeaderTableID by decide) [] []
  rwa [List.append_nil] at this

def SameSystemRows (shardID : UInt64) (a b : LocalStore) : Prop :=
  ∀ k, SystemKey shardID k → b k = a k

theorem SameSystemRows.refl (shardID : UInt64) (a : LocalStore) : SameSystemRows shardID a a :=
  fun _ _ => rfl

theorem SameSystemRows.trans {shardID : UInt64} {a b c : LocalStore} (hab : SameSystemRows shardID a b)
    (hbc : SameSystemRows shardID b c) : SameSystemRows shardID a c :=
  fun k hk => (hbc k hk).trans (hab k hk)

theorem SameSystemRows.put {shardID : UInt64} {a b : LocalStore} (h : SameSystemRows shardID a b)
    {k : Bytes} (hk : ¬ SystemKey shardID k) (v : Bytes) : SameSystemRows shardID a (KVStore.put b k v) :=
  fun x hx => (KVStore.put_of_ne b v fun hEq : x = k => hk (hEq ▸ hx)).trans (h x hx)

theorem SameSystemRows.erase {shardID : UInt64} {a b : LocalStore} (h : SameSystemRows shardID a b)
    {k : Bytes} (hk : ¬ SystemKey shardID k) : SameSystemRows shardID a (KVStore.erase b k) :=
  fun x hx => (KVStore.erase_of_ne b fun hEq : x = k => hk (hEq ▸ hx)).trans (h x hx)

theorem loadDedupCache_congr {shardID : UInt64} {a b : LocalStore}
    (h : ∀ oid : Bytes, oid.length = 16 → b (dedupRowKey shardID oid) = a (dedupRowKey shardID oid)) :
    loadDedupCache b shardID = loadDedupCache a shardID := by
  funext oid
  by_cases hLen : oid.length = 16
  · simp only [loadDedupCache, if_pos hLen, h oid hLen]
  · simp only [loadDedupCache, if_neg hLen]

theorem SameSystemRows.loadDedupCache {shardID : UInt64} {a b : LocalStore}
    (h : SameSystemRows shardID a b) : PranaDB.loadDedupCache b shardID = PranaDB.loadDedupCache a shardID :=
  loadDedupCache_congr fun oid hLen => h _ (Or.inl ⟨oid, hLen, rfl⟩)

theorem loadDedupCache_put_dedupRow (batch : LocalStore) (shardID : UInt64) (o : UInt64 × UInt64)
    (q : UInt64) :
    loadDedupCache (KVStore.put batch (dedupRowKey shardID (oidBytes o)) (AppendUint64ToBufferBE [] q))
        shardID =
      KVStore.put (loadDedupCache batch shardID) (oidBytes o) q := by
  funext oid
  by_cases hEq : oid = oidBytes o
  · subst hEq
    have hRead := ReadUint64FromBufferBE_append [] [] q
    rw [List.append_nil, List.length_nil, Nat.zero_add] at hRead
    simp [loadDedupCache, hRead]
  · have hKey : dedupRowKey shardID oid ≠ dedupRowKey shardID (oidBytes o) :=
      fun hKeys => hEq (List.append_cancel_left hKeys)
    simp only [loadDedupCache, KVStore.put_of_ne _ _ hKey, KVStore.put_of_ne _ _ hEq]

/-! ## What the state machine keeps -/

def LeaderRowOK (shardID : UInt64) (pebble : LocalStore) : Prop :=
  ∀ v, pebble (shardLeaderKey shardID) = some v → ∃ nodeID term, v = leaderValue nodeID term

/-- Inside an update: the dedup rows of the batch are the map in memory, and the
leader row is well formed. -/
structure DedupRows (s : ShardOnDiskStateMachine) (batch : LocalStore) : Prop where
  dedup_eq : loadDedupCache batch s.shardID = s.dedupSequences
  leaderRow : LeaderRowOK s.shardID batch

/-- Between updates: the rows a restart reads back hold what the replica has in
memory, the receiver sequence included. -/
structure Persisted (s : ShardOnDiskStateMachine) (pebble : LocalStore) : Prop extends DedupRows s pebble where
  sequences : ∃ lastRaftIndex, loadSequences pebble s.shardID = .ok (lastRaftIndex, s.receiverSequence)

/-- The in-memory state is the reference's after the history `acc` of accepted
dedup ids: the maximum map of it, and its length as the receiver sequence. -/
structure DedupInv (s : ShardOnDiskStateMachine) (acc : List ((UInt64 × UInt64) × Nat)) : Prop where
  maxMap : Dedup.IsMaxMap (absDedup s.dedupSequences) acc
  receiverSequence_eq : s.receiverSequence = UInt64.ofNat acc.length

def acceptedIDs (F : List (ForwardKey × Bytes)) : List ((UInt64 × UInt64) × Nat) :=
  (Dedup.accepted rowID [] F).map rowID

theorem acceptedIDs_append (F rows : List (ForwardKey × Bytes)) :
    acceptedIDs (F ++ rows) = acceptedIDs F ++ (Dedup.accepted rowID (acceptedIDs F) rows).map rowID := by
  rw [acceptedIDs, Dedup.accepted_append, List.map_append, List.nil_append]
  rfl

theorem DedupRows.of_same {s : ShardOnDiskStateMachine} {a b : LocalStore} (h : DedupRows s a)
    (hSame : SameSystemRows s.shardID a b) : DedupRows s b where
  dedup_eq := hSame.loadDedupCache.trans h.dedup_eq
  leaderRow := fun v hv => h.leaderRow v ((hSame _ (Or.inr (Or.inr rfl))).symm.trans hv)

/-! ## Ordinary writes and set-leader commands leave the dedup state alone -/

/-- An ordinary write batch: none of its writes touches a row `Open` reads. -/
structure OrdinaryWrite (shardID : UInt64) (b : KVStore.Batch Bytes Bytes) : Prop where
  puts_clear : ∀ p ∈ b.puts, ¬ SystemKey shardID p.1
  deletes_clear : ∀ k ∈ b.deletes, ¬ SystemKey shardID k
  deleteRanges_clear : ∀ r ∈ b.deleteRanges, ∀ k, KVStore.InRange r.1 r.2 k → ¬ SystemKey shardID k

theorem handleWritePuts_ordinary (env : SMEnv) (timestamp : UInt64) (fill : Bool) :
    ∀ (puts : List (Bytes × Bytes)) (s : ShardOnDiskStateMachine) (batch : LocalStore)
      {s' : ShardOnDiskStateMachine} {batch' : LocalStore}, (∀ p ∈ puts, ¬ SystemKey s.shardID p.1) →
      handleWritePuts env timestamp false fill puts s batch = .ok (s', batch') →
      s' = s ∧ SameSystemRows s.shardID batch batch'
  | [], s, batch, _, _, _, h => by
    simp only [handleWritePuts, Except.ok.injEq, Prod.mk.injEq] at h
    rw [← h.1, ← h.2]
    exact ⟨rfl, SameSystemRows.refl _ _⟩
  | p :: puts, s, batch, _, _, hClear, h => by
    have hRest : ∀ q ∈ puts, ¬ SystemKey s.shardID q.1 := fun q hq => hClear q (List.mem_cons_of_mem p hq)
    simp only [handleWritePuts, Bool.false_eq_true, if_false] at h
    cases hCheck : checkKey env s p.1 with
    | error e => rw [hCheck] at h; cases h
    | ok keep =>
      rw [hCheck] at h
      cases keep with
      | false => exact handleWritePuts_ordinary env timestamp fill puts s batch hRest h
      | true =>
        obtain ⟨rfl, hSame⟩ := handleWritePuts_ordinary env timestamp fill puts s _ hRest h
        exact ⟨rfl, (SameSystemRows.refl _ _).put (hClear p List.mem_cons_self) p.2 |>.trans hSame⟩

theorem handleWriteDeletes_ordinary (env : SMEnv) (s : ShardOnDiskStateMachine) {batch batch' : LocalStore}
    {deletes : List Bytes} (hClear : ∀ k ∈ deletes, ¬ SystemKey s.shardID k)
    (h : handleWriteDeletes env s batch deletes = .ok batch') : SameSystemRows s.shardID batch batch' := by
  refine ExceptRun.foldlM_invariant_mem (SameSystemRows s.shardID batch) _ deletes ?_ batch batch'
    (SameSystemRows.refl _ _) h
  intro b k b' hk hSame hStep
  obtain ⟨checked, -, hPure⟩ := ExceptRun.bind_eq_ok.mp hStep
  rw [← ExceptRun.pure_eq_ok.mp hPure]
  exact hSame.erase (hClear k hk)

theorem eraseRanges_ordinary {shardID : UInt64} (batch : LocalStore) {ranges : List (Bytes × Bytes)}
    (hClear : ∀ r ∈ ranges, ∀ k, KVStore.InRange r.1 r.2 k → ¬ SystemKey shardID k) :
    SameSystemRows shardID batch (KVStore.eraseRanges batch ranges) :=
  fun k hk => KVStore.eraseRanges_of_not_inRange batch ranges fun r hr hIn => hClear r hr k hIn hk

theorem applyEntry_ordinaryWrite {env : SMEnv} {timestamp : UInt64} {s s' : ShardOnDiskStateMachine}
    {batch batch' : LocalStore} {index : UInt64} {wb : WriteBatch} {b : KVStore.Batch Bytes Bytes}
    (hHolds : wb.Holds b) (hCounted : wb.Counted b) (hWrite : OrdinaryWrite s.shardID b)
    (h : applyEntry env timestamp (s, batch) ⟨index, Dragon.writeBatchProposal wb⟩ = .ok (s', batch')) :
    s' = s ∧ SameSystemRows s.shardID batch batch' := by
  have hBytes : Dragon.writeBatchProposal wb = wb.Serialize [shardStateMachineCommandWrite] ++ [] :=
    (List.append_nil _).symm
  rw [applyEntry_writeBatchProposal, hBytes,
    show (1 : Nat) = [shardStateMachineCommandWrite].length from rfl,
    handleWrite_Serialize env timestamp s batch hHolds hCounted, if_neg (by decide)] at h
  simp only [ExceptRun.bind_eq_ok, Bool.false_and, Bool.false_eq_true, if_false] at h
  obtain ⟨⟨s₂, batch₂, offset⟩, ⟨⟨s₁, batch₁⟩, hPuts, batch₃, hDeletes, hPure⟩, hEnd⟩ := h
  simp only [ExceptRun.pure_eq_ok, Prod.mk.injEq] at hPure hEnd
  obtain ⟨hs₁, hSame₁⟩ := handleWritePuts_ordinary env timestamp false b.puts s batch hWrite.puts_clear hPuts
  subst s₁
  obtain ⟨rfl, rfl, -⟩ := hPure
  obtain ⟨rfl, rfl⟩ := hEnd
  refine ⟨rfl, hSame₁.trans ((handleWriteDeletes_ordinary env s hWrite.deletes_clear hDeletes).trans ?_)⟩
  exact eraseRanges_ordinary batch₃ hWrite.deleteRanges_clear

theorem handleSetLeader_cases {s s' : ShardOnDiskStateMachine} {batch batch' : LocalStore} {bytes : Bytes}
    (h : handleSetLeader s batch bytes = .ok (s', batch')) :
    s'.dedupSequences = s.dedupSequences ∧ s'.receiverSequence = s.receiverSequence ∧
      s'.shardID = s.shardID ∧
      (batch' = batch ∨ ∃ nodeID term, batch' = KVStore.put batch (shardLeaderKey s.shardID)
        (leaderValue nodeID term)) := by
  simp only [handleSetLeader, ExceptRun.bind_eq_ok, orPanic_eq_ok] at h
  obtain ⟨⟨newLeader, _⟩, -, ⟨term, _⟩, -, h⟩ := h
  by_cases hOlder : term.toInt64 ≤ s.leaderTerm
  · rw [if_pos hOlder, ExceptRun.pure_eq_ok, Prod.mk.injEq] at h
    obtain ⟨rfl, rfl⟩ := h
    exact ⟨rfl, rfl, rfl, Or.inl rfl⟩
  rw [if_neg hOlder] at h
  have hRow : ∀ s₁ : ShardOnDiskStateMachine,
      (pure (s₁, KVStore.put batch (EncodeTableKeyPrefix ShardLeaderTableID s.shardID)
        (leaderValue newLeader term)) : Except SMError _) = .ok (s', batch') →
      s₁.dedupSequences = s.dedupSequences → s₁.receiverSequence = s.receiverSequence →
      s₁.shardID = s.shardID →
      s'.dedupSequences = s.dedupSequences ∧ s'.receiverSequence = s.receiverSequence ∧
        s'.shardID = s.shardID ∧
        (batch' = batch ∨ ∃ nodeID term, batch' = KVStore.put batch (shardLeaderKey s.shardID)
          (leaderValue nodeID term)) := by
    intro s₁ hPure h₁ h₂ h₃
    obtain ⟨rfl, rfl⟩ := Prod.mk.inj (ExceptRun.pure_eq_ok.mp hPure)
    exact ⟨h₁, h₂, h₃, Or.inr ⟨newLeader, term, rfl⟩⟩
  by_cases hNew : newLeader = s.nodeID.toUInt64
  · rw [if_pos hNew] at h
    exact hRow _ h rfl rfl rfl
  rw [if_neg hNew] at h
  by_cases hPrev : s.leaderNodeID = s.nodeID.toUInt64.toInt64
  · rw [if_pos hPrev] at h
    exact hRow _ h rfl rfl rfl
  · rw [if_neg hPrev] at h
    exact hRow _ h rfl rfl rfl

/-! ## A forward write records its dedup rows and leaves the leader row -/

theorem loadDedupCache_putAll_forwardBatchWrites (shardID rs0 : UInt64) :
    ∀ (rows : List (ForwardKey × Bytes)) (receiverSequence : UInt64) (batch : LocalStore),
      loadDedupCache (KVStore.putAll batch (forwardBatchWrites shardID rs0 receiverSequence rows)) shardID =
        KVStore.putAll (loadDedupCache batch shardID) (rows.map dedupEntry)
  | [], _, _ => rfl
  | r :: rows, receiverSequence, batch => by
    rw [forwardBatchWrites, KVStore.putAll_cons, KVStore.putAll_cons,
      loadDedupCache_putAll_forwardBatchWrites shardID rs0 rows]
    dsimp only
    rw [((SameSystemRows.refl shardID _).put (not_systemKey_receiverKey shardID _ _) _).loadDedupCache,
      loadDedupCache_put_dedupRow]
    rfl

theorem loadDedupCache_putAll_forwardWrites (shardID : UInt64) :
    ∀ (rowss : List (List (ForwardKey × Bytes))) (acc : List ((UInt64 × UInt64) × Nat))
      (receiverSequence : UInt64) (batch : LocalStore),
      loadDedupCache (KVStore.putAll batch (forwardWrites shardID acc receiverSequence rowss)) shardID =
        KVStore.putAll (loadDedupCache batch shardID) ((Dedup.accepted rowID acc rowss.flatten).map dedupEntry)
  | [], _, _, _ => rfl
  | rows :: rowss, acc, receiverSequence, batch => by
    rw [forwardWrites, KVStore.putAll_append, loadDedupCache_putAll_forwardWrites shardID rowss,
      loadDedupCache_putAll_forwardBatchWrites, List.flatten_cons, Dedup.accepted_append, List.map_append,
      KVStore.putAll_append]

theorem putAll_forwardBatchWrites_leader (shardID rs0 : UInt64) :
    ∀ (rows : List (ForwardKey × Bytes)) (receiverSequence : UInt64) (batch : LocalStore),
      KVStore.putAll batch (forwardBatchWrites shardID rs0 receiverSequence rows) (shardLeaderKey shardID) =
        batch (shardLeaderKey shardID)
  | [], _, _ => rfl
  | r :: rows, receiverSequence, batch => by
    have hReceiver : shardLeaderKey shardID ≠ receiverKey shardID (receiverSequence + 1)
        (remoteConsumerBytes r.1 rs0) := fun hEq =>
      not_systemKey_receiverKey shardID _ _ (by rw [← hEq]; exact Or.inr (Or.inr rfl))
    rw [forwardBatchWrites, KVStore.putAll_cons, KVStore.putAll_cons, putAll_forwardBatchWrites_leader,
      KVStore.put_of_ne _ _ hReceiver,
      KVStore.put_of_ne _ _ (dedupRowKey_ne_shardLeaderKey shardID _).symm]

theorem putAll_forwardWrites_leader (shardID : UInt64) :
    ∀ (rowss : List (List (ForwardKey × Bytes))) (acc : List ((UInt64 × UInt64) × Nat))
      (receiverSequence : UInt64) (batch : LocalStore),
      KVStore.putAll batch (forwardWrites shardID acc receiverSequence rowss) (shardLeaderKey shardID) =
        batch (shardLeaderKey shardID)
  | [], _, _, _ => rfl
  | rows :: rowss, acc, receiverSequence, batch => by
    rw [forwardWrites, KVStore.putAll_append, putAll_forwardWrites_leader, putAll_forwardBatchWrites_leader]

theorem DedupInv.of_eq {s s' : ShardOnDiskStateMachine} {acc : List ((UInt64 × UInt64) × Nat)}
    (h : DedupInv s acc) (hDedup : s'.dedupSequences = s.dedupSequences)
    (hSeq : s'.receiverSequence = s.receiverSequence) : DedupInv s' acc where
  maxMap := hDedup ▸ h.maxMap
  receiverSequence_eq := hSeq.trans h.receiverSequence_eq

/-! ## One entry, one update -/

/-- An entry as the cluster proposes it to a shard, with the forwarded rows it
carries: an ordinary write (`Dragon.WriteBatch`), a forward write of encoded
rows (`Dragon.WriteForwardBatch`, or several combined by the scheduler), or a
set-leader command (`Dragon.setLeader`). -/
inductive Proposal (shardID : UInt64) : Bytes → List (ForwardKey × Bytes) → Prop where
  | write {wb : WriteBatch} {b : KVStore.Batch Bytes Bytes} : wb.Holds b → wb.Counted b →
      OrdinaryWrite shardID b → Proposal shardID (Dragon.writeBatchProposal wb) []
  | forwardWrite (fill : Bool) {wbs : List WriteBatch} {rowss : List (List (ForwardKey × Bytes))} :
      ForwardBatches wbs rowss → wbs.length < 256 → Proposal shardID (forwardWriteBytes fill wbs) rowss.flatten
  | setLeader (nodeID term : UInt64) : Proposal shardID (Dragon.setLeaderProposal nodeID term) []

theorem applyEntry_dedup {env : SMEnv} {timestamp : UInt64} {s s' : ShardOnDiskStateMachine}
    {batch batch' : LocalStore} {e : Entry} {rows : List (ForwardKey × Bytes)}
    {acc : List ((UInt64 × UInt64) × Nat)} (hRows : DedupRows s batch) (hInv : DedupInv s acc)
    (hProp : Proposal s.shardID e.Cmd rows) (h : applyEntry env timestamp (s, batch) e = .ok (s', batch')) :
    DedupRows s' batch' ∧ DedupInv s' (acc ++ (Dedup.accepted rowID acc rows).map rowID) ∧
      s'.shardID = s.shardID := by
  obtain ⟨index, cmd⟩ := e
  cases hProp with
  | write hHolds hCounted hWrite =>
    obtain ⟨rfl, hSame⟩ := applyEntry_ordinaryWrite hHolds hCounted hWrite h
    exact ⟨hRows.of_same hSame, by simpa using hInv, rfl⟩
  | forwardWrite fill hBatches hLen =>
    obtain ⟨s₁, hRun, hDedup, hSeq, hShard⟩ :=
      applyEntry_forwardWrite_writes env timestamp s batch index fill hBatches hLen hInv.maxMap
    obtain ⟨rfl, rfl⟩ := Prod.mk.inj (Except.ok.inj (hRun.symm.trans h))
    refine ⟨⟨?_, ?_⟩, ⟨?_, ?_⟩, hShard⟩
    · rw [hShard, loadDedupCache_putAll_forwardWrites, hRows.dedup_eq, hDedup]
    · intro v hv
      rw [hShard, putAll_forwardWrites_leader] at hv
      exact hRows.leaderRow v hv
    · rw [hDedup]
      exact isMaxMap_putAll_accepted _ _ acc hInv.maxMap
    · rw [hSeq, hInv.receiverSequence_eq, List.length_append, List.length_map, UInt64.ofNat_add]
  | setLeader nodeID term =>
    obtain ⟨hDedup, hSeq, hShard, hBatch⟩ :=
      handleSetLeader_cases
        ((applyEntry_setLeaderProposal env timestamp s batch index nodeID term).symm.trans h)
    refine ⟨?_, by simpa using hInv.of_eq hDedup hSeq, hShard⟩
    rcases hBatch with rfl | ⟨n, t, rfl⟩
    · exact ⟨hShard ▸ hDedup ▸ hRows.dedup_eq, hShard ▸ hRows.leaderRow⟩
    · -- the leader row is not a dedup row, and holds what `handleSetLeader` writes
      refine ⟨?_, ?_⟩
      · rw [hShard, hDedup, ← hRows.dedup_eq]
        exact loadDedupCache_congr fun oid _ =>
          KVStore.put_of_ne _ _ (dedupRowKey_ne_shardLeaderKey s.shardID oid)
      · intro v hv
        rw [hShard, shardLeaderKey, KVStore.put_self] at hv
        exact ⟨n, t, (Option.some.inj hv).symm⟩

theorem foldlM_applyEntry_dedup (env : SMEnv) (timestamp : UInt64) (shardID : UInt64) :
    ∀ {entries : List Entry} {rowss : List (List (ForwardKey × Bytes))},
      List.Forall₂ (fun e rows => Proposal shardID e.Cmd rows) entries rowss →
      ∀ (s : ShardOnDiskStateMachine) (batch : LocalStore) (acc : List ((UInt64 × UInt64) × Nat))
        (st : ShardOnDiskStateMachine × LocalStore), s.shardID = shardID → DedupRows s batch →
        DedupInv s acc → entries.foldlM (applyEntry env timestamp) (s, batch) = .ok st →
        DedupRows st.1 st.2 ∧ DedupInv st.1 (acc ++ (Dedup.accepted rowID acc rowss.flatten).map rowID) ∧
          st.1.shardID = shardID := by
  intro entries rowss hProps
  induction hProps with
  | nil =>
    intro s batch acc st hShard hRows hInv h
    rw [List.foldlM_nil, ExceptRun.pure_eq_ok] at h
    subst h
    exact ⟨hRows, by simpa using hInv, hShard⟩
  | @cons e rows entries rowss hProp hRest ih =>
    intro s batch acc st hShard hRows hInv h
    rw [List.foldlM_cons] at h
    obtain ⟨⟨s₁, batch₁⟩, hHead, hTail⟩ := ExceptRun.bind_eq_ok.mp h
    obtain ⟨hRows₁, hInv₁, hShard₁⟩ := applyEntry_dedup hRows hInv (hShard ▸ hProp) hHead
    obtain ⟨hRows', hInv', hShard'⟩ := ih s₁ batch₁ _ st (hShard₁.trans hShard) hRows₁ hInv₁ hTail
    refine ⟨hRows', ?_, hShard'⟩
    rwa [List.flatten_cons, Dedup.accepted_append, List.map_append, ← List.append_assoc]

theorem Persisted.commit {s s₁ : ShardOnDiskStateMachine} {batch : LocalStore} (h : DedupRows s batch)
    (lastLogIndex : UInt64) (hDedup : s₁.dedupSequences = s.dedupSequences)
    (hSeq : s₁.receiverSequence = s.receiverSequence) (hShard : s₁.shardID = s.shardID) :
    Persisted s₁ (writeSequences (KVStore.put batch (sequencesKey s.shardID) []) lastLogIndex
      s.receiverSequence s.shardID) where
  dedup_eq := by
    rw [hShard, hDedup, ← h.dedup_eq]
    exact loadDedupCache_congr fun oid _ => by
      rw [writeSequences, KVStore.put_of_ne _ _ (dedupRowKey_ne_sequencesKey s.shardID oid),
        KVStore.put_of_ne _ _ (dedupRowKey_ne_sequencesKey s.shardID oid)]
  leaderRow := by
    intro v hv
    rw [hShard, writeSequences, KVStore.put_of_ne _ _ (sequencesKey_ne_shardLeaderKey s.shardID).symm,
      KVStore.put_of_ne _ _ (sequencesKey_ne_shardLeaderKey s.shardID).symm] at hv
    exact h.leaderRow v hv
  sequences := ⟨lastLogIndex, by
    rw [hShard, hSeq]
    exact loadSequences_of_value (KVStore.put_self _ _ _)⟩

theorem Update_dedup {env : SMEnv} {timestamp : UInt64} {s s' : ShardOnDiskStateMachine}
    {pebble pebble' : LocalStore} {entries : List Entry} {rowss : List (List (ForwardKey × Bytes))}
    {delivered : List ForwardRow} {acc : List ((UInt64 × UInt64) × Nat)} (hRows : DedupRows s pebble)
    (hInv : DedupInv s acc) (hProps : List.Forall₂ (fun e rows => Proposal s.shardID e.Cmd rows) entries rowss)
    (h : Update env timestamp s pebble entries = .ok (s', pebble', delivered)) :
    Persisted s' pebble' ∧ DedupInv s' (acc ++ (Dedup.accepted rowID acc rowss.flatten).map rowID) ∧
      s'.shardID = s.shardID := by
  simp only [Update, ExceptRun.bind_eq_ok] at h
  obtain ⟨⟨s₁, batch₁⟩, hFold, lastEntry, -, hEnd⟩ := h
  obtain ⟨hRows₁, hInv₁, hShard₁⟩ :=
    foldlM_applyEntry_dedup env timestamp s.shardID hProps s pebble acc _ rfl hRows hInv hFold
  have hDone : s'.dedupSequences = s₁.dedupSequences ∧ s'.receiverSequence = s₁.receiverSequence ∧
      s'.shardID = s₁.shardID ∧ pebble' = writeSequences (KVStore.put batch₁ (sequencesKey s₁.shardID) [])
        lastEntry.Index s₁.receiverSequence s₁.shardID := by
    by_cases hDeliver : (s₁.shardListener && !s₁.forwardRows.isEmpty) = true
    · rw [if_pos hDeliver, ExceptRun.pure_eq_ok, Prod.mk.injEq, Prod.mk.injEq] at hEnd
      obtain ⟨rfl, rfl, -⟩ := hEnd
      exact ⟨rfl, rfl, rfl, rfl⟩
    · rw [if_neg hDeliver, ExceptRun.pure_eq_ok, Prod.mk.injEq, Prod.mk.injEq] at hEnd
      obtain ⟨rfl, rfl, -⟩ := hEnd
      exact ⟨rfl, rfl, rfl, rfl⟩
  obtain ⟨hDedup, hSeq, hShard, rfl⟩ := hDone
  exact ⟨Persisted.commit hRows₁ lastEntry.Index hDedup hSeq hShard, hInv₁.of_eq hDedup hSeq,
    hShard.trans hShard₁⟩

theorem Open_of_persisted {s : ShardOnDiskStateMachine} {pebble : LocalStore} (h : Persisted s pebble)
    (t : ShardOnDiskStateMachine) (hShard : t.shardID = s.shardID) :
    ∃ s' lastRaftIndex, Open t pebble = .ok (s', lastRaftIndex) ∧
      s'.dedupSequences = s.dedupSequences ∧ s'.receiverSequence = s.receiverSequence ∧
      s'.shardID = s.shardID := by
  obtain ⟨lastRaftIndex, hSeq⟩ := h.sequences
  obtain ⟨leader, hLeader⟩ : ∃ leader, loadLeaderInfo pebble s.shardID = .ok leader := by
    cases hRow : pebble (shardLeaderKey s.shardID) with
    | none =>
      rw [shardLeaderKey] at hRow
      exact ⟨(-1, -1), by simp [loadLeaderInfo, hRow]⟩
    | some v =>
      obtain ⟨n, term, rfl⟩ := h.leaderRow v hRow
      exact ⟨_, loadLeaderInfo_of_value hRow⟩
  refine ⟨{ t with
              dedupSequences := loadDedupCache pebble t.shardID, receiverSequence := s.receiverSequence,
              leaderNodeID := leader.1, leaderTerm := leader.2 }, lastRaftIndex, ?_, ?_, rfl, hShard⟩
  · simp only [Open, hShard, hSeq, hLeader, ExceptRun.ok_bind]
    rfl
  · rw [hShard]
    exact h.dedup_eq

theorem Persisted.of_eq {s s' : ShardOnDiskStateMachine} {pebble : LocalStore} (h : Persisted s pebble)
    (hDedup : s'.dedupSequences = s.dedupSequences) (hSeq : s'.receiverSequence = s.receiverSequence)
    (hShard : s'.shardID = s.shardID) : Persisted s' pebble where
  dedup_eq := by rw [hShard, hDedup]; exact h.dedup_eq
  leaderRow := hShard ▸ h.leaderRow
  sequences := by rw [hShard, hSeq]; exact h.sequences

/-! ## Runs -/

/-- The states of a replica between updates, with the forwarded rows it has
applied: a new replica over a store without the shard's rows, after an
`Update` of proposed entries, or after a restart, `Open` of a new state
machine over what the last update committed. An update that fails or a crash
inside one commits nothing and is a restart from the state before it. -/
inductive Reach : ShardOnDiskStateMachine → LocalStore → List (ForwardKey × Bytes) → Prop where
  | init (nodeID : Int64) (shardID : UInt64) {pebble : LocalStore} :
      (∀ k, SystemKey shardID k → pebble k = none) → Reach (newShardODStateMachine nodeID shardID) pebble []
  | update {s : ShardOnDiskStateMachine} {pebble : LocalStore} {F : List (ForwardKey × Bytes)}
      (env : SMEnv) (timestamp : UInt64) {entries : List Entry} {rowss : List (List (ForwardKey × Bytes))}
      {s' : ShardOnDiskStateMachine} {pebble' : LocalStore} {delivered : List ForwardRow} :
      Reach s pebble F → List.Forall₂ (fun e rows => Proposal s.shardID e.Cmd rows) entries rowss →
      Update env timestamp s pebble entries = .ok (s', pebble', delivered) →
      Reach s' pebble' (F ++ rowss.flatten)
  | restart {s : ShardOnDiskStateMachine} {pebble : LocalStore} {F : List (ForwardKey × Bytes)}
      {s' : ShardOnDiskStateMachine} {lastRaftIndex : UInt64} :
      Reach s pebble F → Open (newShardODStateMachine s.nodeID s.shardID) pebble = .ok (s', lastRaftIndex) →
      Reach s' pebble F

/-- The states inside an update: after some of its entries, over the batch. -/
inductive Pending : ShardOnDiskStateMachine → LocalStore → List (ForwardKey × Bytes) → Prop where
  | start {s : ShardOnDiskStateMachine} {pebble : LocalStore} {F : List (ForwardKey × Bytes)} :
      Reach s pebble F → Pending s pebble F
  | entry {s : ShardOnDiskStateMachine} {batch : LocalStore} {F : List (ForwardKey × Bytes)}
      (env : SMEnv) (timestamp : UInt64) {e : Entry} {rows : List (ForwardKey × Bytes)}
      {s' : ShardOnDiskStateMachine} {batch' : LocalStore} :
      Pending s batch F → Proposal s.shardID e.Cmd rows →
      applyEntry env timestamp (s, batch) e = .ok (s', batch') → Pending s' batch' (F ++ rows)

theorem persisted_init (nodeID : Int64) (shardID : UInt64) {pebble : LocalStore}
    (hEmpty : ∀ k, SystemKey shardID k → pebble k = none) :
    Persisted (newShardODStateMachine nodeID shardID) pebble where
  dedup_eq := by
    funext oid
    by_cases hLen : oid.length = 16
    · simp [loadDedupCache, hLen, hEmpty _ (Or.inl ⟨oid, hLen, rfl⟩), newShardODStateMachine]
    · simp [loadDedupCache, hLen, newShardODStateMachine]
  leaderRow := fun v hv => by
    rw [show (newShardODStateMachine nodeID shardID).shardID = shardID from rfl,
      hEmpty _ (Or.inr (Or.inr rfl))] at hv
    cases hv
  sequences := ⟨0, by simp [loadSequences, newShardODStateMachine, hEmpty _ (Or.inr (Or.inl rfl))]⟩

theorem reach_persisted {s : ShardOnDiskStateMachine} {pebble : LocalStore} {F : List (ForwardKey × Bytes)}
    (h : Reach s pebble F) : Persisted s pebble ∧ DedupInv s (acceptedIDs F) := by
  induction h with
  | init nodeID shardID hEmpty =>
    exact ⟨persisted_init nodeID shardID hEmpty, ⟨Dedup.isMaxMap_nil, rfl⟩⟩
  | update env timestamp _ hProps hUpdate ih =>
    obtain ⟨hPersisted, hInv, -⟩ := Update_dedup ih.1.toDedupRows ih.2 hProps hUpdate
    exact ⟨hPersisted, by rwa [acceptedIDs_append]⟩
  | @restart s pebble F s' lastRaftIndex _ hOpen ih =>
    obtain ⟨s₁, lastRaftIndex₁, hOpen', hDedup, hSeq, hShard⟩ :=
      Open_of_persisted ih.1 (newShardODStateMachine s.nodeID s.shardID) rfl
    rw [hOpen] at hOpen'
    obtain ⟨rfl, -⟩ := Prod.mk.inj (Except.ok.inj hOpen')
    exact ⟨ih.1.of_eq hDedup hSeq hShard, ih.2.of_eq hDedup hSeq⟩

theorem pending_dedup {s : ShardOnDiskStateMachine} {batch : LocalStore} {F : List (ForwardKey × Bytes)}
    (h : Pending s batch F) : DedupRows s batch ∧ DedupInv s (acceptedIDs F) := by
  induction h with
  | start hReach => exact ⟨(reach_persisted hReach).1.toDedupRows, (reach_persisted hReach).2⟩
  | entry env timestamp _ hProp hApply ih =>
    obtain ⟨hRows, hInv, -⟩ := applyEntry_dedup ih.1 ih.2 hProp hApply
    exact ⟨hRows, by rwa [acceptedIDs_append]⟩

/-- Forward-write deduplication and receiver sequencing over every run of a
replica, restarts included: between updates the rows a restart reads back hold
the dedup map and the receiver sequence, and `Open` rebuilds them; at every
point, inside updates too, the map is the reference's maximum map of every
forwarded row accepted so far and the receiver sequence their number; and the
next forward write writes a receiver row for exactly the rows the reference
accepts after all of them, numbered on from their number. -/
theorem Update_Open_forwardDedup :
    (∀ (s : ShardOnDiskStateMachine) (pebble : LocalStore) (F : List (ForwardKey × Bytes)), Reach s pebble F →
      loadDedupCache pebble s.shardID = s.dedupSequences ∧
        (∃ lastRaftIndex, loadSequences pebble s.shardID = .ok (lastRaftIndex, s.receiverSequence)) ∧
        ∃ s' lastRaftIndex, Open (newShardODStateMachine s.nodeID s.shardID) pebble = .ok (s', lastRaftIndex) ∧
          s'.dedupSequences = s.dedupSequences ∧ s'.receiverSequence = s.receiverSequence) ∧
    (∀ (s : ShardOnDiskStateMachine) (batch : LocalStore) (F : List (ForwardKey × Bytes)), Pending s batch F →
      Dedup.IsMaxMap (absDedup s.dedupSequences) (acceptedIDs F) ∧
        s.receiverSequence = UInt64.ofNat (acceptedIDs F).length) ∧
    (∀ (s : ShardOnDiskStateMachine) (batch : LocalStore) (F : List (ForwardKey × Bytes)), Pending s batch F →
      ∀ (env : SMEnv) (timestamp index : UInt64) (fill : Bool) (wbs : List WriteBatch)
        (rowss : List (List (ForwardKey × Bytes))), ForwardBatches wbs rowss → wbs.length < 256 →
        ∃ s', applyEntry env timestamp (s, batch) ⟨index, forwardWriteBytes fill wbs⟩ =
          .ok (s', KVStore.putAll batch
            (forwardWrites s.shardID (acceptedIDs F) (UInt64.ofNat (acceptedIDs F).length) rowss))) := by
  refine ⟨?_, ?_, ?_⟩
  · intro s pebble F hReach
    obtain ⟨hPersisted, -⟩ := reach_persisted hReach
    obtain ⟨s', lastRaftIndex, hOpen, hDedup, hSeq, -⟩ :=
      Open_of_persisted hPersisted (newShardODStateMachine s.nodeID s.shardID) rfl
    exact ⟨hPersisted.dedup_eq, hPersisted.sequences, s', lastRaftIndex, hOpen, hDedup, hSeq⟩
  · intro s batch F hPending
    obtain ⟨-, hInv⟩ := pending_dedup hPending
    exact ⟨hInv.maxMap, hInv.receiverSequence_eq⟩
  · intro s batch F hPending env timestamp index fill wbs rowss hBatches hLen
    obtain ⟨-, hInv⟩ := pending_dedup hPending
    obtain ⟨s', hRun, -⟩ := applyEntry_forwardWrite_writes env timestamp s batch index fill hBatches hLen hInv.maxMap
    rw [← hInv.receiverSequence_eq]
    exact ⟨s', hRun⟩

/-- A new replica of shard 1000 on an empty store applies a forward write whose
batch carries one forwarded row twice: only the first is written, as receiver
row 1, with its dedup row. -/
theorem Update_Open_forwardDedup_duplicate :
    (∃ s', applyEntry ⟨false, fun _ => false⟩ 0 (newShardODStateMachine 1 1000, fun _ => none)
        ⟨1, forwardWriteBytes false [((NewWriteBatch 1000).AddPut (ForwardKey.encode ⟨(7, 0), 5, 1⟩) [1]).AddPut
          (ForwardKey.encode ⟨(7, 0), 5, 1⟩) [2]]⟩ =
      .ok (s', KVStore.putAll (fun _ => none)
        (forwardWrites 1000 [] 0 [[(⟨(7, 0), 5, 1⟩, [1]), (⟨(7, 0), 5, 1⟩, [2])]]))) ∧
    forwardWrites 1000 [] 0 [[(⟨(7, 0), 5, 1⟩, [1]), (⟨(7, 0), 5, 1⟩, [2])]] =
      [(dedupRowKey 1000 (oidBytes (7, 0)), AppendUint64ToBufferBE [] 5),
        (receiverKey 1000 1 (remoteConsumerBytes ⟨(7, 0), 5, 1⟩ 0), [1])] := by
  have hReach : Reach (newShardODStateMachine 1 1000) (fun _ => none) [] := Reach.init 1 1000 fun _ _ => rfl
  have hKey : Short (ForwardKey.encode ⟨(7, 0), 5, 1⟩) := by
    show List.length _ < 2 ^ 32
    decide
  have hValue : ∀ b : UInt8, Short [b] := fun _ => by
    show 1 < 2 ^ 32
    decide
  have hBatches : ForwardBatches
      [((NewWriteBatch 1000).AddPut (ForwardKey.encode ⟨(7, 0), 5, 1⟩) [1]).AddPut
        (ForwardKey.encode ⟨(7, 0), 5, 1⟩) [2]]
      [[(⟨(7, 0), 5, 1⟩, [1]), (⟨(7, 0), 5, 1⟩, [2])]] :=
    .cons ⟨((WriteBatch.Holds.newWriteBatch 1000).addPut hKey (hValue 1)).addPut hKey (hValue 2),
      ((WriteBatch.Counted.newWriteBatch 1000).addPut (by decide)).addPut (by decide)⟩ .nil
  exact ⟨Update_Open_forwardDedup.2.2 _ _ _ (.start hReach) ⟨false, fun _ => false⟩ 0 1 false _ _ hBatches
    (by decide), rfl⟩

end PranaDB
