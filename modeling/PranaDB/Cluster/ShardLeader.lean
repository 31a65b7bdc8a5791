import PranaDB.Cluster.ShardStateMachine
import PranaDB.Lib.ExceptRun

/-! # Which replica processes a shard

A replica processes its shard while it holds a shard listener. The intended
invariant is that it holds one exactly when its recorded leader is its own
node (`ProcessorInv`), with a term that only grows, so that replicas that
applied the same log agree on the one processor.

Writes leave the leadership fields alone (`handleWrite_leadership`) and
`handleSetLeader` keeps the invariant, so `Update` keeps it over any list of
entries. `RecoverFromSnapshot` loads the leader and the term from the snapshot
and leaves the listener as it was.
-/

namespace PranaDB
set_option autoImplicit false

namespace ShardOnDiskStateMachine

def leadership (s : ShardOnDiskStateMachine) : Int64 × UInt64 × Bool × Int64 × Int64 :=
  (s.nodeID, s.shardID, s.shardListener, s.leaderNodeID, s.leaderTerm)

def ProcessorInv (s : ShardOnDiskStateMachine) : Prop := s.shardListener = s.isProcessor

instance (s : ShardOnDiskStateMachine) : Decidable s.ProcessorInv :=
  inferInstanceAs (Decidable (_ = _))

theorem processorInv_of_leadership {s s' : ShardOnDiskStateMachine}
    (h : s'.leadership = s.leadership) (hInv : s.ProcessorInv) : s'.ProcessorInv := by
  simp only [leadership, Prod.mk.injEq] at h
  obtain ⟨hNode, -, hListener, hLeader, -⟩ := h
  simpa only [ProcessorInv, isProcessor, hNode, hListener, hLeader] using hInv

end ShardOnDiskStateMachine

open ShardOnDiskStateMachine

/-! ## Writes leave the leadership alone -/

section Frame

variable {s s' : ShardOnDiskStateMachine} {batch batch' : LocalStore}

theorem checkDedup_leadership {key : Bytes} {ignore : Bool}
    (h : checkDedup s key batch = .ok (ignore, s', batch')) : s'.leadership = s.leadership := by
  simp only [checkDedup, ExceptRun.bind_eq_ok] at h
  obtain ⟨⟨ig, dedupMap⟩, -, hRest⟩ := h
  cases ig with
  | false =>
    simp only [Bool.false_eq_true, if_false, ExceptRun.pure_eq_ok, Prod.mk.injEq] at hRest
    rw [← hRest.2.1]
    rfl
  | true =>
    simp only [if_true, ExceptRun.pure_eq_ok, Prod.mk.injEq] at hRest
    rw [← hRest.2.1]

theorem acceptForwardPut_leadership {timestamp : UInt64} {fill : Bool} {kvPair : Bytes × Bytes}
    (h : acceptForwardPut timestamp fill s batch kvPair = .ok (s', batch')) :
    s'.leadership = s.leadership := by
  simp only [acceptForwardPut] at h
  split at h
  · split at h
    · cases h
    · simp only [Except.ok.injEq, Prod.mk.injEq] at h
      rw [← h.1]
      rfl
  · simp only [Except.ok.injEq, Prod.mk.injEq] at h
    rw [← h.1]
    rfl

theorem handleWritePuts_leadership (env : SMEnv) (timestamp : UInt64) (forward fill : Bool)
    (puts : List (Bytes × Bytes)) :
    ∀ (s : ShardOnDiskStateMachine) (batch : LocalStore) (s' : ShardOnDiskStateMachine)
      (batch' : LocalStore),
      handleWritePuts env timestamp forward fill puts s batch = .ok (s', batch') →
      s'.leadership = s.leadership := by
  induction puts with
  | nil =>
    intro s batch s' batch' h
    simp only [handleWritePuts, Except.ok.injEq, Prod.mk.injEq] at h
    rw [← h.1]
  | cons kvPair puts ih =>
    intro s batch s' batch' h
    unfold handleWritePuts at h
    split at h
    · -- a forwarded put: deduplicated, then accepted or skipped
      split at h
      · cases h
      · split at h
        · cases h
        · rename_i s₁ batch₁ hDedup
          exact (ih _ _ _ _ h).trans (checkDedup_leadership hDedup)
        · rename_i s₁ batch₁ hDedup
          split at h
          · cases h
          · rename_i s₂ batch₂ hAccept
            exact (ih _ _ _ _ h).trans
              ((acceptForwardPut_leadership hAccept).trans (checkDedup_leadership hDedup))
    · -- an ordinary put: written unless its table was dropped
      split at h
      · cases h
      · exact ih _ _ _ _ h
      · exact ih _ _ _ _ h

theorem handleWrite_leadership {env : SMEnv} {offset offset' : Nat} {bytes : Bytes}
    {forward fill : Bool} {timestamp : UInt64}
    (h : handleWrite env s batch offset bytes forward fill timestamp = .ok (s', batch', offset')) :
    s'.leadership = s.leadership := by
  simp only [handleWrite, ExceptRun.bind_eq_ok] at h
  obtain ⟨wb, -, ⟨s₁, batch₁⟩, hPuts, hRest⟩ := h
  by_cases hForward : (forward && !wb.deletes.isEmpty) = true
  · rw [if_pos hForward] at hRest
    exact absurd hRest (by simp)
  · rw [if_neg hForward, ExceptRun.bind_eq_ok] at hRest
    obtain ⟨batch₂, -, hPure⟩ := hRest
    rw [← (Prod.mk.inj (ExceptRun.pure_eq_ok.mp hPure)).1]
    exact handleWritePuts_leadership env timestamp forward fill _ _ _ _ _ hPuts

theorem handleForwardWrites_leadership (env : SMEnv) (timestamp : UInt64) (fill : Bool)
    (cmdBytes : Bytes) (n : Nat) :
    ∀ (s : ShardOnDiskStateMachine) (batch : LocalStore) (offset : Nat)
      (s' : ShardOnDiskStateMachine) (batch' : LocalStore),
      handleForwardWrites env timestamp fill cmdBytes n s batch offset = .ok (s', batch') →
      s'.leadership = s.leadership := by
  induction n with
  | zero =>
    intro s batch offset s' batch' h
    simp only [handleForwardWrites, Except.ok.injEq, Prod.mk.injEq] at h
    rw [← h.1]
  | succ n ih =>
    intro s batch offset s' batch' h
    unfold handleForwardWrites at h
    split at h
    · cases h
    · rename_i s₁ batch₁ offset₁ hWrite
      exact (ih _ _ _ _ _ h).trans (handleWrite_leadership hWrite)

end Frame

/-! ## `handleSetLeader` keeps the invariant -/

theorem toInt64_eq_iff (u : UInt64) (n : Int64) : u.toInt64 = n ↔ u = n.toUInt64 := by
  constructor
  · rintro rfl
    rw [UInt64.toUInt64_toInt64]
  · rintro rfl
    rw [Int64.toInt64_toUInt64]

theorem handleSetLeader_processorInv {s s' : ShardOnDiskStateMachine} {batch batch' : LocalStore}
    {bytes : Bytes} (hInv : s.ProcessorInv)
    (h : handleSetLeader s batch bytes = .ok (s', batch')) :
    s'.ProcessorInv ∧ s.leaderTerm ≤ s'.leaderTerm ∧ s'.nodeID = s.nodeID ∧
      s'.shardID = s.shardID := by
  simp only [handleSetLeader, ExceptRun.bind_eq_ok, orPanic_eq_ok] at h
  obtain ⟨⟨newLeader, _⟩, -, ⟨term, _⟩, -, h⟩ := h
  by_cases hOlder : term.toInt64 ≤ s.leaderTerm
  · -- a command of an older term changes nothing
    rw [if_pos hOlder, ExceptRun.pure_eq_ok, Prod.mk.injEq] at h
    rw [← h.1]
    exact ⟨hInv, Int64.le_refl _, rfl, rfl⟩
  rw [if_neg hOlder] at h
  have hTerm : s.leaderTerm ≤ term.toInt64 := Int64.le_of_lt (Int64.not_le.mp hOlder)
  have hSelf : s.nodeID.toUInt64.toInt64 = s.nodeID := Int64.toInt64_toUInt64 s.nodeID
  by_cases hNew : newLeader = s.nodeID.toUInt64
  · -- this node becomes the leader and holds a listener
    rw [if_pos hNew, ExceptRun.pure_eq_ok, Prod.mk.injEq] at h
    rw [← h.1]
    refine ⟨?_, hTerm, rfl, rfl⟩
    have hIs : newLeader.toInt64 = s.nodeID := (toInt64_eq_iff _ _).mpr hNew
    simp [ProcessorInv, isProcessor, hIs]
  rw [if_neg hNew] at h
  have hNotSelf : newLeader.toInt64 ≠ s.nodeID := fun hEq => hNew ((toInt64_eq_iff _ _).mp hEq)
  have hNotProcessor : (s.nodeID == newLeader.toInt64) = false := by
    simpa using Ne.symm hNotSelf
  by_cases hPrev : s.leaderNodeID = s.nodeID.toUInt64.toInt64
  · -- this node was the leader: it closes its listener
    rw [if_pos hPrev, ExceptRun.pure_eq_ok, Prod.mk.injEq] at h
    rw [← h.1]
    exact ⟨by simp [ProcessorInv, isProcessor, hNotProcessor], hTerm, rfl, rfl⟩
  · -- neither the old nor the new leader: it had no listener and gets none
    rw [if_neg hPrev, ExceptRun.pure_eq_ok, Prod.mk.injEq] at h
    rw [← h.1]
    have hWasNot : (s.nodeID == s.leaderNodeID) = false := by
      rw [hSelf] at hPrev
      simpa using Ne.symm hPrev
    refine ⟨?_, hTerm, rfl, rfl⟩
    simp only [ProcessorInv, isProcessor] at hInv ⊢
    rw [hInv, hWasNot, hNotProcessor]

/-! ## `Update` keeps the invariant -/

theorem applyEntry_processorInv {env : SMEnv} {timestamp : UInt64}
    {s s' : ShardOnDiskStateMachine} {batch batch' : LocalStore} {entry : Entry}
    (hInv : s.ProcessorInv) (h : applyEntry env timestamp (s, batch) entry = .ok (s', batch')) :
    s'.ProcessorInv ∧ s.leaderTerm ≤ s'.leaderTerm := by
  simp only [applyEntry, ExceptRun.bind_eq_ok, orPanic_eq_ok] at h
  obtain ⟨command, -, h⟩ := h
  have hFrame : s'.leadership = s.leadership → s'.ProcessorInv ∧ s.leaderTerm ≤ s'.leaderTerm := by
    intro hEq
    refine ⟨processorInv_of_leadership hEq hInv, ?_⟩
    simp only [leadership, Prod.mk.injEq] at hEq
    rw [hEq.2.2.2.2]
    exact Int64.le_refl _
  by_cases hForward : command = shardStateMachineCommandForwardWrite
  · rw [if_pos hForward, ExceptRun.bind_eq_ok] at h
    obtain ⟨fill, -, h⟩ := h
    rw [ExceptRun.bind_eq_ok] at h
    obtain ⟨numBatches, -, hWrites⟩ := h
    exact hFrame (handleForwardWrites_leadership env timestamp _ _ _ _ _ _ _ _ hWrites)
  rw [if_neg hForward] at h
  by_cases hWrite : command = shardStateMachineCommandWrite
  · rw [if_pos hWrite, ExceptRun.bind_eq_ok] at h
    obtain ⟨⟨s₁, batch₁, offset₁⟩, hHandle, hPure⟩ := h
    obtain ⟨rfl, -⟩ := Prod.mk.inj (ExceptRun.pure_eq_ok.mp hPure)
    exact hFrame (handleWrite_leadership hHandle)
  rw [if_neg hWrite] at h
  by_cases hLeader : command = shardStateMachineCommandSetLeader
  · rw [if_pos hLeader] at h
    obtain ⟨hInv', hTerm, -, -⟩ := handleSetLeader_processorInv hInv h
    exact ⟨hInv', hTerm⟩
  · rw [if_neg hLeader] at h
    exact absurd h (by simp)

theorem Update_processorInv {env : SMEnv} {timestamp : UInt64} {s s' : ShardOnDiskStateMachine}
    {pebble pebble' : LocalStore} {entries : List Entry} {rows : List ForwardRow}
    (hInv : s.ProcessorInv) (h : Update env timestamp s pebble entries = .ok (s', pebble', rows)) :
    s'.ProcessorInv ∧ s.leaderTerm ≤ s'.leaderTerm := by
  simp only [Update, ExceptRun.bind_eq_ok] at h
  obtain ⟨⟨s₁, batch₁⟩, hFold, lastEntry, -, hEnd⟩ := h
  have hRun := ExceptRun.foldlM_invariant
    (fun st : ShardOnDiskStateMachine × LocalStore => st.1.ProcessorInv ∧ s.leaderTerm ≤ st.1.leaderTerm)
    (applyEntry env timestamp)
    (fun st entry st' hP hStep => by
      obtain ⟨hInv', hTerm⟩ := applyEntry_processorInv hP.1 hStep
      exact ⟨hInv', Int64.le_trans hP.2 hTerm⟩)
    entries (s, pebble) (s₁, batch₁) ⟨hInv, Int64.le_refl _⟩ hFold
  by_cases hDeliver : (s₁.shardListener && !s₁.forwardRows.isEmpty) = true
  · rw [if_pos hDeliver, ExceptRun.pure_eq_ok, Prod.mk.injEq] at hEnd
    rw [← hEnd.1]
    exact hRun
  · rw [if_neg hDeliver, ExceptRun.pure_eq_ok, Prod.mk.injEq] at hEnd
    rw [← hEnd.1]
    exact hRun

/-! ## `RecoverFromSnapshot` -/

theorem RecoverFromSnapshot_eq (s : ShardOnDiskStateMachine) (pebble snapshot : LocalStore)
    {leader term lastIndex receiverSequence : UInt64} (hShard : s.shardID.toNat + 1 < 2 ^ 64)
    (hLeader : snapshot (EncodeTableKeyPrefix ShardLeaderTableID s.shardID) =
      some (leaderValue leader term))
    (hSeq : snapshot (sequencesKey s.shardID) = some (sequencesValue lastIndex receiverSequence)) :
    RecoverFromSnapshot s pebble snapshot =
      .ok ({ s with
        dedupSequences := loadDedupCache (restoreSnapshotData pebble snapshot s.shardID) s.shardID,
        receiverSequence, leaderNodeID := leader.toInt64, leaderTerm := term.toInt64 },
        restoreSnapshotData pebble snapshot s.shardID) := by
  have hRestored : ∀ tableID : UInt64,
      restoreSnapshotData pebble snapshot s.shardID (EncodeTableKeyPrefix tableID s.shardID) =
        snapshot (EncodeTableKeyPrefix tableID s.shardID) := by
    intro tableID
    simpa using restoreSnapshotData_tableKey pebble snapshot hShard tableID []
  have hLoadSeq := loadSequences_of_value ((hRestored LastLogIndexReceivedTableID).trans hSeq)
  have hLoadLeader := loadLeaderInfo_of_value ((hRestored ShardLeaderTableID).trans hLeader)
  simp only [RecoverFromSnapshot, hLoadSeq, hLoadLeader, bind, Except.bind, pure, Except.pure]

/-- Single processor per shard. `Update` keeps the invariant over every list of
entries and never lowers the term; `RecoverFromSnapshot` replaces the leader
and the term by those of the snapshot and keeps the listener, so a replica that
held a listener and recovers a snapshot naming another leader still holds it. -/
theorem Update_RecoverFromSnapshot_processor :
    (∀ (env : SMEnv) (timestamp : UInt64) (s : ShardOnDiskStateMachine) (pebble : LocalStore)
      (entries : List Entry) (s' : ShardOnDiskStateMachine) (pebble' : LocalStore)
      (rows : List ForwardRow),
      s.ProcessorInv → Update env timestamp s pebble entries = .ok (s', pebble', rows) →
      s'.ProcessorInv ∧ s.leaderTerm ≤ s'.leaderTerm) ∧
    (∀ (s : ShardOnDiskStateMachine) (pebble snapshot : LocalStore)
      (leader term lastIndex receiverSequence : UInt64),
      s.shardID.toNat + 1 < 2 ^ 64 →
      snapshot (EncodeTableKeyPrefix ShardLeaderTableID s.shardID) = some (leaderValue leader term) →
      snapshot (sequencesKey s.shardID) = some (sequencesValue lastIndex receiverSequence) →
      ∃ s' pebble', RecoverFromSnapshot s pebble snapshot = .ok (s', pebble') ∧
        s'.shardListener = s.shardListener ∧ s'.leaderNodeID = leader.toInt64 ∧
        s'.leaderTerm = term.toInt64 ∧
        (s.shardListener = true → leader ≠ s.nodeID.toUInt64 → ¬ s'.ProcessorInv)) := by
  refine ⟨fun env timestamp s pebble entries s' pebble' rows hInv h => Update_processorInv hInv h, ?_⟩
  intro s pebble snapshot leader term lastIndex receiverSequence hShard hLeader hSeq
  refine ⟨_, _, RecoverFromSnapshot_eq s pebble snapshot hShard hLeader hSeq, rfl, rfl, rfl, ?_⟩
  intro hListener hOther hInv
  -- the listener is still held, but the recorded leader is another node
  have hNot : (s.nodeID == leader.toInt64) = false := by
    have hNe : leader.toInt64 ≠ s.nodeID := fun hEq => hOther ((toInt64_eq_iff _ _).mp hEq)
    simpa using Ne.symm hNe
  simp only [ProcessorInv, isProcessor, hListener, hNot] at hInv
  cases hInv

/-- Node 1 processes shard 1000 in term 5. A set-leader command for node 1 in
term 6 keeps it the processor. A snapshot recording node 2 in term 3 leaves it
holding its listener while node 2 is the recorded leader, and lowers its term
to 3. -/
theorem Update_RecoverFromSnapshot_processor_snapshot :
    (∃ s₁ pebble₁, Update ⟨false, fun _ => false⟩ 0 ⟨1, 1000, true, fun _ => none, 0, [], 1, 5⟩
        (fun _ => none) [⟨9, [3, 1, 0, 0, 0, 0, 0, 0, 0, 6, 0, 0, 0, 0, 0, 0, 0]⟩] =
        .ok (s₁, pebble₁, []) ∧ s₁.ProcessorInv ∧ s₁.leaderTerm = 6) ∧
    ∃ s' pebble', RecoverFromSnapshot ⟨1, 1000, true, fun _ => none, 0, [], 1, 5⟩ (fun _ => none)
        (KVStore.put (KVStore.put (fun _ => none) (EncodeTableKeyPrefix ShardLeaderTableID 1000)
          (leaderValue 2 3)) (sequencesKey 1000) (sequencesValue 7 0)) = .ok (s', pebble') ∧
      s'.shardListener = true ∧ ¬ s'.ProcessorInv ∧ s'.leaderTerm = 3 := by
  have hUpdate : Update ⟨false, fun _ => false⟩ 0 ⟨1, 1000, true, fun _ => none, 0, [], 1, 5⟩
      (fun _ => none) [⟨9, [3, 1, 0, 0, 0, 0, 0, 0, 0, 6, 0, 0, 0, 0, 0, 0, 0]⟩] =
      .ok (⟨1, 1000, true, fun _ => none, 0, [], 1, 6⟩,
        writeSequences (KVStore.put (KVStore.put (fun _ => none)
          (EncodeTableKeyPrefix ShardLeaderTableID 1000) (leaderValue 1 6)) (sequencesKey 1000) [])
          9 0 1000, []) := rfl
  obtain ⟨hInv, -⟩ := Update_RecoverFromSnapshot_processor.1 _ _ _ _ _ _ _ _ (by decide) hUpdate
  obtain ⟨s', pebble', hRun, hListener, -, hTerm, hBroken⟩ :=
    Update_RecoverFromSnapshot_processor.2 ⟨1, 1000, true, fun _ => none, 0, [], 1, 5⟩ (fun _ => none)
      (KVStore.put (KVStore.put (fun _ => none) (EncodeTableKeyPrefix ShardLeaderTableID 1000)
        (leaderValue 2 3)) (sequencesKey 1000) (sequencesValue 7 0)) 2 3 7 0
      (by decide) (by decide) (by decide)
  exact ⟨⟨_, _, hUpdate, hInv, rfl⟩, s', pebble', hRun, hListener, hBroken rfl (by decide), hTerm⟩

end PranaDB
