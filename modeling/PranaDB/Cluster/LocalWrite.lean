import PranaDB.Cluster.WriteBatch

/-! # Writing a batch to the local store

The two `cluster.Cluster` implementations, `Dragon` (`cluster/dragon/dragon.go`)
and `FakeCluster` (`cluster/fake/fake_cluster.go`), each write a `WriteBatch`
straight into the node's store with `WriteBatchLocally`. Both check the shard
id and walk the batch's puts and deletes; only the fake one walks its delete
ranges.

Dragon's pebble batch is modelled by the store it leaves once applied (the
writes of a pebble batch apply in order, and `Apply` applies all of them or
none). The fake cluster writes into its btree as it goes; on an error the
model returns only the error.
-/

namespace PranaDB
set_option autoImplicit false

abbrev LocalStore := KVStore.Store Bytes Bytes

/-- `cluster.DataShardIDBase`: shard ids below it are system shards. -/
def DataShardIDBase : UInt64 := 1000

def invalidShardPanic (shardID : UInt64) : ClusterError :=
  .panic ("invalid shard cluster id " ++ toString shardID)

/-- `Dragon.WriteBatchLocally`: a pebble batch with a `Set` for every put and a
`Delete` for every delete, then `Apply`. -/
def Dragon.WriteBatchLocally (pebble : LocalStore) (batch : WriteBatch) :
    Except ClusterError LocalStore :=
  if batch.ShardID < DataShardIDBase then .error (invalidShardPanic batch.ShardID) else do
    let pebBatch ← batch.ForEachPut (fun k v pebBatch => pure (KVStore.put pebBatch k v)) pebble
    batch.ForEachDelete (fun k pebBatch => pure (KVStore.erase pebBatch k)) pebBatch

/-- `FakeCluster.deleteInternal`: `btree.Delete`, an error when nothing was there. -/
def FakeCluster.deleteInternal (btree : LocalStore) (key : Bytes) : Except ClusterError LocalStore :=
  if (btree key).isSome then .ok (KVStore.erase btree key) else .error (.keyNotFound key)

/-- `FakeCluster.deleteAllDataInRange`: `localScanWithBtree` collects the pairs
of `[startPrefix, endPrefix)` and `deleteInternal` removes each; every one of
them is present, so no delete fails and the range is gone. -/
def FakeCluster.deleteAllDataInRange (btree : LocalStore) (startPrefix endPrefix : Bytes) :
    Except ClusterError LocalStore :=
  pure (KVStore.eraseRange btree startPrefix endPrefix)

/-- `FakeCluster.writeBatchInternal` with `forward = false`: the puts, the
deletes, then the delete ranges. -/
def FakeCluster.writeBatchInternal (btree : LocalStore) (batch : WriteBatch) :
    Except ClusterError LocalStore :=
  if batch.ShardID < DataShardIDBase then .error (invalidShardPanic batch.ShardID) else do
    let btree ← batch.ForEachPut (fun k v btree => pure (KVStore.put btree k v)) btree
    let btree ← batch.ForEachDelete (fun key btree => FakeCluster.deleteInternal btree key) btree
    batch.ForEachDeleteRange
      (fun startKey endKey btree => FakeCluster.deleteAllDataInRange btree startKey endKey) btree

/-- `FakeCluster.WriteBatchLocally`, through `WriteBatch`. -/
def FakeCluster.WriteBatchLocally (btree : LocalStore) (batch : WriteBatch) :
    Except ClusterError LocalStore :=
  FakeCluster.writeBatchInternal btree batch

/-! ## What each implementation leaves in the store -/

section Receivers

variable {wb : WriteBatch} {b : KVStore.Batch Bytes Bytes}

theorem ForEachPut_put (h : wb.Holds b) (s : LocalStore) :
    wb.ForEachPut (fun k v s => pure (KVStore.put s k v)) s = .ok (KVStore.putAll s b.puts) := by
  rw [WriteBatch.ForEachPut_eq h]
  exact List.foldlM_pure

theorem ForEachDelete_erase (h : wb.Holds b) (s : LocalStore) :
    wb.ForEachDelete (fun k s => pure (KVStore.erase s k)) s = .ok (KVStore.eraseAll s b.deletes) := by
  rw [WriteBatch.ForEachDelete_eq h]
  exact List.foldlM_pure

theorem foldlM_deleteInternal (ks : List Bytes) :
    ∀ s : LocalStore, KVStore.allPresent s ks = true →
      ks.foldlM (fun s k => FakeCluster.deleteInternal s k) s = .ok (KVStore.eraseAll s ks) := by
  induction ks with
  | nil => intro s _; rfl
  | cons k ks ih =>
    intro s hPresent
    simp only [KVStore.allPresent_cons, Bool.and_eq_true] at hPresent
    simp only [List.foldlM_cons, FakeCluster.deleteInternal, if_pos hPresent.1,
      KVStore.eraseAll_cons]
    exact ih _ hPresent.2

theorem foldlM_deleteInternal_of_absent (ks : List Bytes) :
    ∀ s : LocalStore, KVStore.allPresent s ks = false →
      ∃ k ∈ ks, ks.foldlM (fun s k => FakeCluster.deleteInternal s k) s = .error (.keyNotFound k) := by
  induction ks with
  | nil => intro s h; simp at h
  | cons k ks ih =>
    intro s hAbsent
    rw [List.foldlM_cons]
    by_cases hk : (s k).isSome = true
    · -- `k` is there: the error comes from a later delete
      have hHead : FakeCluster.deleteInternal s k = .ok (KVStore.erase s k) := if_pos hk
      rw [KVStore.allPresent_cons, hk, Bool.true_and] at hAbsent
      obtain ⟨k', hk', hErr⟩ := ih _ hAbsent
      exact ⟨k', List.mem_cons_of_mem k hk', by rw [hHead]; exact hErr⟩
    · have hHead : FakeCluster.deleteInternal s k = .error (.keyNotFound k) := if_neg hk
      exact ⟨k, List.mem_cons_self, by rw [hHead]; rfl⟩

theorem ForEachDeleteRange_deleteAllDataInRange (h : wb.Holds b) (s : LocalStore) :
    wb.ForEachDeleteRange
        (fun startKey endKey s => FakeCluster.deleteAllDataInRange s startKey endKey) s =
      .ok (KVStore.eraseRanges s b.deleteRanges) := by
  rw [WriteBatch.ForEachDeleteRange_eq h]
  exact List.foldlM_pure

end Receivers

section Spec

variable {wb : WriteBatch} {b : KVStore.Batch Bytes Bytes}

theorem Dragon.WriteBatchLocally_eq (h : wb.Holds b) (hShard : DataShardIDBase ≤ wb.ShardID)
    (s : LocalStore) : Dragon.WriteBatchLocally s wb = .ok (b.withoutRanges.apply s) := by
  rw [Dragon.WriteBatchLocally, if_neg (UInt64.not_lt.mpr hShard), ForEachPut_put h]
  exact ForEachDelete_erase h _

theorem FakeCluster.WriteBatchLocally_eq (h : wb.Holds b) (hShard : DataShardIDBase ≤ wb.ShardID)
    (s : LocalStore) (hPresent : KVStore.allPresent (KVStore.putAll s b.puts) b.deletes = true) :
    FakeCluster.WriteBatchLocally s wb = .ok (b.apply s) := by
  have hDeletes := foldlM_deleteInternal b.deletes _ hPresent
  rw [FakeCluster.WriteBatchLocally, FakeCluster.writeBatchInternal, if_neg (UInt64.not_lt.mpr hShard),
    ForEachPut_put h]
  simp only [bind, Except.bind]
  rw [WriteBatch.ForEachDelete_eq h, hDeletes]
  exact ForEachDeleteRange_deleteAllDataInRange h _

theorem FakeCluster.WriteBatchLocally_of_absent (h : wb.Holds b)
    (hShard : DataShardIDBase ≤ wb.ShardID) (s : LocalStore)
    (hAbsent : KVStore.allPresent (KVStore.putAll s b.puts) b.deletes = false) :
    ∃ k ∈ b.deletes, FakeCluster.WriteBatchLocally s wb = .error (.keyNotFound k) := by
  obtain ⟨k, hk, hErr⟩ := foldlM_deleteInternal_of_absent b.deletes _ hAbsent
  refine ⟨k, hk, ?_⟩
  rw [FakeCluster.WriteBatchLocally, FakeCluster.writeBatchInternal, if_neg (UInt64.not_lt.mpr hShard),
    ForEachPut_put h]
  simp only [bind, Except.bind]
  rw [WriteBatch.ForEachDelete_eq h, hErr]

/-- A delete that finds nothing parts the two implementations: Dragon's
pebble batch writes the rest of the batch, the fake cluster fails. -/
theorem WriteBatchLocally_Dragon_FakeCluster_absent (h : wb.Holds b) (hShard : DataShardIDBase ≤ wb.ShardID)
    (s : LocalStore) (hAbsent : KVStore.allPresent (KVStore.putAll s b.puts) b.deletes = false) :
    Dragon.WriteBatchLocally s wb = .ok (b.withoutRanges.apply s) ∧
      ∃ k ∈ b.deletes, FakeCluster.WriteBatchLocally s wb = .error (.keyNotFound k) :=
  ⟨Dragon.WriteBatchLocally_eq h hShard s, FakeCluster.WriteBatchLocally_of_absent h hShard s hAbsent⟩

theorem WriteBatchLocally_Dragon_FakeCluster_absent_empty_store :
    (NewWriteBatch 1000 |>.AddDelete [2]).Holds ⟨[], [[2]], []⟩ ∧ DataShardIDBase ≤ 1000 ∧
      KVStore.allPresent (KVStore.putAll (fun _ => none : LocalStore) []) [[2]] = false ∧
      Dragon.WriteBatchLocally (fun _ => none) (NewWriteBatch 1000 |>.AddDelete [2]) =
        .ok ((⟨[], [[2]], []⟩ : KVStore.Batch Bytes Bytes).withoutRanges.apply fun _ => none) ∧
      ∃ k ∈ [[2]], FakeCluster.WriteBatchLocally (fun _ => none) (NewWriteBatch 1000 |>.AddDelete [2]) =
        .error (.keyNotFound k) := by
  have hHolds : (NewWriteBatch 1000 |>.AddDelete [2]).Holds ⟨[], [[2]], []⟩ :=
    (WriteBatch.Holds.newWriteBatch 1000).addDelete (by decide)
  exact ⟨hHolds, by decide, rfl, WriteBatchLocally_Dragon_FakeCluster_absent hHolds (by decide) _ rfl⟩

end Spec

end PranaDB
