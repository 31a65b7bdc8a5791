import PranaDB.Cluster.LocalWrite
import PranaDB.Table.Keys

/-! # The shard state machine (`cluster/dragon/shard_odsm.go`, `cluster/dedup.go`)

Every replica of a data shard runs a `ShardOnDiskStateMachine`. `Update`
applies a list of Raft entries into one pebble batch: a write, a forwarded
write (rows sent from another shard, deduplicated by originator and sequence
and renumbered with the receiver sequence), or a set-leader command that
records which node processes the shard. After the entries it records the last
log index and the receiver sequence, applies the batch, and hands the
forwarded rows to the shard listener if the replica has one. `Open` (after a
restart) and `RecoverFromSnapshot` rebuild the in-memory state from pebble.

The pebble batch is modelled as the store it leaves once applied. Every error
of the model is a point where Go panics (a slice or a read past the end of a
buffer, a key of another shard, an unknown command): the replica stops, so no
in-memory state survives an error. The table of dropped table ids, an LRU
cache that `tableDropped` fills from outside, and the `TestServer` switch are
the environment `SMEnv`.
-/

namespace PranaDB
set_option autoImplicit false

def ReceiverTableID : UInt64 := 1
def LastLogIndexReceivedTableID : UInt64 := 4
def ForwardDedupTableID : UInt64 := 11
def ShardLeaderTableID : UInt64 := 12

def shardStateMachineCommandWrite : UInt8 := 1
def shardStateMachineCommandForwardWrite : UInt8 := 2
def shardStateMachineCommandSetLeader : UInt8 := 3

structure ForwardRow where
  ReceiverSequence : UInt64
  RemoteConsumerID : UInt64
  KeyBytes : Bytes
  RowBytes : Bytes
  WriteTime : UInt64
  Fill : Bool
deriving DecidableEq, Repr

/-- `statemachine.Entry`: the fields `Update` reads. -/
structure Entry where
  Index : UInt64
  Cmd : Bytes
deriving DecidableEq, Repr

/-- The fields of `ShardOnDiskStateMachine` that `Update`, `Open` and
`RecoverFromSnapshot` read or write; `shardListener` is whether the replica
holds a shard listener, that is, processes the shard. -/
structure ShardOnDiskStateMachine where
  nodeID : Int64
  shardID : UInt64
  shardListener : Bool
  dedupSequences : Bytes → Option UInt64
  receiverSequence : UInt64
  forwardRows : List ForwardRow
  leaderNodeID : Int64
  leaderTerm : Int64

/-- What the state machine reads from its node: `cnf.TestServer`, and whether a
table id is in the cache of dropped tables. -/
structure SMEnv where
  TestServer : Bool
  dropped : UInt64 → Bool

/-- The panics of the state machine. -/
inductive SMError where
  /-- A read or a slice past the end of a buffer. -/
  | outOfRange
  | panic (msg : String)
deriving DecidableEq, Repr

def orPanic {α : Type} : Option α → Except SMError α
  | some a => .ok a
  | none => .error .outOfRange

@[simp] theorem orPanic_some {α : Type} (a : α) : orPanic (some a) = .ok a := rfl

@[simp] theorem orPanic_eq_ok {α : Type} {o : Option α} {a : α} : orPanic o = .ok a ↔ o = some a := by
  cases o <;> simp [orPanic]

/-- `newShardODStateMachine`: no listener, no dedup entries, zero sequences. -/
def newShardODStateMachine (nodeID : Int64) (shardID : UInt64) : ShardOnDiskStateMachine :=
  ⟨nodeID, shardID, false, fun _ => none, 0, [], 0, 0⟩

namespace ShardOnDiskStateMachine

def isProcessor (s : ShardOnDiskStateMachine) : Bool := s.nodeID == s.leaderNodeID

end ShardOnDiskStateMachine

/-! ## Deduplication of forwarded rows -/

/-- `cluster.DoDedup` (its unused shard id left out): a dedup key is an
originator id of 16 bytes and a big-endian sequence; a key is a duplicate when
the originator's last accepted sequence is at least its own, and otherwise its
sequence becomes the originator's. -/
def DoDedup (dedupKey : Bytes) (dedupMap : Bytes → Option UInt64) :
    Except SMError (Bool × (Bytes → Option UInt64)) := do
  let oid := dedupKey.take 16
  let (sequence, _) ← orPanic (ReadUint64FromBufferBE dedupKey 16)
  match dedupMap oid with
  | some prevSequence =>
    if prevSequence ≥ sequence then pure (true, dedupMap)
    else pure (false, KVStore.put dedupMap oid sequence)
  | none => pure (false, KVStore.put dedupMap oid sequence)

def dedupRowKey (shardID : UInt64) (oid : Bytes) : Bytes :=
  EncodeTableKeyPrefix ForwardDedupTableID shardID ++ oid

/-- `checkDedup`: `DoDedup`, and for a key that is not a duplicate the dedup
row `originator ↦ sequence` in the batch. -/
def checkDedup (s : ShardOnDiskStateMachine) (key : Bytes) (batch : LocalStore) :
    Except SMError (Bool × ShardOnDiskStateMachine × LocalStore) := do
  let (ignore, dedupMap) ← DoDedup key s.dedupSequences
  if ignore then pure (true, s, batch)
  else
    let dupID := dedupRowKey s.shardID (key.take 16)
    pure (false, { s with dedupSequences := dedupMap }, KVStore.put batch dupID (key.drop 16))

/-- `checkKey`: a key of another shard is a panic; a key of a dropped table is
not written. -/
def checkKey (env : SMEnv) (s : ShardOnDiskStateMachine) (key : Bytes) : Except SMError Bool :=
  if env.TestServer then pure true else do
    let (sid, _) ← orPanic (ReadUint64FromBufferBE key 0)
    if s.shardID ≠ sid then
      throw (.panic ("invalid key in sm write, expected " ++ toString s.shardID ++ " actual " ++
        toString sid))
    else do
      let (tableID, _) ← orPanic (ReadUint64FromBufferBE key 8)
      pure !(env.dropped tableID)

/-! ## Reading a serialized write batch -/

/-- `numPuts` (or `numDeleteRanges`) length-prefixed pairs from `offset`. -/
def readPairs (buff : Bytes) : Nat → Nat → Except SMError (List (Bytes × Bytes) × Nat)
  | 0, offset => .ok ([], offset)
  | n + 1, offset => do
    let (k, offset) ← orPanic (readBytesWithLength buff offset)
    let (v, offset) ← orPanic (readBytesWithLength buff offset)
    let (rest, offset) ← readPairs buff n offset
    pure ((k, v) :: rest, offset)

/-- `numDeletes` length-prefixed keys from `offset`. -/
def readKeys (buff : Bytes) : Nat → Nat → Except SMError (List Bytes × Nat)
  | 0, offset => .ok ([], offset)
  | n + 1, offset => do
    let (k, offset) ← orPanic (readBytesWithLength buff offset)
    let (rest, offset) ← readKeys buff n offset
    pure (k :: rest, offset)

/-- What `deserializeWriteBatch` returns. -/
structure DeserializedBatch where
  puts : List (Bytes × Bytes)
  deletes : List Bytes
  deleteRanges : List (Bytes × Bytes)
  batchID : Option Bytes
  offsetOut : Nat

/-- `deserializeWriteBatch`: the counts, the groups, and the batch id. The key
of a forwarded put gets the current receiver sequence appended. -/
def deserializeWriteBatch (s : ShardOnDiskStateMachine) (buff : Bytes) (offset : Nat)
    (forward : Bool) : Except SMError DeserializedBatch := do
  let (numPuts, offset) ← orPanic (ReadUint32FromBufferLE buff offset)
  let (numDeletes, offset) ← orPanic (ReadUint32FromBufferLE buff offset)
  let (numDeleteRanges, offset) ← orPanic (ReadUint32FromBufferLE buff offset)
  let (puts, offset) ← readPairs buff numPuts.toNat offset
  let puts := if forward then puts.map fun p => (AppendUint64ToBufferBE p.1 s.receiverSequence, p.2)
    else puts
  let (deletes, offset) ← readKeys buff numDeletes.toNat offset
  let (deleteRanges, offset) ← readPairs buff numDeleteRanges.toNat offset
  let hasBatchID ← orPanic (buff[offset]?)
  let offset := offset + 1
  if hasBatchID == 1 then
    if offset + 16 ≤ buff.length then
      pure ⟨puts, deletes, deleteRanges, some ((buff.drop offset).take 16), offset + 16⟩
    else throw .outOfRange
  else pure ⟨puts, deletes, deleteRanges, none, offset⟩

/-! ## Applying one write batch -/

def receiverKey (shardID receiverSequence : UInt64) (remoteConsumerBytes : Bytes) : Bytes :=
  AppendUint64ToBufferBE (EncodeTableKeyPrefix ReceiverTableID shardID) receiverSequence ++
    remoteConsumerBytes

/-- One forwarded put that is not a duplicate: the next receiver sequence, the
row in the receiver table, and, on the processor, the row for the listener. -/
def acceptForwardPut (timestamp : UInt64) (fill : Bool) (s : ShardOnDiskStateMachine)
    (batch : LocalStore) (kvPair : Bytes × Bytes) :
    Except SMError (ShardOnDiskStateMachine × LocalStore) :=
  let remoteConsumerBytes := kvPair.1.drop 24
  -- incremented before it is used: receiver sequences start at 1
  let s := { s with receiverSequence := s.receiverSequence + 1 }
  let key := receiverKey s.shardID s.receiverSequence remoteConsumerBytes
  let batch := KVStore.put batch key kvPair.2
  if s.isProcessor then
    match ReadUint64FromBufferBE remoteConsumerBytes 0 with
    | none => .error .outOfRange
    | some (remoteConsumerID, _) =>
      .ok ({ s with forwardRows := s.forwardRows ++
        [⟨s.receiverSequence, remoteConsumerID, key, kvPair.2, timestamp, fill⟩] }, batch)
  else .ok (s, batch)

def handleWritePuts (env : SMEnv) (timestamp : UInt64) (forward fill : Bool) :
    List (Bytes × Bytes) → ShardOnDiskStateMachine → LocalStore →
      Except SMError (ShardOnDiskStateMachine × LocalStore)
  | [], s, batch => .ok (s, batch)
  | kvPair :: puts, s, batch =>
    if forward then
      -- the first 24 bytes are the dedup key: `kvPair.Key[:24]`
      if kvPair.1.length < 24 then .error .outOfRange else
      match checkDedup s (kvPair.1.take 24) batch with
      | .error e => .error e
      | .ok (true, s, batch) => handleWritePuts env timestamp forward fill puts s batch
      | .ok (false, s, batch) =>
        match acceptForwardPut timestamp fill s batch kvPair with
        | .error e => .error e
        | .ok (s, batch) => handleWritePuts env timestamp forward fill puts s batch
    else
      match checkKey env s kvPair.1 with
      | .error e => .error e
      | .ok false => handleWritePuts env timestamp forward fill puts s batch
      | .ok true => handleWritePuts env timestamp forward fill puts s (KVStore.put batch kvPair.1 kvPair.2)

def handleWriteDeletes (env : SMEnv) (s : ShardOnDiskStateMachine) (batch : LocalStore)
    (deletes : List Bytes) : Except SMError LocalStore :=
  deletes.foldlM (fun batch k => do
    let _ ← checkKey env s k
    pure (KVStore.erase batch k)) batch

/-- `handleWrite`: the state machine, the batch and the offset after the write batch. -/
def handleWrite (env : SMEnv) (s : ShardOnDiskStateMachine) (batch : LocalStore) (offset : Nat)
    (bytes : Bytes) (forward fill : Bool) (timestamp : UInt64) :
    Except SMError (ShardOnDiskStateMachine × LocalStore × Nat) := do
  let wb ← deserializeWriteBatch s bytes offset forward
  let (s, batch) ← handleWritePuts env timestamp forward fill wb.puts s batch
  if forward && !wb.deletes.isEmpty then throw (.panic "deletes not supported for forward write")
  else do
    let batch ← handleWriteDeletes env s batch wb.deletes
    pure (s, KVStore.eraseRanges batch wb.deleteRanges, wb.offsetOut)

/-! ## Leadership -/

def leaderValue (nodeID term : UInt64) : Bytes :=
  AppendUint64ToBufferLE (AppendUint64ToBufferLE [] nodeID) term

/-- `handleSetLeader`: a command of an older or the same term is ignored;
otherwise the leader and the term are recorded and persisted, the new leader
gets a listener and a node that stops being leader closes its own. -/
def handleSetLeader (s : ShardOnDiskStateMachine) (batch : LocalStore) (bytes : Bytes) :
    Except SMError (ShardOnDiskStateMachine × LocalStore) := do
  let (newLeaderNodeID, _) ← orPanic (ReadUint64FromBufferLE bytes 1)
  let (term, _) ← orPanic (ReadUint64FromBufferLE bytes 9)
  -- replayed logs and competing commands of older terms are ignored
  if term.toInt64 ≤ s.leaderTerm then pure (s, batch) else
  let batch := KVStore.put batch (EncodeTableKeyPrefix ShardLeaderTableID s.shardID)
    (leaderValue newLeaderNodeID term)
  let prevLeaderNodeID := s.leaderNodeID
  let s := { s with leaderNodeID := newLeaderNodeID.toInt64, leaderTerm := term.toInt64 }
  let thisNodeID := s.nodeID.toUInt64
  if newLeaderNodeID = thisNodeID then
    -- a listener is created if there is none
    pure ({ s with shardListener := true }, batch)
  else if prevLeaderNodeID = thisNodeID.toInt64 then
    -- we were leader but not any more
    pure ({ s with shardListener := false }, batch)
  else pure (s, batch)

/-! ## `Update` -/

def handleForwardWrites (env : SMEnv) (timestamp : UInt64) (fill : Bool) (cmdBytes : Bytes) :
    Nat → ShardOnDiskStateMachine → LocalStore → Nat →
      Except SMError (ShardOnDiskStateMachine × LocalStore)
  | 0, s, batch, _ => .ok (s, batch)
  | n + 1, s, batch, offset =>
    match handleWrite env s batch offset cmdBytes true fill timestamp with
    | .error e => .error e
    | .ok (s, batch, offset) => handleForwardWrites env timestamp fill cmdBytes n s batch offset

def applyEntry (env : SMEnv) (timestamp : UInt64) (st : ShardOnDiskStateMachine × LocalStore)
    (entry : Entry) : Except SMError (ShardOnDiskStateMachine × LocalStore) := do
  let (s, batch) := st
  let cmdBytes := entry.Cmd
  let command ← orPanic cmdBytes[0]?
  if command = shardStateMachineCommandForwardWrite then
    let fill ← orPanic cmdBytes[1]?
    let numBatches ← orPanic cmdBytes[2]?
    handleForwardWrites env timestamp (fill == 1) cmdBytes numBatches.toNat s batch 3
  else if command = shardStateMachineCommandWrite then do
    let (s, batch, _) ← handleWrite env s batch 1 cmdBytes false false timestamp
    pure (s, batch)
  else if command = shardStateMachineCommandSetLeader then handleSetLeader s batch cmdBytes
  else throw (.panic ("unexpected command " ++ toString command))

def sequencesKey (shardID : UInt64) : Bytes :=
  EncodeTableKeyPrefix LastLogIndexReceivedTableID shardID

def sequencesValue (lastRaftIndex receiverSequence : UInt64) : Bytes :=
  AppendUint64ToBufferLE (AppendUint64ToBufferLE [] lastRaftIndex) receiverSequence

def writeSequences (batch : LocalStore) (lastRaftIndex receiverSequence shardID : UInt64) :
    LocalStore :=
  KVStore.put batch (sequencesKey shardID) (sequencesValue lastRaftIndex receiverSequence)

/-- `Update`: the new state machine, pebble after the batch is applied, and the
forwarded rows handed to the shard listener. -/
def Update (env : SMEnv) (timestamp : UInt64) (s : ShardOnDiskStateMachine) (pebble : LocalStore)
    (entries : List Entry) : Except SMError (ShardOnDiskStateMachine × LocalStore × List ForwardRow) := do
  let (s, batch) ← entries.foldlM (applyEntry env timestamp) (s, pebble)
  let lastEntry ← orPanic entries.getLast?
  let lastLogIndex := lastEntry.Index
  -- the Go code drops the value it appends to `vb`, so the first write is empty;
  -- `writeSequences` then overwrites the same key
  let batch := KVStore.put batch (sequencesKey s.shardID) []
  let batch := writeSequences batch lastLogIndex s.receiverSequence s.shardID
  if s.shardListener && !s.forwardRows.isEmpty then
    pure ({ s with forwardRows := [] }, batch, s.forwardRows)
  else pure (s, batch, [])

/-! ## Rebuilding the state from pebble -/

/-- `loadDedupCache`: the map the scan of the forward dedup table of the shard
builds, as a lookup. The table holds the rows `checkDedup` writes, whose key is
the table prefix and an originator id of 16 bytes. -/
def loadDedupCache (pebble : LocalStore) (shardID : UInt64) : Bytes → Option UInt64 :=
  fun oid =>
    if oid.length = 16 then
      (pebble (dedupRowKey shardID oid)).bind fun v => (ReadUint64FromBufferBE v 0).map Prod.fst
    else none

/-- `loadSequences`: the last log index and the receiver sequence, zero when
nothing was written. -/
def loadSequences (pebble : LocalStore) (shardID : UInt64) : Except SMError (UInt64 × UInt64) :=
  match pebble (sequencesKey shardID) with
  | none => .ok (0, 0)
  | some vb => do
    let (lastRaftIndex, _) ← orPanic (ReadUint64FromBufferLE vb 0)
    let (receiverSequence, _) ← orPanic (ReadUint64FromBufferLE vb 8)
    pure (lastRaftIndex, receiverSequence)

/-- `loadLeaderInfo`: the recorded leader and term, `-1` when there is none. -/
def loadLeaderInfo (pebble : LocalStore) (shardID : UInt64) : Except SMError (Int64 × Int64) :=
  match pebble (EncodeTableKeyPrefix ShardLeaderTableID shardID) with
  | none => .ok (-1, -1)
  | some vb => do
    let (nodeID, _) ← orPanic (ReadUint64FromBufferLE vb 0)
    let (term, _) ← orPanic (ReadUint64FromBufferLE vb 8)
    pure (nodeID.toInt64, term.toInt64)

/-- `Open`: the dedup map, the receiver sequence and the leader from pebble;
returns the last applied log index. -/
def Open (s : ShardOnDiskStateMachine) (pebble : LocalStore) :
    Except SMError (ShardOnDiskStateMachine × UInt64) := do
  let dedupSequences := loadDedupCache pebble s.shardID
  let (lastRaftIndex, receiverSequence) ← loadSequences pebble s.shardID
  let (leaderNodeID, term) ← loadLeaderInfo pebble s.shardID
  pure ({ s with dedupSequences, receiverSequence, leaderNodeID, leaderTerm := term }, lastRaftIndex)

/-- `restoreSnapshotDataFromReader`: the shard's key range `[shardID, shardID + 1)`
is deleted and the snapshot's pairs are ingested. -/
def restoreSnapshotData (pebble snapshot : LocalStore) (shardID : UInt64) : LocalStore :=
  fun k =>
    if KVStore.InRange (AppendUint64ToBufferBE [] shardID) (AppendUint64ToBufferBE [] (shardID + 1)) k
    then snapshot k else pebble k

/-- `RecoverFromSnapshot`: pebble is restored, and the dedup map, the receiver
sequence, the leader and the term are loaded from it. The listener is left as
it was. -/
def RecoverFromSnapshot (s : ShardOnDiskStateMachine) (pebble snapshot : LocalStore) :
    Except SMError (ShardOnDiskStateMachine × LocalStore) := do
  let pebble := restoreSnapshotData pebble snapshot s.shardID
  let dedupSequences := loadDedupCache pebble s.shardID
  let (_, receiverSequence) ← loadSequences pebble s.shardID
  let (leaderNodeID, term) ← loadLeaderInfo pebble s.shardID
  pure ({ s with dedupSequences, receiverSequence, leaderNodeID, leaderTerm := term }, pebble)

/-! ## The rows the loaders read back -/

theorem read_two_words (a b : UInt64) :
    ReadUint64FromBufferLE (AppendUint64ToBufferLE (AppendUint64ToBufferLE [] a) b) 0 = some (a, 8) ∧
      ReadUint64FromBufferLE (AppendUint64ToBufferLE (AppendUint64ToBufferLE [] a) b) 8 =
        some (b, 16) := by
  have hSplit : AppendUint64ToBufferLE (AppendUint64ToBufferLE [] a) b =
      AppendUint64ToBufferLE [] a ++ AppendUint64ToBufferLE [] b := by
    simp [AppendUint64ToBufferLE]
  have hLen : (AppendUint64ToBufferLE [] a).length = 8 := by simp [AppendUint64ToBufferLE]
  have hFirst := ReadUint64FromBufferLE_append [] (AppendUint64ToBufferLE [] b) a
  have hSecond := ReadUint64FromBufferLE_append (AppendUint64ToBufferLE [] a) [] b
  rw [List.append_nil, hLen] at hSecond
  exact ⟨by rw [hSplit]; exact hFirst, hSecond⟩

theorem loadSequences_of_value {pebble : LocalStore} {shardID a b : UInt64}
    (h : pebble (sequencesKey shardID) = some (sequencesValue a b)) :
    loadSequences pebble shardID = .ok (a, b) := by
  obtain ⟨hA, hB⟩ := read_two_words a b
  simp [loadSequences, h, sequencesValue, hA, hB, orPanic, bind, Except.bind, pure, Except.pure]

theorem loadLeaderInfo_of_value {pebble : LocalStore} {shardID n t : UInt64}
    (h : pebble (EncodeTableKeyPrefix ShardLeaderTableID shardID) = some (leaderValue n t)) :
    loadLeaderInfo pebble shardID = .ok (n.toInt64, t.toInt64) := by
  obtain ⟨hA, hB⟩ := read_two_words n t
  simp [loadLeaderInfo, h, leaderValue, hA, hB, orPanic, bind, Except.bind, pure, Except.pure]

theorem inRange_shardRange (shardID : UInt64) (hShard : shardID.toNat + 1 < 2 ^ 64) (y : Bytes) :
    KVStore.InRange (AppendUint64ToBufferBE [] shardID) (AppendUint64ToBufferBE [] (shardID + 1))
      (AppendUint64ToBufferBE [] shardID ++ y) := by
  have hSucc : (shardID + 1).toNat = shardID.toNat + 1 := by
    rw [UInt64.toNat_add, UInt64.toNat_one, Nat.mod_eq_of_lt hShard]
  have hLo : compare (AppendUint64ToBufferBE [] shardID) (AppendUint64ToBufferBE [] (shardID + 1)) =
      .lt := by
    rw [AppendUint64ToBufferBE_eq, AppendUint64ToBufferBE_eq, List.nil_append, List.nil_append,
      BigEndian.compare_encode shardID.toNat_lt (shardID + 1).toNat_lt, hSucc]
    exact compare_lt_iff_lt.mpr (Nat.lt_succ_self _)
  constructor
  · have h := ListOrder.compare_append_left (AppendUint64ToBufferBE [] shardID) [] y
    rw [List.append_nil] at h
    rw [h]
    cases y <;> simp [List.compare_nil_cons]
  · have h := ListOrder.compare_append_of_length_eq (a := AppendUint64ToBufferBE [] shardID)
      (b := AppendUint64ToBufferBE [] (shardID + 1)) (by simp) y []
    rw [List.append_nil] at h
    rw [h, hLo]
    rfl

theorem restoreSnapshotData_tableKey (pebble snapshot : LocalStore) {shardID : UInt64}
    (hShard : shardID.toNat + 1 < 2 ^ 64) (tableID : UInt64) (x : Bytes) :
    restoreSnapshotData pebble snapshot shardID (EncodeTableKeyPrefix tableID shardID ++ x) =
      snapshot (EncodeTableKeyPrefix tableID shardID ++ x) := by
  have hKey : EncodeTableKeyPrefix tableID shardID ++ x =
      AppendUint64ToBufferBE [] shardID ++ (AppendUint64ToBufferBE [] tableID ++ x) := by
    simp [EncodeTableKeyPrefix, AppendUint64ToBufferBE]
  rw [restoreSnapshotData, if_pos (hKey ▸ inRange_shardRange shardID hShard _)]

end PranaDB
