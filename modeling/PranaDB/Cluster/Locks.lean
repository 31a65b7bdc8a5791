import Mathlib
import PranaDB.Cluster.ShardStateMachine
import PranaDB.Lib.ExceptRun

/-! # The lock state machine (`cluster/dragon/locks_odsm.go`)

The locks shard keeps, in memory, a map from lock prefixes to the locker
holding each, and in pebble a row for each lock. `Update` reads the commands
`sendLockRequest` builds. A `get` takes its prefix unless a held prefix is
related to it by `HasPrefix` in either direction; then the answer is whether
the locker of the related entry is the requester, and the last related entry
met decides. A `release` removes its prefix, whoever sends it.

Go ranges over the map in an order it picks anew at every loop. `MapOrder`
is the order of each loop of a run, any permutation of the map's entries.
`Update` fails only where Go panics or on an unknown command; the in-memory
map of a failed update is not modelled, since the replica stops.
-/

namespace PranaDB
set_option autoImplicit false

def locksStateMachineUpdatedOK : UInt64 := 1
/-- `GetLockCommand`, the bytes of "get". -/
def GetLockCommand : Bytes := [103, 101, 116]
/-- `ReleaseLockCommand`, the bytes of "release". -/
def ReleaseLockCommand : Bytes := [114, 101, 108, 101, 97, 115, 101]
def LockSMResultTrue : UInt8 := 1
def LockSMResultFalse : UInt8 := 0
def locksClusterID : UInt64 := 2
def LocksTableID : UInt64 := 3

def AppendStringToBufferLE (buffer value : Bytes) : Bytes := appendBytesWithLength buffer value

/-- `common.ReadStringFromBufferLE`, `none` where Go panics. -/
def ReadStringFromBufferLE (buffer : Bytes) (offset : Nat) : Option (Bytes × Nat) :=
  readBytesWithLength buffer offset

def HasPrefix (s pre : Bytes) : Bool := pre.isPrefixOf s

abbrev Locks := AList fun _ : Bytes => Bytes

/-- The order in which each loop of a run ranges over the map: the loop of
the `i`-th entry of an update sees the entries in the order `iter i`. -/
structure MapOrder where
  iter : Nat → List (Σ _ : Bytes, Bytes) → List (Σ _ : Bytes, Bytes)
  perm : ∀ i l, (iter i l).Perm l

structure Result where
  Value : UInt64
  Data : Bytes
deriving DecidableEq, Repr

def setResult (ok : Bool) : Result :=
  ⟨locksStateMachineUpdatedOK, [if ok then LockSMResultTrue else LockSMResultFalse]⟩

def encodeLocksKey (lockPrefix : Bytes) : Bytes :=
  KeyEncodeString (EncodeTableKeyPrefix LocksTableID locksClusterID) lockPrefix

def writeLastIndexValue (batch : LocalStore) (val shardID : UInt64) : LocalStore :=
  KVStore.put batch (EncodeTableKeyPrefix LastLogIndexReceivedTableID shardID) (AppendUint64ToBufferLE [] val)

def lockRequestBuff (command lockPrefix locker : Bytes) : Bytes :=
  AppendStringToBufferLE (AppendStringToBufferLE (AppendStringToBufferLE [] command) lockPrefix) locker

/-- The errors of `Update`. -/
inductive LocksError where
  /-- A read past the end of a buffer, or the last entry of an empty list. -/
  | outOfRange
  | unknownLockCommand (command : Bytes)
  | keyDecode (err : KeyDecodeError)
deriving DecidableEq, Repr

def readLockCommand (cmd : Bytes) : Option (Bytes × Bytes × Bytes) := do
  let (command, offset) ← ReadStringFromBufferLE cmd 0
  let (lockPrefix, offset) ← ReadStringFromBufferLE cmd offset
  let (locker, _) ← ReadStringFromBufferLE cmd offset
  pure (command, lockPrefix, locker)

def conflicting (k lockPrefix : Bytes) : Bool := HasPrefix k lockPrefix || HasPrefix lockPrefix k

/-- The range over the map in a get: the result the last conflicting entry
sets, `none` when no entry conflicts (`held` stays false). -/
def getLockResult (lockPrefix locker : Bytes) : List (Σ _ : Bytes, Bytes) → Option Bool → Option Bool
  | [], res => res
  | ⟨k, currLocker⟩ :: rest, res =>
    getLockResult lockPrefix locker rest (if conflicting k lockPrefix then some (locker == currLocker) else res)

def applyLockEntry (iter : List (Σ _ : Bytes, Bytes) → List (Σ _ : Bytes, Bytes)) (st : Locks × LocalStore)
    (entry : Entry) : Except LocksError (Locks × LocalStore × Result) :=
  match readLockCommand entry.Cmd with
  | none => .error .outOfRange
  | some (command, lockPrefix, locker) =>
    if command = GetLockCommand then
      match getLockResult lockPrefix locker (iter st.1.entries) none with
      | some ok => .ok (st.1, st.2, setResult ok)
      | none => .ok (st.1.insert lockPrefix locker, KVStore.put st.2 (encodeLocksKey lockPrefix) locker, setResult true)
    else if command = ReleaseLockCommand then
      match st.1.lookup lockPrefix with
      | none => .ok (st.1, st.2, setResult true)
      | some _ => .ok (st.1.erase lockPrefix, KVStore.erase st.2 (encodeLocksKey lockPrefix), setResult true)
    else .error (.unknownLockCommand command)

def updateLoop (order : MapOrder) : Nat → Locks × LocalStore → List Entry →
    Except LocksError (Locks × LocalStore × List Result)
  | _, st, [] => .ok (st.1, st.2, [])
  | i, st, entry :: entries => do
    let (locks, batch, result) ← applyLockEntry (order.iter i) st entry
    let (locks, batch, results) ← updateLoop order (i + 1) (locks, batch) entries
    pure (locks, batch, result :: results)

/-- The fields of `locksODStateMachine` that `Update` and `Open` use. -/
structure locksODStateMachine where
  locks : Locks

/-- `locksODStateMachine.Update`: the state machine, pebble after the batch is
applied, and the result of each entry. -/
def locksODStateMachine.Update (order : MapOrder) (s : locksODStateMachine) (pebble : LocalStore)
    (entries : List Entry) : Except LocksError (locksODStateMachine × LocalStore × List Result) := do
  let (locks, batch, results) ← updateLoop order 0 (s.locks, pebble) entries
  match entries.getLast? with
  | none => .error .outOfRange
  | some lastEntry => pure (⟨locks⟩, writeLastIndexValue batch lastEntry.Index locksClusterID, results)

def locksStart : Bytes := EncodeTableKeyPrefix LocksTableID locksClusterID

def locksEnd : Bytes := EncodeTableKeyPrefix (LocksTableID + 1) locksClusterID

def loadLockRow (locks : Locks) (kv : Bytes × Bytes) : Except LocksError Locks :=
  match KeyDecodeString kv.1 16 with
  | .error err => .error (.keyDecode err)
  | .ok (sKey, _) => .ok (locks.insert sKey kv.2)

/-- `loadLocks` over the rows `LocalScan` returns. -/
def loadLocks (kvp : List (Bytes × Bytes)) : Except LocksError Locks := kvp.foldlM loadLockRow ∅

/-- `loadLastProcessedRaftIndex`: zero when the row is missing. -/
def loadLastProcessedRaftIndex (pebble : LocalStore) (shardID : UInt64) : Except LocksError UInt64 :=
  match pebble (EncodeTableKeyPrefix LastLogIndexReceivedTableID shardID) with
  | none => .ok 0
  | some vb =>
    match ReadUint64FromBufferLE vb 0 with
    | none => .error .outOfRange
    | some (lastIndex, _) => .ok lastIndex

/-- `locksODStateMachine.Open`: the map loaded from the rows `kvp` of the lock
table, and the last applied index. -/
def locksODStateMachine.Open (pebble : LocalStore) (kvp : List (Bytes × Bytes)) :
    Except LocksError (locksODStateMachine × UInt64) := do
  let lp ← loadLastProcessedRaftIndex pebble locksClusterID
  let locks ← loadLocks kvp
  pure (⟨locks⟩, lp)

/-- What `Dragon.LocalScan` returns: the rows of pebble in
`[startPrefix, endPrefix)`, each once. -/
structure ScanOf (pebble : LocalStore) (startPrefix endPrefix : Bytes) (kvp : List (Bytes × Bytes)) : Prop where
  nodup : (kvp.map Prod.fst).Nodup
  rows : ∀ k v, (k, v) ∈ kvp ↔ KVStore.InRange startPrefix endPrefix k ∧ pebble k = some v

/-! ## Reading the commands back -/

theorem readLockCommand_lockRequestBuff {command lockPrefix locker : Bytes} (hCommand : Short command)
    (hPrefix : Short lockPrefix) (hLocker : Short locker) :
    readLockCommand (lockRequestBuff command lockPrefix locker) = some (command, lockPrefix, locker) := by
  have hBuff : lockRequestBuff command lockPrefix locker =
      [] ++ lengthPrefixed command ++ (lengthPrefixed lockPrefix ++ lengthPrefixed locker) := by
    simp [lockRequestBuff, AppendStringToBufferLE, appendBytesWithLength_eq]
  have hFirst := readBytesWithLength_append [] command (lengthPrefixed lockPrefix ++ lengthPrefixed locker) hCommand
  have hSecond := readBytesWithLength_append (lengthPrefixed command) lockPrefix (lengthPrefixed locker) hPrefix
  have hThird := readBytesWithLength_append (lengthPrefixed command ++ lengthPrefixed lockPrefix) locker [] hLocker
  simp only [List.nil_append, List.append_assoc, List.append_nil, List.length_nil] at hFirst hSecond hThird
  simp only [List.nil_append] at hBuff
  simp only [readLockCommand, ReadStringFromBufferLE, hBuff, hFirst, Option.bind_eq_bind, Option.bind_some,
    hSecond, hThird]
  rfl

theorem short_GetLockCommand : Short GetLockCommand := by decide

theorem short_ReleaseLockCommand : Short ReleaseLockCommand := by decide

/-! ## One entry, one update -/

theorem getLockResult_eq (lockPrefix locker : Bytes) :
    ∀ (xs : List (Σ _ : Bytes, Bytes)) (res : Option Bool),
      getLockResult lockPrefix locker xs res =
        ((xs.filter fun e => conflicting e.1 lockPrefix).getLast?.map fun e => locker == e.2).or res
  | [], res => rfl
  | ⟨k, currLocker⟩ :: xs, res => by
    rw [getLockResult, getLockResult_eq lockPrefix locker xs]
    by_cases hk : conflicting k lockPrefix = true
    · cases hLast : (xs.filter fun e => conflicting e.1 lockPrefix).getLast? <;>
        simp [hk, hLast, List.getLast?_cons]
    · simp [hk]

theorem applyLockEntry_get (iter : List (Σ _ : Bytes, Bytes) → List (Σ _ : Bytes, Bytes))
    (st : Locks × LocalStore) (index : UInt64) {lockPrefix locker : Bytes} (hPrefix : Short lockPrefix)
    (hLocker : Short locker) :
    applyLockEntry iter st ⟨index, lockRequestBuff GetLockCommand lockPrefix locker⟩ =
      match getLockResult lockPrefix locker (iter st.1.entries) none with
      | some ok => .ok (st.1, st.2, setResult ok)
      | none => .ok (st.1.insert lockPrefix locker, KVStore.put st.2 (encodeLocksKey lockPrefix) locker,
          setResult true) := by
  rw [applyLockEntry, readLockCommand_lockRequestBuff short_GetLockCommand hPrefix hLocker]
  rfl

theorem applyLockEntry_release (iter : List (Σ _ : Bytes, Bytes) → List (Σ _ : Bytes, Bytes))
    (st : Locks × LocalStore) (index : UInt64) {lockPrefix locker : Bytes} (hPrefix : Short lockPrefix)
    (hLocker : Short locker) :
    applyLockEntry iter st ⟨index, lockRequestBuff ReleaseLockCommand lockPrefix locker⟩ =
      match st.1.lookup lockPrefix with
      | none => .ok (st.1, st.2, setResult true)
      | some _ => .ok (st.1.erase lockPrefix, KVStore.erase st.2 (encodeLocksKey lockPrefix), setResult true) := by
  rw [applyLockEntry, readLockCommand_lockRequestBuff short_ReleaseLockCommand hPrefix hLocker]
  rfl

theorem updateLoop_cons_ok (order : MapOrder) (i : Nat) (st : Locks × LocalStore) {entry : Entry}
    (entries : List Entry) {locks : Locks} {batch : LocalStore} {result : Result}
    (h : applyLockEntry (order.iter i) st entry = .ok (locks, batch, result)) :
    updateLoop order i st (entry :: entries) =
      (updateLoop order (i + 1) (locks, batch) entries).map fun r => (r.1, r.2.1, result :: r.2.2) := by
  rw [updateLoop, h, ExceptRun.ok_bind]
  dsimp only
  cases updateLoop order (i + 1) (locks, batch) entries <;> rfl

theorem Update_eq (order : MapOrder) (s : locksODStateMachine) (pebble : LocalStore) {entries : List Entry}
    {lastEntry : Entry} (hLast : entries.getLast? = some lastEntry) :
    s.Update order pebble entries = (updateLoop order 0 (s.locks, pebble) entries).map fun r =>
      (⟨r.1⟩, writeLastIndexValue r.2.1 lastEntry.Index locksClusterID, r.2.2) := by
  rw [locksODStateMachine.Update]
  cases updateLoop order 0 (s.locks, pebble) entries <;> simp [hLast] <;> rfl

/-! ## The lock table holds the map

`Update` writes the row of a prefix exactly where it changes the map, and its
last-index row lies just past the lock table; so pebble's lock table is the
map after every update, and `Open` loads back the same map. -/

theorem KeyDecodeString_encodeLocksKey (p : Bytes) :
    KeyDecodeString (encodeLocksKey p) 16 = .ok (p, 16 + (encodeGroups p).length) := by
  have h := KeyDecodeString_KeyEncodeString (EncodeTableKeyPrefix LocksTableID locksClusterID) p []
  simpa [encodeLocksKey] using h

theorem encodeLocksKey_inj {p q : Bytes} (h : encodeLocksKey p = encodeLocksKey q) : p = q := by
  have hp := KeyDecodeString_encodeLocksKey p
  rw [h, KeyDecodeString_encodeLocksKey q, Except.ok.injEq, Prod.mk.injEq] at hp
  exact hp.1.symm

theorem inRange_encodeLocksKey (p : Bytes) : KVStore.InRange locksStart locksEnd (encodeLocksKey p) := by
  have hKey : encodeLocksKey p = locksStart ++ encodeGroups p := rfl
  have hLow := ListOrder.compare_append_left locksStart [] (encodeGroups p)
  have hHigh := ListOrder.compare_append_of_length_eq (show locksStart.length = locksEnd.length by
    simp [locksStart, locksEnd]) (encodeGroups p) []
  have hTables : compare locksStart locksEnd = .lt := by decide
  rw [List.append_nil] at hLow hHigh
  rw [hKey]
  constructor
  · rw [hLow]
    cases encodeGroups p <;> simp [compare, List.compareLex]
  · rw [hHigh, hTables]
    rfl

theorem lastIndexKey_eq_locksEnd :
    EncodeTableKeyPrefix LastLogIndexReceivedTableID locksClusterID = locksEnd := rfl

theorem ne_locksEnd_of_inRange {k : Bytes} (hk : KVStore.InRange locksStart locksEnd k) : k ≠ locksEnd := by
  rintro rfl
  have hSelf : compare locksEnd locksEnd = .eq := Std.ReflOrd.compare_self
  rw [hk.2] at hSelf
  cases hSelf

/-- Pebble's lock table holds the map and nothing else, and its last-index row
can be read. -/
structure LockTableHolds (locks : Locks) (pebble : LocalStore) : Prop where
  rows : ∀ p, pebble (encodeLocksKey p) = locks.lookup p
  only : ∀ k, KVStore.InRange locksStart locksEnd k → pebble k ≠ none → ∃ p, k = encodeLocksKey p
  lastIndex : ∀ vb, pebble locksEnd = some vb → 8 ≤ vb.length

namespace LockTableHolds

variable {locks : Locks} {pebble : LocalStore}

theorem insert (h : LockTableHolds locks pebble) (p locker : Bytes) :
    LockTableHolds (locks.insert p locker) (KVStore.put pebble (encodeLocksKey p) locker) where
  rows q := by
    by_cases hq : q = p
    · subst hq
      rw [KVStore.put_self, AList.lookup_insert]
    · rw [KVStore.put_of_ne _ _ (fun hEq => hq (encodeLocksKey_inj hEq)), AList.lookup_insert_ne hq, h.rows q]
  only k hk hSome := by
    by_cases hkp : k = encodeLocksKey p
    · exact ⟨p, hkp⟩
    · rw [KVStore.put_of_ne _ _ hkp] at hSome
      exact h.only k hk hSome
  lastIndex vb hvb := by
    rw [KVStore.put_of_ne _ _ (ne_locksEnd_of_inRange (inRange_encodeLocksKey p)).symm] at hvb
    exact h.lastIndex vb hvb

theorem erase (h : LockTableHolds locks pebble) (p : Bytes) :
    LockTableHolds (locks.erase p) (KVStore.erase pebble (encodeLocksKey p)) where
  rows q := by
    by_cases hq : q = p
    · subst hq
      rw [KVStore.erase_self, AList.lookup_erase]
    · rw [KVStore.erase_of_ne _ (fun hEq => hq (encodeLocksKey_inj hEq)), AList.lookup_erase_ne hq, h.rows q]
  only k hk hSome := by
    by_cases hkp : k = encodeLocksKey p
    · exact ⟨p, hkp⟩
    · rw [KVStore.erase_of_ne _ hkp] at hSome
      exact h.only k hk hSome
  lastIndex vb hvb := by
    rw [KVStore.erase_of_ne _ (ne_locksEnd_of_inRange (inRange_encodeLocksKey p)).symm] at hvb
    exact h.lastIndex vb hvb

theorem writeLastIndexValue (h : LockTableHolds locks pebble) (val : UInt64) :
    LockTableHolds locks (PranaDB.writeLastIndexValue pebble val locksClusterID) where
  rows q := by
    rw [PranaDB.writeLastIndexValue, lastIndexKey_eq_locksEnd,
      KVStore.put_of_ne _ _ (ne_locksEnd_of_inRange (inRange_encodeLocksKey q)), h.rows q]
  only k hk hSome := by
    rw [PranaDB.writeLastIndexValue, lastIndexKey_eq_locksEnd, KVStore.put_of_ne _ _ (ne_locksEnd_of_inRange hk)]
      at hSome
    exact h.only k hk hSome
  lastIndex vb hvb := by
    rw [PranaDB.writeLastIndexValue, lastIndexKey_eq_locksEnd, KVStore.put_self, Option.some.injEq] at hvb
    simp [← hvb, AppendUint64ToBufferLE_eq]

theorem congr (h : LockTableHolds locks pebble) {locks' : Locks} (hSame : ∀ p, locks'.lookup p = locks.lookup p) :
    LockTableHolds locks' pebble where
  rows p := by rw [hSame p, h.rows p]
  only := h.only
  lastIndex := h.lastIndex

end LockTableHolds

/-! ## Every update keeps the table and the exclusion of the map -/

theorem getLockResult_eq_none {lockPrefix locker : Bytes} {xs : List (Σ _ : Bytes, Bytes)}
    (h : getLockResult lockPrefix locker xs none = none) : ∀ e ∈ xs, conflicting e.1 lockPrefix = false := by
  rw [getLockResult_eq] at h
  cases hLast : (xs.filter fun e => conflicting e.1 lockPrefix).getLast? with
  | some last => simp [hLast] at h
  | none =>
    intro e he
    have hNil := List.filter_eq_nil_iff.mp (List.getLast?_eq_none_iff.mp hLast) e he
    simpa using hNil

theorem applyLockEntry_cases {iter : List (Σ _ : Bytes, Bytes) → List (Σ _ : Bytes, Bytes)}
    (hIter : ∀ l, (iter l).Perm l) {st : Locks × LocalStore} {entry : Entry} {locks : Locks}
    {batch : LocalStore} {result : Result} (h : applyLockEntry iter st entry = .ok (locks, batch, result)) :
    (locks = st.1 ∧ batch = st.2) ∨
    (∃ p locker, (∀ k v, st.1.lookup k = some v → conflicting k p = false) ∧
      locks = st.1.insert p locker ∧ batch = KVStore.put st.2 (encodeLocksKey p) locker) ∨
    (∃ p, locks = st.1.erase p ∧ batch = KVStore.erase st.2 (encodeLocksKey p)) := by
  unfold applyLockEntry at h
  split at h
  · cases h
  · rename_i command lockPrefix locker _
    split at h
    · -- a get
      split at h
      · simp only [Except.ok.injEq, Prod.mk.injEq] at h
        exact .inl ⟨h.1.symm, h.2.1.symm⟩
      · rename_i hNone
        simp only [Except.ok.injEq, Prod.mk.injEq] at h
        refine .inr (.inl ⟨lockPrefix, locker, fun k v hkv => ?_, h.1.symm, h.2.1.symm⟩)
        exact getLockResult_eq_none hNone ⟨k, v⟩ ((hIter _).symm.subset (AList.mem_lookup_iff.mp hkv))
    · split at h
      · -- a release
        split at h
        · simp only [Except.ok.injEq, Prod.mk.injEq] at h
          exact .inl ⟨h.1.symm, h.2.1.symm⟩
        · simp only [Except.ok.injEq, Prod.mk.injEq] at h
          exact .inr (.inr ⟨lockPrefix, h.1.symm, h.2.1.symm⟩)
      · cases h

theorem conflicting_comm (a b : Bytes) : conflicting a b = conflicting b a := Bool.or_comm _ _

def Unrelated (locks : Locks) : Prop :=
  ∀ k₁ k₂ v₁ v₂, locks.lookup k₁ = some v₁ → locks.lookup k₂ = some v₂ → k₁ ≠ k₂ → conflicting k₁ k₂ = false

namespace Unrelated

variable {locks : Locks}

theorem insert (h : Unrelated locks) {p : Bytes} (locker : Bytes)
    (hFree : ∀ k v, locks.lookup k = some v → conflicting k p = false) : Unrelated (locks.insert p locker) := by
  intro k₁ k₂ v₁ v₂ h₁ h₂ hne
  by_cases hk₁ : k₁ = p
  · subst hk₁
    rw [AList.lookup_insert_ne (Ne.symm hne)] at h₂
    rw [conflicting_comm]
    exact hFree k₂ v₂ h₂
  · rw [AList.lookup_insert_ne hk₁] at h₁
    by_cases hk₂ : k₂ = p
    · subst hk₂
      exact hFree k₁ v₁ h₁
    · rw [AList.lookup_insert_ne hk₂] at h₂
      exact h k₁ k₂ v₁ v₂ h₁ h₂ hne

theorem lookup_of_lookup_erase {p k : Bytes} {v : Bytes} (hk : (locks.erase p).lookup k = some v) :
    locks.lookup k = some v := by
  by_cases hkp : k = p
  · subst hkp
    rw [AList.lookup_erase] at hk
    cases hk
  · rwa [AList.lookup_erase_ne hkp] at hk

theorem erase (h : Unrelated locks) (p : Bytes) : Unrelated (locks.erase p) :=
  fun k₁ k₂ v₁ v₂ h₁ h₂ hne => h k₁ k₂ v₁ v₂ (lookup_of_lookup_erase h₁) (lookup_of_lookup_erase h₂) hne

theorem congr (h : Unrelated locks) {locks' : Locks} (hSame : ∀ p, locks'.lookup p = locks.lookup p) :
    Unrelated locks' := by
  intro k₁ k₂ v₁ v₂ h₁ h₂
  rw [hSame] at h₁ h₂
  exact h k₁ k₂ v₁ v₂ h₁ h₂

end Unrelated

/-- The invariant of the locks shard: pebble holds the map, and the map holds
no two related prefixes. -/
structure LocksInv (locks : Locks) (pebble : LocalStore) : Prop where
  persisted : LockTableHolds locks pebble
  unrelated : Unrelated locks

theorem LocksInv.applyLockEntry {iter : List (Σ _ : Bytes, Bytes) → List (Σ _ : Bytes, Bytes)}
    (hIter : ∀ l, (iter l).Perm l) {st : Locks × LocalStore} {entry : Entry} {locks : Locks}
    {batch : LocalStore} {result : Result} (hInv : LocksInv st.1 st.2)
    (h : PranaDB.applyLockEntry iter st entry = .ok (locks, batch, result)) : LocksInv locks batch := by
  obtain ⟨rfl, rfl⟩ | ⟨p, locker, hFree, rfl, rfl⟩ | ⟨p, rfl, rfl⟩ := applyLockEntry_cases hIter h
  · exact hInv
  · exact ⟨hInv.persisted.insert p locker, hInv.unrelated.insert locker hFree⟩
  · exact ⟨hInv.persisted.erase p, hInv.unrelated.erase p⟩

theorem LocksInv.updateLoop (order : MapOrder) :
    ∀ (entries : List Entry) (i : Nat) (st : Locks × LocalStore) {locks : Locks} {batch : LocalStore}
      {results : List Result}, LocksInv st.1 st.2 →
      PranaDB.updateLoop order i st entries = .ok (locks, batch, results) → LocksInv locks batch
  | [], _, st, _, _, _, hInv, h => by
    simp only [PranaDB.updateLoop, Except.ok.injEq, Prod.mk.injEq] at h
    obtain ⟨rfl, rfl, -⟩ := h
    exact hInv
  | entry :: entries, i, st, locks, batch, results, hInv, h => by
    cases hStep : PranaDB.applyLockEntry (order.iter i) st entry with
    | error err =>
      rw [PranaDB.updateLoop, hStep] at h
      cases h
    | ok r =>
      obtain ⟨locks₁, batch₁, result⟩ := r
      have hInv₁ := hInv.applyLockEntry (order.perm i) hStep
      rw [updateLoop_cons_ok order i st entries hStep] at h
      cases hRest : PranaDB.updateLoop order (i + 1) (locks₁, batch₁) entries with
      | error err =>
        rw [hRest] at h
        cases h
      | ok r' =>
        rw [hRest] at h
        obtain ⟨locks₂, batch₂, results₂⟩ := r'
        simp only [Except.map, Except.ok.injEq, Prod.mk.injEq] at h
        obtain ⟨rfl, rfl, -⟩ := h
        exact LocksInv.updateLoop order entries (i + 1) (locks₁, batch₁) hInv₁ hRest

theorem LocksInv.Update {order : MapOrder} {s s' : locksODStateMachine} {pebble pebble' : LocalStore}
    {entries : List Entry} {results : List Result} (hInv : LocksInv s.locks pebble)
    (h : s.Update order pebble entries = .ok (s', pebble', results)) : LocksInv s'.locks pebble' := by
  cases hLast : entries.getLast? with
  | none =>
    rw [locksODStateMachine.Update] at h
    cases hLoop : PranaDB.updateLoop order 0 (s.locks, pebble) entries with
    | error err =>
      rw [hLoop] at h
      cases h
    | ok r =>
      rw [hLoop, ExceptRun.ok_bind] at h
      simp only [hLast] at h
      cases h
  | some lastEntry =>
    rw [Update_eq order s pebble hLast] at h
    cases hLoop : PranaDB.updateLoop order 0 (s.locks, pebble) entries with
    | error err =>
      rw [hLoop] at h
      cases h
    | ok r =>
      rw [hLoop] at h
      obtain ⟨locks, batch, results'⟩ := r
      simp only [Except.map, Except.ok.injEq, Prod.mk.injEq] at h
      obtain ⟨rfl, rfl, -⟩ := h
      have hLoopInv := LocksInv.updateLoop order entries 0 (s.locks, pebble) hInv hLoop
      exact ⟨hLoopInv.persisted.writeLastIndexValue lastEntry.Index, hLoopInv.unrelated⟩

/-! ## Opening the state machine again -/

theorem loadLockRow_encodeLocksKey (locks : Locks) (p v : Bytes) :
    loadLockRow locks (encodeLocksKey p, v) = .ok (locks.insert p v) := by
  rw [loadLockRow, KeyDecodeString_encodeLocksKey]

theorem foldlM_loadLockRow : ∀ (kvp : List (Bytes × Bytes)) (m₀ : Locks), (kvp.map Prod.fst).Nodup →
    (∀ kv ∈ kvp, ∃ p, kv.1 = encodeLocksKey p) →
    ∃ m, kvp.foldlM loadLockRow m₀ = .ok m ∧ ∀ p v, m.lookup p = some v ↔
      (encodeLocksKey p, v) ∈ kvp ∨ (encodeLocksKey p ∉ kvp.map Prod.fst ∧ m₀.lookup p = some v)
  | [], m₀, _, _ => ⟨m₀, rfl, fun p v => by simp⟩
  | kv :: rest, m₀, hNodup, hKeys => by
    obtain ⟨q, hq⟩ := hKeys kv List.mem_cons_self
    obtain ⟨k, v⟩ := kv
    simp only at hq
    subst hq
    rw [List.map_cons, List.nodup_cons] at hNodup
    obtain ⟨m, hFold, hLook⟩ := foldlM_loadLockRow rest (m₀.insert q v) hNodup.2
      (fun kv hkv => hKeys kv (List.mem_cons_of_mem _ hkv))
    refine ⟨m, by rw [List.foldlM_cons, loadLockRow_encodeLocksKey, ExceptRun.ok_bind, hFold], fun p w => ?_⟩
    rw [hLook p w]
    by_cases hpq : p = q
    · -- the head is the only row of `q`
      subst hpq
      have hRest : (encodeLocksKey p, w) ∉ rest := fun hw => hNodup.1 (List.mem_map.mpr ⟨_, hw, rfl⟩)
      simp [AList.lookup_insert, hRest, hNodup.1, eq_comm]
    · have hne : encodeLocksKey p ≠ encodeLocksKey q := fun hEq => hpq (encodeLocksKey_inj hEq)
      simp [AList.lookup_insert_ne hpq, hne]

theorem LockTableHolds.loadLocks {locks : Locks} {pebble : LocalStore} {kvp : List (Bytes × Bytes)}
    (hP : LockTableHolds locks pebble) (hScan : ScanOf pebble locksStart locksEnd kvp) :
    ∃ m, PranaDB.loadLocks kvp = .ok m ∧ ∀ p, m.lookup p = locks.lookup p := by
  have hKeys : ∀ kv ∈ kvp, ∃ p, kv.1 = encodeLocksKey p := by
    intro kv hkv
    obtain ⟨hRange, hRow⟩ := (hScan.rows kv.1 kv.2).mp hkv
    exact hP.only kv.1 hRange (by rw [hRow]; simp)
  obtain ⟨m, hFold, hLook⟩ := foldlM_loadLockRow kvp ∅ hScan.nodup hKeys
  refine ⟨m, hFold, fun p => Option.ext fun v => ?_⟩
  rw [hLook p v, ← hP.rows p, ← (hScan.rows _ v).trans (and_iff_right (inRange_encodeLocksKey p))]
  simp

theorem LockTableHolds.Open {locks : Locks} {pebble : LocalStore} {kvp : List (Bytes × Bytes)}
    (hP : LockTableHolds locks pebble) (hScan : ScanOf pebble locksStart locksEnd kvp) :
    ∃ s' lp, locksODStateMachine.Open pebble kvp = .ok (s', lp) ∧ ∀ p, s'.locks.lookup p = locks.lookup p := by
  obtain ⟨m, hLoad, hLook⟩ := hP.loadLocks hScan
  obtain ⟨lp, hIndex⟩ : ∃ lp, loadLastProcessedRaftIndex pebble locksClusterID = .ok lp := by
    unfold loadLastProcessedRaftIndex
    rw [lastIndexKey_eq_locksEnd]
    cases hRow : pebble locksEnd with
    | none => exact ⟨0, rfl⟩
    | some vb =>
      have hLen := hP.lastIndex vb hRow
      simp only [ReadUint64FromBufferLE, Nat.zero_add, hLen, ↓reduceIte]
      exact ⟨_, rfl⟩
  exact ⟨⟨m⟩, lp, by simp [locksODStateMachine.Open, hIndex, hLoad], hLook⟩

/-! ## Requests as `sendLockRequest` sends them

`sendLockRequest` draws a new locker for every request, so a locker asks for
one prefix, however often Raft applies its entry again. Then a get is
answered by the map alone, whatever order Go ranges in: true when its own
locker holds the prefix, false when another locker holds a related one. A
release frees its prefix whoever sends it, as `DDLCommandRunner.Cancel` and the
release after a DDL command are meant to. -/

/-- A lock request, as `GetLock` and `ReleaseLock` send it. -/
inductive LockRequest where
  | get (lockPrefix locker : Bytes)
  | release (lockPrefix locker : Bytes)
deriving DecidableEq, Repr

def LockRequest.entry (index : UInt64) : LockRequest → Entry
  | .get lockPrefix locker => ⟨index, lockRequestBuff GetLockCommand lockPrefix locker⟩
  | .release lockPrefix locker => ⟨index, lockRequestBuff ReleaseLockCommand lockPrefix locker⟩

def LockRequest.gets : LockRequest → List (Bytes × Bytes)
  | .get lockPrefix locker => [(lockPrefix, locker)]
  | .release _ _ => []

def requestEntries (requests : List (UInt64 × LockRequest)) : List Entry :=
  requests.map fun r => r.2.entry r.1

/-- Requests whose lockers each ask for one prefix, after the gets of
`history`: what a new locker per request gives, with Raft's replays. -/
def FreshLockers (history : List (Bytes × Bytes)) : List LockRequest → Prop
  | [] => True
  | .get lockPrefix locker :: requests =>
    Short lockPrefix ∧ Short locker ∧ (∀ q, (q, locker) ∈ history → q = lockPrefix) ∧
      FreshLockers (history ++ [(lockPrefix, locker)]) requests
  | .release lockPrefix locker :: requests => Short lockPrefix ∧ Short locker ∧ FreshLockers history requests

/-- The answer the map gives a get in any order of the range: none when no
held prefix is related, else whether the requester holds the prefix itself. -/
def lockAnswer (locks : Locks) (lockPrefix locker : Bytes) : Option Bool :=
  if locks.entries.any (fun e => conflicting e.1 lockPrefix) then some (decide (locks.lookup lockPrefix = some locker))
  else none

def Recorded (locks : Locks) (history : List (Bytes × Bytes)) : Prop :=
  ∀ k v, locks.lookup k = some v → (k, v) ∈ history

theorem getLockResult_eq_lockAnswer {locks : Locks} {lockPrefix locker : Bytes} (hUnrelated : Unrelated locks)
    (hOwn : ∀ k, locks.lookup k = some locker → k = lockPrefix) {xs : List (Σ _ : Bytes, Bytes)}
    (hPerm : xs.Perm locks.entries) :
    getLockResult lockPrefix locker xs none = lockAnswer locks lockPrefix locker := by
  rw [getLockResult_eq, lockAnswer]
  cases hLast : (xs.filter fun e => conflicting e.1 lockPrefix).getLast? with
  | none =>
    have hNone : locks.entries.any (fun e => conflicting e.1 lockPrefix) = false := by
      rw [List.any_eq_false]
      intro e he hc
      have hIn : e ∈ xs.filter fun e => conflicting e.1 lockPrefix :=
        List.mem_filter.mpr ⟨hPerm.symm.subset he, by simpa using hc⟩
      rw [List.getLast?_eq_none_iff.mp hLast] at hIn
      cases hIn
    rw [hNone]
    rfl
  | some last =>
    have hIn := List.mem_filter.mp (List.mem_of_getLast? hLast)
    have hMem : locks.lookup last.1 = some last.2 := AList.mem_lookup_iff.mpr (hPerm.subset hIn.1)
    have hAny : locks.entries.any (fun e => conflicting e.1 lockPrefix) = true :=
      List.any_eq_true.mpr ⟨last, hPerm.subset hIn.1, by simpa using hIn.2⟩
    rw [hAny, if_pos rfl]
    by_cases hv : last.2 = locker
    · -- the requester's own entry, which can only be under its prefix
      have hk := hOwn last.1 (hv ▸ hMem)
      rw [hk, hv] at hMem
      simp [hv, hMem]
    · -- another locker's entry: the requester's prefix, related to it, is not held by the requester
      have hNot : locks.lookup lockPrefix ≠ some locker := by
        intro hHeld
        have hne : last.1 ≠ lockPrefix := by
          rintro hEq
          rw [hEq, hHeld] at hMem
          exact hv (Option.some.inj hMem).symm
        have hFalse := hUnrelated last.1 lockPrefix last.2 locker hMem hHeld hne
        rw [hIn.2] at hFalse
        cases hFalse
      simp [Ne.symm hv, hNot]

theorem Recorded.insert {locks : Locks} {history : List (Bytes × Bytes)} (h : Recorded locks history)
    (p locker : Bytes) : Recorded (locks.insert p locker) (history ++ [(p, locker)]) := by
  intro k v hk
  by_cases hkp : k = p
  · subst hkp
    rw [AList.lookup_insert] at hk
    cases hk
    exact List.mem_append_right _ List.mem_cons_self
  · rw [AList.lookup_insert_ne hkp] at hk
    exact List.mem_append_left _ (h k v hk)

theorem Recorded.mono {locks : Locks} {history history' : List (Bytes × Bytes)} (h : Recorded locks history)
    (hSub : ∀ x ∈ history, x ∈ history') : Recorded locks history' :=
  fun k v hk => hSub _ (h k v hk)

theorem Recorded.erase {locks : Locks} {history : List (Bytes × Bytes)} (h : Recorded locks history) (p : Bytes) :
    Recorded (locks.erase p) history :=
  fun k v hk => h k v (Unrelated.lookup_of_lookup_erase hk)

theorem applyLockEntry_get_answer (iter : List (Σ _ : Bytes, Bytes) → List (Σ _ : Bytes, Bytes))
    (hIter : ∀ l, (iter l).Perm l) {st : Locks × LocalStore} (hUnrelated : Unrelated st.1) (index : UInt64)
    {lockPrefix locker : Bytes} (hPrefix : Short lockPrefix) (hLocker : Short locker)
    (hOwn : ∀ k, st.1.lookup k = some locker → k = lockPrefix) :
    applyLockEntry iter st ((LockRequest.get lockPrefix locker).entry index) =
      match lockAnswer st.1 lockPrefix locker with
      | some ok => .ok (st.1, st.2, setResult ok)
      | none => .ok (st.1.insert lockPrefix locker, KVStore.put st.2 (encodeLocksKey lockPrefix) locker,
          setResult true) := by
  rw [LockRequest.entry, applyLockEntry_get iter st index hPrefix hLocker,
    getLockResult_eq_lockAnswer hUnrelated hOwn (hIter _)]

def applyRequest (st : Locks × LocalStore) : LockRequest → Locks × LocalStore × Result
  | .get lockPrefix locker =>
    match lockAnswer st.1 lockPrefix locker with
    | some ok => (st.1, st.2, setResult ok)
    | none => (st.1.insert lockPrefix locker, KVStore.put st.2 (encodeLocksKey lockPrefix) locker, setResult true)
  | .release lockPrefix _ =>
    match st.1.lookup lockPrefix with
    | none => (st.1, st.2, setResult true)
    | some _ => (st.1.erase lockPrefix, KVStore.erase st.2 (encodeLocksKey lockPrefix), setResult true)

theorem applyLockEntry_request (iter : List (Σ _ : Bytes, Bytes) → List (Σ _ : Bytes, Bytes))
    (hIter : ∀ l, (iter l).Perm l) {st : Locks × LocalStore} {history : List (Bytes × Bytes)}
    (hInv : LocksInv st.1 st.2) (hRec : Recorded st.1 history) (index : UInt64) (r : LockRequest)
    (requests : List LockRequest) (hFresh : FreshLockers history (r :: requests)) :
    applyLockEntry iter st (r.entry index) = .ok (applyRequest st r) ∧
      LocksInv (applyRequest st r).1 (applyRequest st r).2.1 ∧
      Recorded (applyRequest st r).1 (history ++ r.gets) ∧
      FreshLockers (history ++ r.gets) requests := by
  cases r with
  | get lockPrefix locker =>
    obtain ⟨hPrefix, hLocker, hOwn, hRest⟩ := hFresh
    have hApply := applyLockEntry_get_answer iter hIter hInv.unrelated index hPrefix hLocker
      fun k hk => hOwn k (hRec k locker hk)
    have hEq : applyLockEntry iter st ((LockRequest.get lockPrefix locker).entry index) =
        .ok (applyRequest st (.get lockPrefix locker)) := by
      rw [hApply, applyRequest]
      split <;> rfl
    refine ⟨hEq, hInv.applyLockEntry hIter hEq, ?_, hRest⟩
    rw [applyRequest, LockRequest.gets]
    split
    · exact hRec.mono fun x hx => List.mem_append_left _ hx
    · exact hRec.insert lockPrefix locker
  | release lockPrefix locker =>
    obtain ⟨hPrefix, hLocker, hRest⟩ := hFresh
    have hEq : applyLockEntry iter st ((LockRequest.release lockPrefix locker).entry index) =
        .ok (applyRequest st (.release lockPrefix locker)) := by
      rw [LockRequest.entry, applyLockEntry_release iter st index hPrefix hLocker, applyRequest]
      split <;> rfl
    refine ⟨hEq, hInv.applyLockEntry hIter hEq, ?_, by rw [LockRequest.gets, List.append_nil]; exact hRest⟩
    rw [applyRequest, LockRequest.gets, List.append_nil]
    split
    · exact hRec
    · exact hRec.erase lockPrefix

def applyRequests : Locks × LocalStore → List LockRequest → Locks × LocalStore × List Result
  | st, [] => (st.1, st.2, [])
  | st, r :: requests =>
    let next := applyRequest st r
    let rest := applyRequests (next.1, next.2.1) requests
    (rest.1, rest.2.1, next.2.2 :: rest.2.2)

theorem updateLoop_requests (order : MapOrder) :
    ∀ (requests : List (UInt64 × LockRequest)) (i : Nat) (st : Locks × LocalStore) (history : List (Bytes × Bytes)),
      LocksInv st.1 st.2 → Recorded st.1 history → FreshLockers history (requests.map Prod.snd) →
      updateLoop order i st (requestEntries requests) = .ok (applyRequests st (requests.map Prod.snd)) ∧
        LocksInv (applyRequests st (requests.map Prod.snd)).1 (applyRequests st (requests.map Prod.snd)).2.1 ∧
        Recorded (applyRequests st (requests.map Prod.snd)).1
          (history ++ (requests.map Prod.snd).flatMap LockRequest.gets)
  | [], _, st, history, hInv, hRec, _ => ⟨rfl, hInv, by rw [List.map_nil, List.flatMap_nil, List.append_nil]; exact hRec⟩
  | (index, r) :: requests, i, st, history, hInv, hRec, hFresh => by
    obtain ⟨hStep, hInv₁, hRec₁, hFresh₁⟩ :=
      applyLockEntry_request (order.iter i) (order.perm i) hInv hRec index r (requests.map Prod.snd) hFresh
    obtain ⟨hLoop, hInv₂, hRec₂⟩ := updateLoop_requests order requests (i + 1)
      ((applyRequest st r).1, (applyRequest st r).2.1) _ hInv₁ hRec₁ hFresh₁
    refine ⟨?_, hInv₂, ?_⟩
    · rw [requestEntries, List.map_cons, @updateLoop_cons_ok order i st _ _ (applyRequest st r).1
        (applyRequest st r).2.1 (applyRequest st r).2.2 hStep]
      rw [requestEntries] at hLoop
      rw [hLoop]
      rfl
    · rw [List.map_cons, List.flatMap_cons, ← List.append_assoc]
      exact hRec₂

/-- The states a replica of the locks shard reaches, with the gets applied so
far: from a pebble whose lock table and last-index row are empty, by updates
of requests of fresh lockers, and by restarts that `Open` the state machine
again from the lock table of pebble. -/
inductive LocksRun : locksODStateMachine → LocalStore → List (Bytes × Bytes) → Prop where
  | init {pebble : LocalStore} : (∀ k, KVStore.InRange locksStart locksEnd k → pebble k = none) →
      pebble locksEnd = none → LocksRun ⟨∅⟩ pebble []
  | update {s s' : locksODStateMachine} {pebble pebble' : LocalStore} {history : List (Bytes × Bytes)}
      (order : MapOrder) (requests : List (UInt64 × LockRequest)) {results : List Result} :
      LocksRun s pebble history → FreshLockers history (requests.map Prod.snd) →
      s.Update order pebble (requestEntries requests) = .ok (s', pebble', results) →
      LocksRun s' pebble' (history ++ (requests.map Prod.snd).flatMap LockRequest.gets)
  | reopen {s s' : locksODStateMachine} {pebble : LocalStore} {history : List (Bytes × Bytes)}
      {kvp : List (Bytes × Bytes)} {lp : UInt64} :
      LocksRun s pebble history → ScanOf pebble locksStart locksEnd kvp →
      locksODStateMachine.Open pebble kvp = .ok (s', lp) → LocksRun s' pebble history

theorem Recorded.congr {locks locks' : Locks} {history : List (Bytes × Bytes)} (h : Recorded locks history)
    (hSame : ∀ p, locks'.lookup p = locks.lookup p) : Recorded locks' history := by
  intro k v hk
  rw [hSame] at hk
  exact h k v hk

theorem LocksRun.inv {s : locksODStateMachine} {pebble : LocalStore} {history : List (Bytes × Bytes)}
    (h : LocksRun s pebble history) : LocksInv s.locks pebble ∧ Recorded s.locks history := by
  induction h with
  | init hEmpty hIndex =>
    refine ⟨⟨⟨fun p => ?_, fun k hk hSome => absurd (hEmpty k hk) hSome, fun vb hvb => ?_⟩, ?_⟩, ?_⟩
    · rw [hEmpty _ (inRange_encodeLocksKey p)]
      rfl
    · rw [hIndex] at hvb
      cases hvb
    · intro k₁ k₂ v₁ v₂ h₁
      cases h₁
    · intro k v hk
      cases hk
  | @update s s' pebble pebble' history order requests results _ hFresh hUpdate ih =>
    obtain ⟨hInv, hRec⟩ := ih
    refine ⟨hInv.Update hUpdate, ?_⟩
    obtain ⟨hLoop, -, hRec'⟩ := updateLoop_requests order requests 0 (s.locks, pebble) _ hInv hRec hFresh
    cases hLast : (requestEntries requests).getLast? with
    | none =>
      rw [locksODStateMachine.Update, hLoop, ExceptRun.ok_bind] at hUpdate
      simp only [hLast] at hUpdate
      cases hUpdate
    | some lastEntry =>
      rw [Update_eq order s pebble hLast, hLoop] at hUpdate
      simp only [Except.map, Except.ok.injEq, Prod.mk.injEq] at hUpdate
      rw [← hUpdate.1]
      exact hRec'
  | reopen _ hScan hOpen ih =>
    obtain ⟨hInv, hRec⟩ := ih
    obtain ⟨s'', lp', hOpen', hLook⟩ := hInv.persisted.Open hScan
    rw [hOpen] at hOpen'
    simp only [Except.ok.injEq, Prod.mk.injEq] at hOpen'
    rw [hOpen'.1]
    exact ⟨⟨hInv.persisted.congr hLook, hInv.unrelated.congr hLook⟩, hRec.congr hLook⟩

theorem lockAnswer_eq_none {locks : Locks} {lockPrefix locker : Bytes} (h : lockAnswer locks lockPrefix locker = none) :
    ∀ k v, locks.lookup k = some v → conflicting k lockPrefix = false := by
  intro k v hk
  rw [lockAnswer] at h
  split at h
  · cases h
  · rename_i hAny
    cases hc : conflicting k lockPrefix
    · rfl
    · exact absurd (List.any_eq_true.mpr ⟨⟨k, v⟩, AList.mem_lookup_iff.mp hk, hc⟩) hAny

theorem Unrelated.applyRequest {st : Locks × LocalStore} (h : Unrelated st.1) (r : LockRequest) :
    Unrelated (PranaDB.applyRequest st r).1 := by
  cases r with
  | get lockPrefix locker =>
    cases hAns : lockAnswer st.1 lockPrefix locker with
    | some ok =>
      simp only [PranaDB.applyRequest, hAns]
      exact h
    | none =>
      simp only [PranaDB.applyRequest, hAns]
      exact h.insert locker (lockAnswer_eq_none hAns)
  | release lockPrefix locker =>
    simp only [PranaDB.applyRequest]
    split
    · exact h
    · exact h.erase lockPrefix

theorem Unrelated.applyRequests : ∀ (requests : List LockRequest) {st : Locks × LocalStore}, Unrelated st.1 →
    Unrelated (PranaDB.applyRequests st requests).1
  | [], _, h => h
  | r :: requests, _, h => Unrelated.applyRequests requests (h.applyRequest r)

theorem applyRequests_append (pre post : List LockRequest) (st : Locks × LocalStore) :
    applyRequests st (pre ++ post) =
      ((applyRequests ((applyRequests st pre).1, (applyRequests st pre).2.1) post).1,
        (applyRequests ((applyRequests st pre).1, (applyRequests st pre).2.1) post).2.1,
        (applyRequests st pre).2.2 ++ (applyRequests ((applyRequests st pre).1, (applyRequests st pre).2.1) post).2.2) := by
  induction pre generalizing st with
  | nil => rfl
  | cons r pre ih =>
    rw [List.cons_append]
    simp only [applyRequests, ih, List.cons_append]

theorem length_applyRequests : ∀ (requests : List LockRequest) (st : Locks × LocalStore),
    (applyRequests st requests).2.2.length = requests.length
  | [], _ => rfl
  | _ :: requests, _ => congrArg Nat.succ (length_applyRequests requests _)

theorem applyRequests_keeps_holder {lockPrefix holder : Bytes} :
    ∀ (requests : List LockRequest) (st : Locks × LocalStore), Unrelated st.1 →
      st.1.lookup lockPrefix = some holder → (∀ r ∈ requests, ∀ locker, r ≠ .release lockPrefix locker) →
      (applyRequests st requests).1.lookup lockPrefix = some holder ∧
        ∀ x ∈ requests.zip (applyRequests st requests).2.2, ∀ p locker, x.1 = .get p locker → locker ≠ holder →
          conflicting p lockPrefix = true → x.2 = setResult false
  | [], st, _, hHeld, _ => ⟨hHeld, fun x hx => by simp at hx⟩
  | r :: requests, st, hUnrelated, hHeld, hNoRelease => by
    have hRestNo : ∀ r' ∈ requests, ∀ locker, r' ≠ .release lockPrefix locker :=
      fun r' hr' => hNoRelease r' (List.mem_cons_of_mem r hr')
    have hStep : (applyRequest st r).1.lookup lockPrefix = some holder ∧
        ∀ p locker, r = .get p locker → locker ≠ holder → conflicting p lockPrefix = true →
          (applyRequest st r).2.2 = setResult false := by
      cases r with
      | get p locker =>
        cases hAns : lockAnswer st.1 p locker with
        | some ok =>
          simp only [applyRequest, hAns]
          refine ⟨hHeld, fun p' locker' hEq hOther hc => ?_⟩
          cases hEq
          have hNot : st.1.lookup p ≠ some locker := by
            intro hMine
            by_cases hpq : p = lockPrefix
            · subst hpq
              rw [hHeld] at hMine
              exact hOther (Option.some.inj hMine).symm
            · have hFalse := hUnrelated p lockPrefix locker holder hMine hHeld hpq
              rw [hc] at hFalse
              cases hFalse
          rw [lockAnswer] at hAns
          split at hAns
          · cases Option.some.inj hAns
            simp [hNot]
          · cases hAns
        | none =>
          have hc := lockAnswer_eq_none hAns lockPrefix holder hHeld
          have hne : lockPrefix ≠ p := fun hEq => by
            simp [hEq, conflicting, HasPrefix, List.isPrefixOf_iff_prefix.mpr (List.prefix_refl p)] at hc
          simp only [applyRequest, hAns]
          refine ⟨by rw [AList.lookup_insert_ne hne]; exact hHeld, fun p' locker' hEq _ hc' => ?_⟩
          cases hEq
          rw [conflicting_comm] at hc'
          rw [hc'] at hc
          cases hc
      | release p locker =>
        have hne : p ≠ lockPrefix := fun hEq => hNoRelease _ List.mem_cons_self locker (by rw [hEq])
        simp only [applyRequest]
        split
        · exact ⟨hHeld, fun _ _ hEq => by cases hEq⟩
        · exact ⟨by rw [AList.lookup_erase_ne (Ne.symm hne)]; exact hHeld, fun _ _ hEq => by cases hEq⟩
    obtain ⟨hHeld₁, hRefused⟩ := hStep
    obtain ⟨hHeld₂, hRest⟩ := applyRequests_keeps_holder requests ((applyRequest st r).1, (applyRequest st r).2.1)
      (hUnrelated.applyRequest r) hHeld₁ hRestNo
    refine ⟨hHeld₂, fun x hx p locker hEq hOther hc => ?_⟩
    change x ∈ (r :: requests).zip ((applyRequest st r).2.2 ::
      (applyRequests ((applyRequest st r).1, (applyRequest st r).2.1) requests).2.2) at hx
    rw [List.zip_cons_cons] at hx
    rcases List.mem_cons.mp hx with rfl | hx
    · exact hRefused p locker hEq hOther hc
    · exact hRest x hx p locker hEq hOther hc

theorem setResult_injective {a b : Bool} (h : setResult a = setResult b) : a = b := by
  cases a <;> cases b <;> simp_all [setResult, LockSMResultTrue, LockSMResultFalse]

theorem applyRequest_get_true {st : Locks × LocalStore} {lockPrefix locker : Bytes}
    (h : (applyRequest st (.get lockPrefix locker)).2.2 = setResult true) :
    (applyRequest st (.get lockPrefix locker)).1.lookup lockPrefix = some locker := by
  cases hAns : lockAnswer st.1 lockPrefix locker with
  | none =>
    simp only [applyRequest, hAns]
    exact AList.lookup_insert _
  | some ok =>
    simp only [applyRequest, hAns] at h ⊢
    obtain rfl := setResult_injective h
    rw [lockAnswer] at hAns
    split at hAns
    · exact of_decide_eq_true (Option.some.inj hAns)
    · cases hAns

theorem applyRequests_get_true {st : Locks × LocalStore} (hUnrelated : Unrelated st.1)
    {pre post : List LockRequest} {lockPrefix locker : Bytes}
    (hTrue : (applyRequests st (pre ++ .get lockPrefix locker :: post)).2.2[pre.length]? = some (setResult true))
    (hNoRelease : ∀ r ∈ post, ∀ locker', r ≠ .release lockPrefix locker') :
    (applyRequests st (pre ++ .get lockPrefix locker :: post)).1.lookup lockPrefix = some locker := by
  rw [applyRequests_append] at hTrue ⊢
  rw [List.getElem?_append_right (by rw [length_applyRequests]), length_applyRequests, Nat.sub_self] at hTrue
  have hGet : (applyRequest ((applyRequests st pre).1, (applyRequests st pre).2.1)
      (.get lockPrefix locker)).2.2 = setResult true := Option.some.inj hTrue
  exact (applyRequests_keeps_holder post _ ((hUnrelated.applyRequests pre).applyRequest _)
    (applyRequest_get_true hGet) hNoRelease).1

theorem LockRequest.entry_Index (index : UInt64) (r : LockRequest) : (r.entry index).Index = index := by
  cases r <;> rfl

theorem Update_fresh_requests {s : locksODStateMachine} {pebble : LocalStore} {history : List (Bytes × Bytes)}
    (hRun : LocksRun s pebble history) {requests : List (UInt64 × LockRequest)}
    (hFresh : FreshLockers history (requests.map Prod.snd)) (hNonempty : requests ≠ []) (order : MapOrder) :
    s.Update order pebble (requestEntries requests) =
      .ok (⟨(applyRequests (s.locks, pebble) (requests.map Prod.snd)).1⟩,
        writeLastIndexValue (applyRequests (s.locks, pebble) (requests.map Prod.snd)).2.1
          (requests.getLast hNonempty).1 locksClusterID,
        (applyRequests (s.locks, pebble) (requests.map Prod.snd)).2.2) := by
  obtain ⟨hInv, hRec⟩ := hRun.inv
  have hLast : (requestEntries requests).getLast? =
      some ((requests.getLast hNonempty).2.entry (requests.getLast hNonempty).1) := by
    rw [requestEntries, List.getLast?_map, List.getLast?_eq_some_getLast hNonempty]
    rfl
  rw [Update_eq order s pebble hLast, (updateLoop_requests order requests 0 (s.locks, pebble) _ hInv hRec hFresh).1,
    LockRequest.entry_Index]
  rfl

/-- The lock shard over every run of requests as `sendLockRequest` sends
them, each with a locker of its own. From every reached state, an update
(a) succeeds with the outcome `applyRequests` computes, in every map order, so
replicas agree; (b) leaves a locker whose get was answered true holding its
prefix unless a later request releases it, and while a locker holds a prefix
with no release of it in the update, keeps it held and refuses every get of
another locker for a related prefix; and (c) pebble's lock table holds the
map, which `Open` reloads. A release frees its prefix whoever sends it. -/
theorem Update_exclusive_until_release {s : locksODStateMachine} {pebble : LocalStore}
    {history : List (Bytes × Bytes)} (hRun : LocksRun s pebble history) (requests : List (UInt64 × LockRequest))
    (hFresh : FreshLockers history (requests.map Prod.snd)) (hNonempty : requests ≠ []) :
    (∀ order : MapOrder, s.Update order pebble (requestEntries requests) =
      .ok (⟨(applyRequests (s.locks, pebble) (requests.map Prod.snd)).1⟩,
        writeLastIndexValue (applyRequests (s.locks, pebble) (requests.map Prod.snd)).2.1
          (requests.getLast hNonempty).1 locksClusterID,
        (applyRequests (s.locks, pebble) (requests.map Prod.snd)).2.2)) ∧
    (∀ pre lockPrefix locker post, requests.map Prod.snd = pre ++ .get lockPrefix locker :: post →
      (applyRequests (s.locks, pebble) (requests.map Prod.snd)).2.2[pre.length]? = some (setResult true) →
      (∀ r ∈ post, ∀ locker', r ≠ .release lockPrefix locker') →
      (applyRequests (s.locks, pebble) (requests.map Prod.snd)).1.lookup lockPrefix = some locker) ∧
    (∀ lockPrefix holder, s.locks.lookup lockPrefix = some holder →
      (∀ r ∈ requests, ∀ locker, r.2 ≠ .release lockPrefix locker) →
      (applyRequests (s.locks, pebble) (requests.map Prod.snd)).1.lookup lockPrefix = some holder ∧
      ∀ x ∈ (requests.map Prod.snd).zip (applyRequests (s.locks, pebble) (requests.map Prod.snd)).2.2,
        ∀ p locker, x.1 = .get p locker → locker ≠ holder → conflicting p lockPrefix = true →
          x.2 = setResult false) ∧
    (∀ p, pebble (encodeLocksKey p) = s.locks.lookup p) ∧
    (∀ kvp, ScanOf pebble locksStart locksEnd kvp →
      ∃ s' lp, locksODStateMachine.Open pebble kvp = .ok (s', lp) ∧ ∀ p, s'.locks.lookup p = s.locks.lookup p) := by
  obtain ⟨hInv, -⟩ := hRun.inv
  refine ⟨Update_fresh_requests hRun hFresh hNonempty, ?_, ?_, hInv.persisted.rows, fun kvp hScan => hInv.persisted.Open hScan⟩
  · intro pre lockPrefix locker post hSplit hTrue hNoRelease
    rw [hSplit] at hTrue ⊢
    exact applyRequests_get_true hInv.unrelated hTrue hNoRelease
  · intro lockPrefix holder hHeld hNoRelease
    refine applyRequests_keeps_holder _ (s.locks, pebble) hInv.unrelated hHeld fun r hr locker => ?_
    obtain ⟨x, hx, rfl⟩ := List.mem_map.mp hr
    exact hNoRelease x hx locker

/-- Two gets of fresh lockers for "a/b" and "a/c" from an empty lock table,
with Go ranging over the map backwards. -/
theorem Update_exclusive_until_release_ab_ac :
    LocksRun ⟨∅⟩ (fun _ => none) [] ∧ FreshLockers [] [.get [97, 47, 98] [76], .get [97, 47, 99] [77]] ∧
    ∃ s' pebble', (⟨∅⟩ : locksODStateMachine).Update ⟨fun _ l => l.reverse, fun _ l => List.reverse_perm l⟩
        (fun _ => none) (requestEntries [(1, .get [97, 47, 98] [76]), (2, .get [97, 47, 99] [77])]) =
        .ok (s', pebble', [setResult true, setResult true]) ∧
      s'.locks.lookup [97, 47, 98] = some [76] ∧ s'.locks.lookup [97, 47, 99] = some [77] := by
  have hRun : LocksRun ⟨∅⟩ (fun _ => none) [] := .init (fun _ _ => rfl) rfl
  have hFresh : FreshLockers [] [.get [97, 47, 98] [76], .get [97, 47, 99] [77]] := by
    simp [FreshLockers, Short]
  obtain ⟨hUpdate, -⟩ := Update_exclusive_until_release hRun
    [(1, .get [97, 47, 98] [76]), (2, .get [97, 47, 99] [77])] hFresh (List.cons_ne_nil _ _)
  exact ⟨hRun, hFresh, _, _, (hUpdate _).trans rfl, by decide, by decide⟩

def MapOrder.inEntryOrder : MapOrder := ⟨fun _ l => l, fun _ l => List.Perm.refl l⟩

/-- A release frees a lock its sender never held: locker L takes "a/b", a
release of "a/b" from locker M, as `DDLCommandRunner.Cancel` sends whatever
its get answered, frees it, and locker N then takes "a/b" while L never
released it. Go ranges over the map in its own order here; every order
gives the same. -/
theorem Update_release_frees_held_lock :
    FreshLockers [] [.get [97, 47, 98] [76], .release [97, 47, 98] [77], .get [97, 47, 98] [78]] ∧
    ∃ s₁ pebble₁ s₂ pebble₂ s₃ pebble₃,
      (⟨∅⟩ : locksODStateMachine).Update MapOrder.inEntryOrder (fun _ => none) (requestEntries [(1, .get [97, 47, 98] [76])]) =
        .ok (s₁, pebble₁, [setResult true]) ∧ s₁.locks.lookup [97, 47, 98] = some [76] ∧
      s₁.Update MapOrder.inEntryOrder pebble₁ (requestEntries [(2, .release [97, 47, 98] [77])]) =
        .ok (s₂, pebble₂, [setResult true]) ∧
      s₂.Update MapOrder.inEntryOrder pebble₂ (requestEntries [(3, .get [97, 47, 98] [78])]) =
        .ok (s₃, pebble₃, [setResult true]) ∧ s₃.locks.lookup [97, 47, 98] = some [78] := by
  have hRun₀ : LocksRun ⟨∅⟩ (fun _ => none) [] := .init (fun _ _ => rfl) rfl
  have hFresh₁ : FreshLockers [] ([((1 : UInt64), LockRequest.get [97, 47, 98] [76])].map Prod.snd) := by
    simp [FreshLockers, Short]
  have hUpdate₁ := Update_fresh_requests hRun₀ hFresh₁ (List.cons_ne_nil _ _) MapOrder.inEntryOrder
  have hRun₁ := LocksRun.update MapOrder.inEntryOrder _ hRun₀ hFresh₁ hUpdate₁
  have hFresh₂ : FreshLockers ([] ++ [(([97, 47, 98] : Bytes), ([76] : Bytes))])
      ([((2 : UInt64), LockRequest.release [97, 47, 98] [77])].map Prod.snd) := by
    simp [FreshLockers, Short]
  have hUpdate₂ := Update_fresh_requests hRun₁ hFresh₂ (List.cons_ne_nil _ _) MapOrder.inEntryOrder
  have hRun₂ := LocksRun.update MapOrder.inEntryOrder _ hRun₁ hFresh₂ hUpdate₂
  have hFresh₃ : FreshLockers ([] ++ [(([97, 47, 98] : Bytes), ([76] : Bytes))] ++ [])
      ([((3 : UInt64), LockRequest.get [97, 47, 98] [78])].map Prod.snd) := by
    simp [FreshLockers, Short]
  have hUpdate₃ := Update_fresh_requests hRun₂ hFresh₃ (List.cons_ne_nil _ _) MapOrder.inEntryOrder
  refine ⟨by simp [FreshLockers, Short], _, _, _, _, _, _, hUpdate₁.trans rfl, by decide, hUpdate₂.trans rfl,
    hUpdate₃.trans rfl, by decide⟩

end PranaDB
