import PranaDB.Cluster.Locks
import PranaDB.Common.StringKeyOrder

/-! # The cluster sequence state machine (`cluster/dragon/sequence_odsm.go`)

`Dragon.GenerateClusterSequence(name)` proposes the name to the sequence
shard; `sequenceODStateMachine.Update` answers each entry with the value held
in the name's row, zero when there is none, and writes that value plus one.
The values an update sets are kept in `latestSeqVals` until its batch is
applied, so a name asked for twice in one update is counted twice.

Pebble is a `LocalStore`; the batch is pebble with the update's writes made,
as `Apply` leaves it. The counter is a `uint64`: the `n`-th value of a name is
`n` modulo `2^64`.
-/

namespace PranaDB
set_option autoImplicit false

def seqStateMachineUpdatedOK : UInt64 := 1

def SequenceGeneratorTableID : UInt64 := 2

def tableSequenceClusterID : UInt64 := 1

def sequenceKey (seqName : Bytes) : Bytes :=
  KeyEncodeString (EncodeTableKeyPrefix SequenceGeneratorTableID tableSequenceClusterID) seqName

def sequenceRequestBuff (sequenceName : Bytes) : Bytes := AppendStringToBufferLE [] sequenceName

/-- How the sequence shard fails. -/
inductive SequenceError where
  /-- A read past the end of a buffer, or the last entry of an empty list. -/
  | outOfRange
  | unexpectedReturnValue (retVal : UInt64)
deriving DecidableEq, Repr

def applySequenceEntry (pebble : LocalStore) (st : LocalStore × LocalStore) (entry : Entry) :
    Except SequenceError (LocalStore × LocalStore × Result) :=
  match ReadStringFromBufferLE entry.Cmd 0 with
  | none => .error .outOfRange
  | some (seqName, _) =>
    let keyBuff := sequenceKey seqName
    -- `latestSeqVals` first: this update's writes are not in pebble yet
    let read : Option (UInt64 × Bytes) :=
      match (st.2 keyBuff).or (pebble keyBuff) with
      | some v => (ReadUint64FromBufferLE v 0).map fun r => (r.1, v)
      | none => some (0, List.replicate 8 0)
    match read with
    | none => .error .outOfRange
    | some (seqVal, seqBuff) =>
      let vBuff := AppendUint64ToBufferLE [] (seqVal + 1)
      .ok (KVStore.put st.1 keyBuff vBuff, KVStore.put st.2 keyBuff vBuff, ⟨seqStateMachineUpdatedOK, seqBuff⟩)

def sequenceUpdateLoop (pebble : LocalStore) :
    LocalStore × LocalStore → List Entry → Except SequenceError (LocalStore × List Result)
  | st, [] => .ok (st.1, [])
  | st, entry :: entries => do
    let (batch, latestSeqVals, result) ← applySequenceEntry pebble st entry
    let (batch, results) ← sequenceUpdateLoop pebble (batch, latestSeqVals) entries
    pure (batch, result :: results)

/-- `sequenceODStateMachine.Update`: pebble after the batch is applied, and the
result of each entry. -/
def sequenceODStateMachine.Update (pebble : LocalStore) (entries : List Entry) :
    Except SequenceError (LocalStore × List Result) := do
  let (batch, results) ← sequenceUpdateLoop pebble (pebble, fun _ => none) entries
  match entries.getLast? with
  | none => .error .outOfRange
  | some lastEntry => pure (writeLastIndexValue batch lastEntry.Index tableSequenceClusterID, results)

/-- `sequenceODStateMachine.Open`: the last applied index. -/
def sequenceODStateMachine.Open (pebble : LocalStore) : Except LocksError UInt64 :=
  loadLastProcessedRaftIndex pebble tableSequenceClusterID

def sequenceResultValue (result : Result) : Except SequenceError UInt64 :=
  if result.Value ≠ seqStateMachineUpdatedOK then .error (.unexpectedReturnValue result.Value)
  else
    match ReadUint64FromBufferLE result.Data 0 with
    | none => .error .outOfRange
    | some (seqVal, _) => .ok seqVal

def sequenceEntry (request : UInt64 × Bytes) : Entry := ⟨request.1, sequenceRequestBuff request.2⟩

/-- Updates applied one after another from `pebble`, with the results of all
their entries in order. -/
def sequenceRun (pebble : LocalStore) : List (List (UInt64 × Bytes)) → Except SequenceError (LocalStore × List Result)
  | [] => .ok (pebble, [])
  | requests :: updates => do
    let (pebble, results) ← sequenceODStateMachine.Update pebble (requests.map sequenceEntry)
    let (pebble, rest) ← sequenceRun pebble updates
    pure (pebble, results ++ rest)

/-! ## What a sequence is for

Each request for a name gets the number of requests for that name before it. -/

def seqIssue (counts : Bytes → Nat) : List Bytes → (Bytes → Nat) × List Nat
  | [] => (counts, [])
  | name :: names =>
    let (counts', values) := seqIssue (Function.update counts name (counts name + 1)) names
    (counts', counts name :: values)

theorem seqIssue_counts (counts : Bytes → Nat) (names : List Bytes) (s : Bytes) :
    (seqIssue counts names).1 s = counts s + names.count s := by
  induction names generalizing counts with
  | nil => rfl
  | cons name names ih =>
    rw [seqIssue, ih, List.count_cons]
    by_cases h : s = name
    · subst h
      simp only [Function.update_self, beq_self_eq_true, ↓reduceIte]
      omega
    · rw [Function.update_of_ne h]
      simp [Ne.symm h]

theorem seqIssue_append (counts : Bytes → Nat) (names rest : List Bytes) :
    seqIssue counts (names ++ rest) = ((seqIssue (seqIssue counts names).1 rest).1,
      (seqIssue counts names).2 ++ (seqIssue (seqIssue counts names).1 rest).2) := by
  induction names generalizing counts with
  | nil => rfl
  | cons name names ih => simp [seqIssue, ih]

theorem seqIssue_values (counts : Bytes → Nat) (names : List Bytes) (s : Bytes) :
    ((names.zip (seqIssue counts names).2).filter (fun p => p.1 = s)).map Prod.snd =
      List.range' (counts s) (names.count s) := by
  induction names generalizing counts with
  | nil => rfl
  | cons name names ih =>
    rw [seqIssue]
    dsimp only
    rw [List.zip_cons_cons, List.filter_cons, List.count_cons]
    by_cases h : name = s
    · subst h
      have hRest := ih (Function.update counts name (counts name + 1))
      rw [Function.update_self] at hRest
      simp only [decide_true, ↓reduceIte, List.map_cons, hRest, beq_self_eq_true]
      rfl
    · have hRest := ih (Function.update counts name (counts name + 1))
      rw [Function.update_of_ne (Ne.symm h)] at hRest
      simp [h, hRest]

/-! ## The rows of the sequence table -/

theorem KeyDecodeString_sequenceKey (s : Bytes) :
    KeyDecodeString (sequenceKey s) 16 = .ok (s, 16 + (encodeGroups s).length) := by
  have h := KeyDecodeString_KeyEncodeString (EncodeTableKeyPrefix SequenceGeneratorTableID tableSequenceClusterID) s []
  simpa [sequenceKey] using h

theorem sequenceKey_inj {s t : Bytes} (h : sequenceKey s = sequenceKey t) : s = t := by
  have hs := KeyDecodeString_sequenceKey s
  rw [h, KeyDecodeString_sequenceKey t, Except.ok.injEq, Prod.mk.injEq] at hs
  exact hs.1.symm

theorem sequenceKey_ne_lastIndexKey (s : Bytes) :
    sequenceKey s ≠ EncodeTableKeyPrefix LastLogIndexReceivedTableID tableSequenceClusterID := by
  intro h
  have hLen := congrArg List.length h
  have hGroups := nine_le_length_encodeGroups s
  simp only [sequenceKey, KeyEncodeString, List.length_append, length_EncodeTableKeyPrefix] at hLen
  omega

/-- Pebble's sequence table holds `counts`: a name's row holds the number of
values given for it, as a `uint64`, and is absent before the first. -/
def SequencesHeld (counts : Bytes → Nat) (pebble : LocalStore) : Prop :=
  ∀ s, pebble (sequenceKey s) =
    if counts s = 0 then none else some (AppendUint64ToBufferLE [] (UInt64.ofNat (counts s)))

theorem SequencesHeld.empty : SequencesHeld (fun _ => 0) (fun _ => none) := by
  intro s
  rfl

theorem SequencesHeld.put {counts : Bytes → Nat} {pebble : LocalStore} (h : SequencesHeld counts pebble)
    (name : Bytes) :
    SequencesHeld (Function.update counts name (counts name + 1))
      (KVStore.put pebble (sequenceKey name) (AppendUint64ToBufferLE [] (UInt64.ofNat (counts name + 1)))) := by
  intro s
  by_cases hs : s = name
  · subst hs
    simp
  · have hKey : sequenceKey s ≠ sequenceKey name := fun hEq => hs (sequenceKey_inj hEq)
    rw [KVStore.put_of_ne _ _ hKey, Function.update_of_ne hs]
    exact h s

theorem SequencesHeld.writeLastIndexValue {counts : Bytes → Nat} {pebble : LocalStore}
    (h : SequencesHeld counts pebble) (val : UInt64) :
    SequencesHeld counts (writeLastIndexValue pebble val tableSequenceClusterID) := by
  intro s
  rw [PranaDB.writeLastIndexValue, KVStore.put_of_ne _ _ (sequenceKey_ne_lastIndexKey s)]
  exact h s

/-! ## One entry, one update, a run -/

theorem ReadStringFromBufferLE_sequenceRequestBuff {name : Bytes} (hShort : Short name) :
    ∃ offset, ReadStringFromBufferLE (sequenceRequestBuff name) 0 = some (name, offset) := by
  have h := readBytesWithLength_append [] name [] hShort
  simp only [List.nil_append, List.append_nil, List.length_nil] at h
  refine ⟨(lengthPrefixed name).length, ?_⟩
  rw [ReadStringFromBufferLE, sequenceRequestBuff, AppendStringToBufferLE, appendBytesWithLength_eq,
    List.nil_append, h]

theorem read_sequence_row (counts : Bytes → Nat) (s : Bytes) :
    (match (if counts s = 0 then none else some (AppendUint64ToBufferLE [] (UInt64.ofNat (counts s)))) with
      | some v => (ReadUint64FromBufferLE v 0).map fun r => (r.1, v)
      | none => some (0, List.replicate 8 0)) =
      some (UInt64.ofNat (counts s), AppendUint64ToBufferLE [] (UInt64.ofNat (counts s))) := by
  by_cases h : counts s = 0
  · rw [if_pos h, h]
    rfl
  · have hRead := ReadUint64FromBufferLE_append [] [] (UInt64.ofNat (counts s))
    simp only [List.append_nil, List.length_nil] at hRead
    rw [if_neg h]
    dsimp only
    rw [hRead]
    rfl

theorem applySequenceEntry_request (pebble : LocalStore) {counts : Bytes → Nat} {batch latest : LocalStore}
    (hHeld : SequencesHeld counts batch) (hLatest : ∀ k, (latest k).or (pebble k) = batch k)
    (request : UInt64 × Bytes) (hShort : Short request.2) :
    applySequenceEntry pebble (batch, latest) (sequenceEntry request) =
      .ok (KVStore.put batch (sequenceKey request.2) (AppendUint64ToBufferLE [] (UInt64.ofNat (counts request.2 + 1))),
        KVStore.put latest (sequenceKey request.2) (AppendUint64ToBufferLE [] (UInt64.ofNat (counts request.2 + 1))),
        ⟨seqStateMachineUpdatedOK, AppendUint64ToBufferLE [] (UInt64.ofNat (counts request.2))⟩) := by
  obtain ⟨offset, hRead⟩ := ReadStringFromBufferLE_sequenceRequestBuff hShort
  have hRow : (latest (sequenceKey request.2)).or (pebble (sequenceKey request.2)) =
      if counts request.2 = 0 then none
      else some (AppendUint64ToBufferLE [] (UInt64.ofNat (counts request.2))) := by
    rw [hLatest, hHeld]
  have hNext : UInt64.ofNat (counts request.2) + 1 = UInt64.ofNat (counts request.2 + 1) := by
    rw [UInt64.ofNat_add, UInt64.ofNat_one]
  simp only [applySequenceEntry, sequenceEntry, hRead, hRow, read_sequence_row, hNext]

theorem sequenceUpdateLoop_requests (pebble : LocalStore) :
    ∀ (requests : List (UInt64 × Bytes)) (counts : Bytes → Nat) (batch latest : LocalStore),
      SequencesHeld counts batch → (∀ k, (latest k).or (pebble k) = batch k) → (∀ r ∈ requests, Short r.2) →
      ∃ batch', sequenceUpdateLoop pebble (batch, latest) (requests.map sequenceEntry) =
          .ok (batch', (seqIssue counts (requests.map Prod.snd)).2.map fun n =>
            ⟨seqStateMachineUpdatedOK, AppendUint64ToBufferLE [] (UInt64.ofNat n)⟩) ∧
        SequencesHeld (seqIssue counts (requests.map Prod.snd)).1 batch' := by
  intro requests
  induction requests with
  | nil =>
    intro counts batch latest hHeld _ _
    exact ⟨batch, rfl, hHeld⟩
  | cons request requests ih =>
    intro counts batch latest hHeld hLatest hShort
    have hLatest' : ∀ k,
        (KVStore.put latest (sequenceKey request.2) (AppendUint64ToBufferLE [] (UInt64.ofNat (counts request.2 + 1))) k).or
          (pebble k) =
        KVStore.put batch (sequenceKey request.2) (AppendUint64ToBufferLE [] (UInt64.ofNat (counts request.2 + 1))) k := by
      intro k
      by_cases hk : k = sequenceKey request.2
      · subst hk
        simp
      · rw [KVStore.put_of_ne _ _ hk, KVStore.put_of_ne _ _ hk]
        exact hLatest k
    obtain ⟨batch', hLoop, hHeld'⟩ := ih _ _ _ (hHeld.put request.2) hLatest'
      (fun r hr => hShort r (List.mem_cons_of_mem _ hr))
    refine ⟨batch', ?_, hHeld'⟩
    rw [List.map_cons, sequenceUpdateLoop, applySequenceEntry_request pebble hHeld hLatest request
      (hShort request List.mem_cons_self), ExceptRun.ok_bind]
    dsimp only
    rw [hLoop, ExceptRun.ok_bind]
    rfl

theorem Update_requests {counts : Bytes → Nat} {pebble : LocalStore} (hHeld : SequencesHeld counts pebble)
    {requests : List (UInt64 × Bytes)} (hNonempty : requests ≠ []) (hShort : ∀ r ∈ requests, Short r.2) :
    ∃ pebble', sequenceODStateMachine.Update pebble (requests.map sequenceEntry) =
        .ok (pebble', (seqIssue counts (requests.map Prod.snd)).2.map fun n =>
          ⟨seqStateMachineUpdatedOK, AppendUint64ToBufferLE [] (UInt64.ofNat n)⟩) ∧
      SequencesHeld (seqIssue counts (requests.map Prod.snd)).1 pebble' := by
  obtain ⟨batch', hLoop, hHeld'⟩ := sequenceUpdateLoop_requests pebble requests counts pebble (fun _ => none)
    hHeld (fun _ => rfl) hShort
  obtain ⟨last, hLast⟩ : ∃ last, (requests.map sequenceEntry).getLast? = some last :=
    Option.isSome_iff_exists.mp (by simpa using hNonempty)
  refine ⟨writeLastIndexValue batch' last.Index tableSequenceClusterID, ?_, hHeld'.writeLastIndexValue _⟩
  rw [sequenceODStateMachine.Update, hLoop, ExceptRun.ok_bind]
  dsimp only
  rw [hLast]
  rfl

theorem Open_Update {pebble pebble' : LocalStore} {entries : List Entry} {results : List Result}
    (h : sequenceODStateMachine.Update pebble entries = .ok (pebble', results)) :
    ∃ last, entries.getLast? = some last ∧ sequenceODStateMachine.Open pebble' = .ok last.Index := by
  rw [sequenceODStateMachine.Update] at h
  obtain ⟨⟨batch, results'⟩, -, h⟩ := ExceptRun.bind_eq_ok.mp h
  cases hLast : entries.getLast? with
  | none =>
    rw [hLast] at h
    cases h
  | some last =>
    rw [hLast] at h
    obtain ⟨rfl, -⟩ := Prod.mk.inj (Except.ok.inj h)
    refine ⟨last, rfl, ?_⟩
    have hRead := ReadUint64FromBufferLE_append [] [] last.Index
    simp only [List.append_nil, List.length_nil] at hRead
    simp only [sequenceODStateMachine.Open, loadLastProcessedRaftIndex, PranaDB.writeLastIndexValue,
      KVStore.put_self]
    rw [hRead]

theorem sequenceRun_requests :
    ∀ (updates : List (List (UInt64 × Bytes))) (counts : Bytes → Nat) (pebble : LocalStore),
      SequencesHeld counts pebble → (∀ u ∈ updates, u ≠ []) → (∀ u ∈ updates, ∀ r ∈ u, Short r.2) →
      ∃ pebble', sequenceRun pebble updates =
          .ok (pebble', (seqIssue counts (updates.flatten.map Prod.snd)).2.map fun n =>
            ⟨seqStateMachineUpdatedOK, AppendUint64ToBufferLE [] (UInt64.ofNat n)⟩) ∧
        SequencesHeld (seqIssue counts (updates.flatten.map Prod.snd)).1 pebble' := by
  intro updates
  induction updates with
  | nil =>
    intro counts pebble hHeld _ _
    exact ⟨pebble, rfl, hHeld⟩
  | cons requests updates ih =>
    intro counts pebble hHeld hNonempty hShort
    obtain ⟨pebble₁, hUpdate, hHeld₁⟩ := Update_requests hHeld (hNonempty requests List.mem_cons_self)
      (hShort requests List.mem_cons_self)
    obtain ⟨pebble₂, hRun, hHeld₂⟩ := ih _ pebble₁ hHeld₁ (fun u hu => hNonempty u (List.mem_cons_of_mem _ hu))
      (fun u hu => hShort u (List.mem_cons_of_mem _ hu))
    refine ⟨pebble₂, ?_, ?_⟩
    · rw [sequenceRun, hUpdate, ExceptRun.ok_bind]
      dsimp only
      rw [hRun, ExceptRun.ok_bind, List.flatten_cons, List.map_append, seqIssue_append, List.map_append]
      rfl
    · rw [List.flatten_cons, List.map_append, seqIssue_append]
      exact hHeld₂

theorem sequenceResultValue_ok (v : UInt64) :
    sequenceResultValue ⟨seqStateMachineUpdatedOK, AppendUint64ToBufferLE [] v⟩ = .ok v := by
  have hRead := ReadUint64FromBufferLE_append [] [] v
  simp only [List.append_nil, List.length_nil] at hRead
  rw [sequenceResultValue, if_neg (by simp)]
  dsimp only
  rw [hRead]

theorem filter_zip_map {β γ : Type} (f : β → γ) (s : Bytes) :
    ∀ (names : List Bytes) (values : List β),
      ((names.zip (values.map f)).filter fun p => p.1 = s).map Prod.snd =
        (((names.zip values).filter fun p => p.1 = s).map Prod.snd).map f := by
  intro names values
  rw [List.zip_map_right, List.filter_map, List.map_map, List.map_map]
  rfl

def tableSequenceName : Bytes := [116, 97, 98, 108, 101]

theorem sequenceRun_append_of_ok : ∀ {pebble pebble' pebble'' : LocalStore} (a b : List (List (UInt64 × Bytes)))
    {results resultsA : List Result},
    sequenceRun pebble (a ++ b) = .ok (pebble'', results) → sequenceRun pebble a = .ok (pebble', resultsA) →
      ∃ resultsB, sequenceRun pebble' b = .ok (pebble'', resultsB) ∧ results = resultsA ++ resultsB
  | _, _, _, [], b, results, resultsA, hAll, hA => by
    obtain ⟨rfl, rfl⟩ := Prod.mk.inj (Except.ok.inj hA)
    exact ⟨results, hAll, rfl⟩
  | pebble, pebble', pebble'', u :: a, b, results, resultsA, hAll, hA => by
    rw [List.cons_append, sequenceRun] at hAll
    rw [sequenceRun] at hA
    obtain ⟨⟨pebble₁, results₁⟩, hUpdate, hAllRest⟩ := ExceptRun.bind_eq_ok.mp hAll
    obtain ⟨⟨pebble₂, rest⟩, hRest, hAllPure⟩ := ExceptRun.bind_eq_ok.mp hAllRest
    obtain ⟨⟨pebble₁', results₁'⟩, hUpdate', hARest⟩ := ExceptRun.bind_eq_ok.mp hA
    rw [hUpdate] at hUpdate'
    obtain ⟨rfl, rfl⟩ := Prod.mk.inj (Except.ok.inj hUpdate').symm
    obtain ⟨⟨pebble₂', restA⟩, hRestA, hAPure⟩ := ExceptRun.bind_eq_ok.mp hARest
    obtain ⟨rfl, rfl⟩ := Prod.mk.inj (ExceptRun.pure_eq_ok.mp hAllPure)
    obtain ⟨rfl, rfl⟩ := Prod.mk.inj (ExceptRun.pure_eq_ok.mp hAPure)
    obtain ⟨resultsB, hB, rfl⟩ := sequenceRun_append_of_ok a b hRest hRestA
    exact ⟨resultsB, hB, by rw [List.append_assoc]⟩

theorem Open_sequenceRun : ∀ {pebble pebble' : LocalStore} {updates : List (List (UInt64 × Bytes))}
    {results : List Result}, (∀ u ∈ updates, u ≠ []) → sequenceRun pebble updates = .ok (pebble', results) →
      ∀ last ∈ updates.flatten.getLast?, sequenceODStateMachine.Open pebble' = .ok last.1
  | _, _, [], _, _, _, last, hLast => by simp at hLast
  | pebble, pebble', u :: updates, results, hNonempty, h, last, hLast => by
    rw [sequenceRun] at h
    obtain ⟨⟨pebble₁, results₁⟩, hUpdate, h⟩ := ExceptRun.bind_eq_ok.mp h
    obtain ⟨⟨pebble₂, rest⟩, hRest, h⟩ := ExceptRun.bind_eq_ok.mp h
    obtain ⟨rfl, -⟩ := Prod.mk.inj (ExceptRun.pure_eq_ok.mp h)
    have hTail : ∀ u' ∈ updates, u' ≠ [] := fun u' hu' => hNonempty u' (List.mem_cons_of_mem u hu')
    by_cases hNil : updates = []
    · -- the last entry is the last of `u`, which the last update applied
      subst hNil
      obtain ⟨rfl, -⟩ := Prod.mk.inj (Except.ok.inj hRest)
      obtain ⟨last', hLast', hOpen⟩ := Open_Update hUpdate
      rw [List.flatten_singleton] at hLast
      rw [List.getLast?_map, hLast] at hLast'
      cases Option.some.inj hLast'
      exact hOpen
    · have hFlat : updates.flatten ≠ [] := by
        obtain ⟨u', hu'⟩ := List.exists_mem_of_ne_nil updates hNil
        exact fun hEmpty => hTail u' hu' (List.eq_nil_of_sublist_nil (hEmpty ▸ List.sublist_flatten_of_mem hu'))
      rw [List.flatten_cons, List.getLast?_append_of_ne_nil _ hFlat] at hLast
      exact Open_sequenceRun hTail hRest last hLast

theorem sequenceRun_values (updates : List (List (UInt64 × Bytes))) (hNonempty : ∀ u ∈ updates, u ≠ [])
    (hShort : ∀ u ∈ updates, ∀ r ∈ u, Short r.2) (hIndexes : (updates.flatten.map Prod.fst).Pairwise (· < ·))
    (s : Bytes) (hFew : (updates.flatten.map Prod.snd).count s < 2 ^ 64) :
    ∃ pebble results, sequenceRun (fun _ => none) updates = .ok (pebble, results) ∧
      (((updates.flatten.map Prod.snd).zip results).filter fun p => p.1 = s).map (fun p => sequenceResultValue p.2) =
        (List.range ((updates.flatten.map Prod.snd).count s)).map (fun n => .ok (UInt64.ofNat n)) ∧
      ((List.range ((updates.flatten.map Prod.snd).count s)).map UInt64.ofNat).Nodup ∧
      pebble (sequenceKey s) =
        (if (updates.flatten.map Prod.snd).count s = 0 then none
        else some (AppendUint64ToBufferLE [] (UInt64.ofNat ((updates.flatten.map Prod.snd).count s)))) ∧
      ∀ k, 0 < k → k ≤ updates.length →
        ∃ pebbleₖ resultsₖ lastIndex resultsRest,
          sequenceRun (fun _ => none) (updates.take k) = .ok (pebbleₖ, resultsₖ) ∧
          sequenceODStateMachine.Open pebbleₖ = .ok lastIndex ∧
          (∀ u ∈ updates.drop k, ∀ r ∈ u, lastIndex < r.1) ∧
          sequenceRun pebbleₖ (updates.drop k) = .ok (pebble, resultsRest) ∧ results = resultsₖ ++ resultsRest := by
  obtain ⟨pebble, hRun, hHeld⟩ := sequenceRun_requests updates (fun _ => 0) (fun _ => none) SequencesHeld.empty
    hNonempty hShort
  refine ⟨pebble, _, hRun, ?_, ?_, ?_, fun k hk hkLen => ?_⟩
  · -- the values of `s` are its counts, each read back from its result
    have hValues := seqIssue_values (fun _ => 0) (updates.flatten.map Prod.snd) s
    have hSnd : ∀ l : List (Bytes × Result),
        l.map (fun p => sequenceResultValue p.2) = (l.map Prod.snd).map sequenceResultValue := by
      intro l
      rw [List.map_map]
      rfl
    rw [hSnd, filter_zip_map, hValues, List.map_map, List.range_eq_range']
    apply List.map_congr_left
    intro n _
    exact sequenceResultValue_ok (UInt64.ofNat n)
  · -- fewer than `2^64` values are told apart by the counter
    refine List.Nodup.map_on (fun m hm n hn hEq => ?_) List.nodup_range
    have hm' := List.mem_range.mp hm
    have hn' := List.mem_range.mp hn
    have hNat := congrArg UInt64.toNat hEq
    rwa [UInt64.toNat_ofNat_of_lt' (show m < 2 ^ 64 by omega),
      UInt64.toNat_ofNat_of_lt' (show n < 2 ^ 64 by omega)] at hNat
  · rw [hHeld s, seqIssue_counts, Nat.zero_add]
  · -- a restart after the first `k` updates reopens at the index of their last entry
    have hTakeNonempty : ∀ u ∈ updates.take k, u ≠ [] := fun u hu => hNonempty u (List.mem_of_mem_take hu)
    obtain ⟨pebbleₖ, hRunₖ, -⟩ := sequenceRun_requests (updates.take k) (fun _ => 0) (fun _ => none)
      SequencesHeld.empty hTakeNonempty fun u hu => hShort u (List.mem_of_mem_take hu)
    obtain ⟨resultsRest, hRest, hResults⟩ :=
      sequenceRun_append_of_ok (updates.take k) (updates.drop k) (by rw [List.take_append_drop]; exact hRun) hRunₖ
    obtain ⟨last, hLast⟩ : ∃ last, (updates.take k).flatten.getLast? = some last := by
      cases hL : (updates.take k).flatten.getLast? with
      | some last => exact ⟨last, rfl⟩
      | none =>
        have hFirst : updates.get ⟨0, by omega⟩ ∈ updates.take k :=
          List.mem_take_iff_getElem.mpr ⟨0, by simp; omega, rfl⟩
        have hEmpty := List.getLast?_eq_none_iff.mp hL
        exact absurd (List.eq_nil_of_sublist_nil (hEmpty ▸ List.sublist_flatten_of_mem hFirst))
          (hTakeNonempty _ hFirst)
    refine ⟨pebbleₖ, _, last.1, resultsRest, hRunₖ, Open_sequenceRun hTakeNonempty hRunₖ last hLast,
      fun u hu r hr => ?_, hRest, hResults⟩
    -- the indexes of the log increase, and the later entries come after the last one applied
    rw [← List.take_append_drop k updates, List.flatten_append, List.map_append] at hIndexes
    exact (List.pairwise_append.mp hIndexes).2.2 last.1 (List.mem_map_of_mem (List.mem_of_getLast? hLast)) r.1
      (List.mem_map_of_mem (List.mem_flatten_of_mem hu hr))

theorem sequenceRun_values_two_updates :
    (∀ u ∈ [[((1 : UInt64), tableSequenceName)], [(2, tableSequenceName), (3, [97])]], u ≠ []) ∧
    (∀ u ∈ [[((1 : UInt64), tableSequenceName)], [(2, tableSequenceName), (3, [97])]], ∀ r ∈ u, Short r.2) ∧
    ([[((1 : UInt64), tableSequenceName)], [(2, tableSequenceName), (3, [97])]].flatten.map Prod.fst).Pairwise
      (· < ·) ∧
    ([[((1 : UInt64), tableSequenceName)], [(2, tableSequenceName), (3, [97])]].flatten.map Prod.snd).count
      tableSequenceName < 2 ^ 64 ∧
    ∃ pebble results,
      sequenceRun (fun _ => none) [[(1, tableSequenceName)], [(2, tableSequenceName), (3, [97])]] =
        .ok (pebble, results) ∧
      ((([[((1 : UInt64), tableSequenceName)], [(2, tableSequenceName), (3, [97])]].flatten.map Prod.snd).zip
          results).filter fun p => p.1 = tableSequenceName).map (fun p => sequenceResultValue p.2) =
        (List.range (([[((1 : UInt64), tableSequenceName)], [(2, tableSequenceName), (3, [97])]].flatten.map
          Prod.snd).count tableSequenceName)).map (fun n => .ok (UInt64.ofNat n)) := by
  refine ⟨by decide, by decide, by decide, by decide, ?_⟩
  obtain ⟨pebble, results, hRun, hValues, -⟩ :=
    sequenceRun_values [[(1, tableSequenceName)], [(2, tableSequenceName), (3, [97])]] (by decide) (by decide)
      (by decide) tableSequenceName (by decide)
  exact ⟨pebble, results, hRun, hValues⟩

end PranaDB
