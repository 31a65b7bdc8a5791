import PranaDB.Push.Scheduler
import PranaDB.Common.RowEncoding

/-! # Handling a batch of received rows (`push/engine.go`)

`Engine.HandleBatch` groups the forwarded rows of a batch by remote consumer
into the map `rawRows`, adds the delete of each row's receiver-table key to the
write batch, and runs `processReceiveBatch`. That loop decodes each consumer's
rows and hands them to the consumer's `HandleRemoteRows`; after the loop it
sends the forward batches and commits the write batch. `HandleBatch` then
returns the receiver sequence of the batch's last row, which the scheduler
records as processed.

Go iterates a map in an order of its own: `processReceiveBatch` runs over
`iter rawRows`, and the results hold for every `iter` that permutes its
argument. A consumer's `HandleRemoteRows` is a function of the rows and the
execution context; what the cluster answers to the forward sends and to the
commit is an input (`CommitOutcome`). The result is the write batch handed to
the cluster's `WriteBatch`, `none` when nothing is committed.
-/

namespace PranaDB
set_option autoImplicit false

structure RawRow where
  ReceiverSequence : UInt64
  Row : Bytes
deriving DecidableEq, Repr

/-- `exec.RowsEntry`: where the row before and after the change sit among the
rows of the batch, `-1` for none, and the receiver sequence. -/
structure RowsEntry where
  prevIndex : Int
  currIndex : Int
  receiverIndex : Int64
deriving DecidableEq, Repr

structure RowsBatch where
  rows : List Row
  entries : List RowsEntry
deriving DecidableEq, Repr

/-- The fields of `exec.ExecutionContext` that the batch writes to: the local
write batch and the forward batches by shard. -/
structure ExecutionContext where
  WriteBatch : WriteBatch
  RemoteBatches : List (UInt64 × PranaDB.WriteBatch)

/-- A `RemoteConsumer`: the column types its rows decode with, and its
`RowsHandler.HandleRemoteRows`. -/
structure RemoteConsumer where
  ColTypes : List ColumnType
  HandleRemoteRows : RowsBatch → ExecutionContext → Except String ExecutionContext

/-- What the cluster answers at the end of `processReceiveBatch`: the error of
`SendForwardBatches` and that of `WriteBatch`, if any. -/
structure CommitOutcome where
  forwarded : Option String
  written : Option String

def WriteBatch.HasWrites (wb : WriteBatch) : Bool := !wb.Puts.isEmpty || !wb.Deletes.isEmpty

/-- `rawRows[id] = append(rawRows[id], row)` on the map as a list of entries. -/
def addRawRow (id : UInt64) (row : RawRow) : List (UInt64 × List RawRow) → List (UInt64 × List RawRow)
  | [] => [(id, [row])]
  | (id', rows) :: rest => if id' = id then (id', rows ++ [row]) :: rest else (id', rows) :: addRawRow id row rest

/-- The inner loop of `processReceiveBatch` over one consumer's rows: each frame
split into the row before and after the change, which are appended to the rows
of the batch, and its entry. `none` is a row that does not decode. -/
def decodeRawRows (colTypes : List ColumnType) : List RawRow → RowsBatch → Option RowsBatch
  | [], batch => some batch
  | row :: rawRows, batch => do
    let (prev, curr) ← decodeReceivedRow row.Row colTypes
    let (rows, pi) : List Row × Int :=
      match prev with
      | none => (batch.rows, -1)
      | some prev => (batch.rows ++ [prev], batch.rows.length)
    let (rows, ci) : List Row × Int :=
      match curr with
      | none => (rows, -1)
      | some curr => (rows ++ [curr], rows.length)
    decodeRawRows colTypes rawRows ⟨rows, batch.entries ++ [⟨pi, ci, row.ReceiverSequence.toInt64⟩]⟩

/-- The loop of `processReceiveBatch` over the consumers. `none` is its
`return nil` at a consumer that is not loaded. -/
def processConsumers (remoteConsumers : List (UInt64 × RemoteConsumer)) :
    List (UInt64 × List RawRow) → ExecutionContext → Except String (Option ExecutionContext)
  | [], ctx => .ok (some ctx)
  | (entityID, rawRows) :: rest, ctx =>
    match remoteConsumers.lookup entityID with
    | none => .ok none
    | some remoteConsumer =>
      match decodeRawRows remoteConsumer.ColTypes rawRows ⟨[], []⟩ with
      | none => .error "cannot decode row"
      | some rowsBatch =>
        match remoteConsumer.HandleRemoteRows rowsBatch ctx with
        | .error err => .error err
        | .ok ctx => processConsumers remoteConsumers rest ctx

/-- `Engine.processReceiveBatch`: the write batch committed, if any. -/
def processReceiveBatch (remoteConsumers : List (UInt64 × RemoteConsumer)) (o : CommitOutcome)
    (rawRows : List (UInt64 × List RawRow)) (ctx : ExecutionContext) : Except String (Option WriteBatch) :=
  match processConsumers remoteConsumers rawRows ctx with
  | .error err => .error err
  | .ok none => .ok none
  | .ok (some ctx) =>
    match (if ctx.RemoteBatches.isEmpty then none else o.forwarded) with
    | some err => .error err
    | none =>
      if ctx.WriteBatch.HasWrites then
        match o.written with
        | some err => .error err
        | none => .ok (some ctx.WriteBatch)
      else .ok none

/-- The map `rawRows` of `HandleBatch` and the write batch with the receiver
rows deleted. -/
def groupRows (writeBatch : WriteBatch) (rowsBatch : List ForwardRow) :
    List (UInt64 × List RawRow) × WriteBatch :=
  rowsBatch.foldl (fun acc row =>
    (addRawRow row.RemoteConsumerID ⟨row.ReceiverSequence, row.RowBytes⟩ acc.1, acc.2.AddDelete row.KeyBytes))
    ([], writeBatch)

/-- `Engine.HandleBatch` on a batch that is not the first: the receiver
sequence of the last row, and the write batch committed. An empty batch is the
index panic of `rowsBatch[len(rowsBatch)-1]`. -/
def HandleBatch (remoteConsumers : List (UInt64 × RemoteConsumer)) (o : CommitOutcome)
    (iter : List (UInt64 × List RawRow) → List (UInt64 × List RawRow)) (writeBatch : WriteBatch)
    (rowsBatch : List ForwardRow) : Except String (Int64 × Option WriteBatch) :=
  let (rawRows, writeBatch) := groupRows writeBatch rowsBatch
  match processReceiveBatch remoteConsumers o (iter rawRows) ⟨writeBatch, []⟩ with
  | .error err => .error err
  | .ok committed =>
    match rowsBatch.getLast? with
    | none => .error "index out of range"
    | some row => .ok (row.ReceiverSequence.toInt64, committed)

theorem mem_keys_addRawRow (id k : UInt64) (row : RawRow) (l : List (UInt64 × List RawRow)) :
    k ∈ (addRawRow id row l).map Prod.fst ↔ k = id ∨ k ∈ l.map Prod.fst := by
  induction l with
  | nil => simp [addRawRow]
  | cons p l ih =>
    obtain ⟨id', rows⟩ := p
    by_cases hId : id' = id
    · subst hId
      simp only [addRawRow, ↓reduceIte, List.map_cons, List.mem_cons]
      constructor
      · rintro (h | h) <;> simp [h]
      · rintro (h | h | h) <;> simp [h]
    · simp only [addRawRow, hId, ↓reduceIte, List.map_cons, List.mem_cons, ih]
      constructor
      · rintro (h | h | h) <;> simp [h]
      · rintro (h | h | h) <;> simp [h]

theorem mem_keys_foldl_groupRows (rowsBatch : List ForwardRow) :
    ∀ (acc : List (UInt64 × List RawRow) × WriteBatch) (k : UInt64),
      k ∈ (rowsBatch.foldl (fun acc row =>
          (addRawRow row.RemoteConsumerID ⟨row.ReceiverSequence, row.RowBytes⟩ acc.1,
            acc.2.AddDelete row.KeyBytes)) acc).1.map Prod.fst ↔
        k ∈ acc.1.map Prod.fst ∨ ∃ row ∈ rowsBatch, row.RemoteConsumerID = k := by
  induction rowsBatch with
  | nil => simp
  | cons row rows ih =>
    intro acc k
    rw [List.foldl_cons, ih, mem_keys_addRawRow]
    constructor
    · rintro ((h | h) | ⟨r, hr, rfl⟩)
      · exact Or.inr ⟨row, List.mem_cons_self, h.symm⟩
      · exact Or.inl h
      · exact Or.inr ⟨r, List.mem_cons_of_mem row hr, rfl⟩
    · rintro (h | ⟨r, hr, rfl⟩)
      · exact Or.inl (Or.inr h)
      · rcases List.mem_cons.mp hr with rfl | hr
        · exact Or.inl (Or.inl rfl)
        · exact Or.inr ⟨r, hr, rfl⟩

theorem mem_keys_groupRows (writeBatch : WriteBatch) (rowsBatch : List ForwardRow) (k : UInt64) :
    k ∈ (groupRows writeBatch rowsBatch).1.map Prod.fst ↔ ∃ row ∈ rowsBatch, row.RemoteConsumerID = k := by
  rw [groupRows, mem_keys_foldl_groupRows]
  simp

section Consumers

variable (remoteConsumers : List (UInt64 × RemoteConsumer))

theorem processConsumers_of_unloaded : ∀ (rawRows : List (UInt64 × List RawRow)) (ctx : ExecutionContext),
    (∃ p ∈ rawRows, remoteConsumers.lookup p.1 = none) →
      (∃ err, processConsumers remoteConsumers rawRows ctx = .error err) ∨
        processConsumers remoteConsumers rawRows ctx = .ok none
  | [], _, ⟨_, hp, _⟩ => absurd hp List.not_mem_nil
  | (entityID, rows) :: rest, ctx, ⟨p, hp, hNone⟩ => by
    rw [processConsumers]
    cases hLoad : remoteConsumers.lookup entityID with
    | none => exact Or.inr rfl
    | some remoteConsumer =>
      have hRest : ∃ p ∈ rest, remoteConsumers.lookup p.1 = none := by
        rcases List.mem_cons.mp hp with rfl | hp
        · rw [hLoad] at hNone
          cases hNone
        · exact ⟨p, hp, hNone⟩
      dsimp only
      cases decodeRawRows remoteConsumer.ColTypes rows ⟨[], []⟩ with
      | none => exact Or.inl ⟨_, rfl⟩
      | some rowsBatch =>
        dsimp only
        cases remoteConsumer.HandleRemoteRows rowsBatch ctx with
        | error err => exact Or.inl ⟨err, rfl⟩
        | ok ctx' => exact processConsumers_of_unloaded rest ctx' hRest

/-- The consumers of `rawRows` that are loaded decode their rows and handle
them without error, whatever the context. -/
def ConsumersSucceed (rawRows : List (UInt64 × List RawRow)) : Prop :=
  ∀ p ∈ rawRows, ∀ remoteConsumer, remoteConsumers.lookup p.1 = some remoteConsumer →
    ∃ rowsBatch, decodeRawRows remoteConsumer.ColTypes p.2 ⟨[], []⟩ = some rowsBatch ∧
      ∀ ctx, ∃ ctx', remoteConsumer.HandleRemoteRows rowsBatch ctx = .ok ctx'

theorem processConsumers_of_succeed : ∀ (rawRows : List (UInt64 × List RawRow)) (ctx : ExecutionContext),
    ConsumersSucceed remoteConsumers rawRows →
      ((∃ p ∈ rawRows, remoteConsumers.lookup p.1 = none) ↔
        processConsumers remoteConsumers rawRows ctx = .ok none)
  | [], ctx, _ => by simp [processConsumers]
  | (entityID, rows) :: rest, ctx, hSucceed => by
    have hRest : ConsumersSucceed remoteConsumers rest := fun p hp => hSucceed p (List.mem_cons_of_mem _ hp)
    rw [processConsumers]
    cases hLoad : remoteConsumers.lookup entityID with
    | none => exact ⟨fun _ => rfl, fun _ => ⟨(entityID, rows), List.mem_cons_self, hLoad⟩⟩
    | some remoteConsumer =>
      obtain ⟨rowsBatch, hDecode, hHandle⟩ := hSucceed (entityID, rows) List.mem_cons_self remoteConsumer hLoad
      obtain ⟨ctx', hCtx'⟩ := hHandle ctx
      dsimp only
      rw [hDecode]
      dsimp only
      rw [hCtx']
      dsimp only
      rw [← processConsumers_of_succeed rest ctx' hRest]
      constructor
      · rintro ⟨p, hp, hNone⟩
        rcases List.mem_cons.mp hp with rfl | hp
        · rw [hLoad] at hNone
          cases hNone
        · exact ⟨p, hp, hNone⟩
      · rintro ⟨p, hp, hNone⟩
        exact ⟨p, List.mem_cons_of_mem _ hp, hNone⟩

theorem ConsumersSucceed.perm {l l' : List (UInt64 × List RawRow)} (h : ConsumersSucceed remoteConsumers l)
    (hPerm : l'.Perm l) : ConsumersSucceed remoteConsumers l' :=
  fun p hp => h p (hPerm.mem_iff.mp hp)

theorem processConsumers_ok_of_succeed : ∀ (rawRows : List (UInt64 × List RawRow)) (ctx : ExecutionContext),
    ConsumersSucceed remoteConsumers rawRows → ∃ r, processConsumers remoteConsumers rawRows ctx = .ok r
  | [], ctx, _ => ⟨_, rfl⟩
  | (entityID, rows) :: rest, ctx, hSucceed => by
    rw [processConsumers]
    cases hLoad : remoteConsumers.lookup entityID with
    | none => exact ⟨_, rfl⟩
    | some remoteConsumer =>
      obtain ⟨rowsBatch, hDecode, hHandle⟩ := hSucceed (entityID, rows) List.mem_cons_self remoteConsumer hLoad
      obtain ⟨ctx', hCtx'⟩ := hHandle ctx
      dsimp only
      rw [hDecode]
      dsimp only
      rw [hCtx']
      exact processConsumers_ok_of_succeed rest ctx' fun p hp => hSucceed p (List.mem_cons_of_mem _ hp)

end Consumers

theorem processReceiveBatch_of_none {remoteConsumers : List (UInt64 × RemoteConsumer)} {o : CommitOutcome}
    {rawRows : List (UInt64 × List RawRow)} {ctx : ExecutionContext}
    (h : processConsumers remoteConsumers rawRows ctx = .ok none) :
    processReceiveBatch remoteConsumers o rawRows ctx = .ok none := by
  rw [processReceiveBatch, h]

theorem processReceiveBatch_of_error {remoteConsumers : List (UInt64 × RemoteConsumer)} {o : CommitOutcome}
    {rawRows : List (UInt64 × List RawRow)} {ctx : ExecutionContext} {err : String}
    (h : processConsumers remoteConsumers rawRows ctx = .error err) :
    processReceiveBatch remoteConsumers o rawRows ctx = .error err := by
  rw [processReceiveBatch, h]

theorem HandleBatch_of_processReceiveBatch {remoteConsumers : List (UInt64 × RemoteConsumer)} {o : CommitOutcome}
    {iter : List (UInt64 × List RawRow) → List (UInt64 × List RawRow)} {writeBatch : WriteBatch}
    {rowsBatch : List ForwardRow} {committed : Option WriteBatch}
    (h : processReceiveBatch remoteConsumers o (iter (groupRows writeBatch rowsBatch).1)
      ⟨(groupRows writeBatch rowsBatch).2, []⟩ = .ok committed) :
    HandleBatch remoteConsumers o iter writeBatch rowsBatch =
      match rowsBatch.getLast? with
      | none => .error "index out of range"
      | some row => .ok (row.ReceiverSequence.toInt64, committed) := by
  rw [HandleBatch]
  dsimp only
  rw [h]

theorem exists_unloaded_of_row {remoteConsumers : List (UInt64 × RemoteConsumer)}
    {iter : List (UInt64 × List RawRow) → List (UInt64 × List RawRow)} (hIter : ∀ l, (iter l).Perm l)
    {writeBatch : WriteBatch} {rowsBatch : List ForwardRow}
    (h : ∃ row ∈ rowsBatch, remoteConsumers.lookup row.RemoteConsumerID = none) :
    ∃ p ∈ iter (groupRows writeBatch rowsBatch).1, remoteConsumers.lookup p.1 = none := by
  obtain ⟨row, hRow, hNone⟩ := h
  obtain ⟨p, hp, hKey⟩ := List.mem_map.mp ((mem_keys_groupRows writeBatch rowsBatch _).mpr ⟨row, hRow, rfl⟩)
  exact ⟨p, (hIter _).mem_iff.mpr hp, hKey ▸ hNone⟩

theorem getLast?_of_mem {rowsBatch : List ForwardRow} {row : ForwardRow} (h : row ∈ rowsBatch) :
    ∃ last, rowsBatch.getLast? = some last :=
  Option.isSome_iff_exists.mp (List.getLast?_isSome.mpr (List.ne_nil_of_mem h))

theorem HandleBatch_of_unloaded {remoteConsumers : List (UInt64 × RemoteConsumer)} {o : CommitOutcome}
    {iter : List (UInt64 × List RawRow) → List (UInt64 × List RawRow)} (hIter : ∀ l, (iter l).Perm l)
    {writeBatch : WriteBatch} {rowsBatch : List ForwardRow} {last : ForwardRow}
    (hSucceed : ConsumersSucceed remoteConsumers (groupRows writeBatch rowsBatch).1)
    (hUnloaded : ∃ row ∈ rowsBatch, remoteConsumers.lookup row.RemoteConsumerID = none)
    (hLast : rowsBatch.getLast? = some last) :
    HandleBatch remoteConsumers o iter writeBatch rowsBatch = .ok (last.ReceiverSequence.toInt64, none) := by
  have hNone := (processConsumers_of_succeed remoteConsumers _ ⟨(groupRows writeBatch rowsBatch).2, []⟩
    (hSucceed.perm remoteConsumers (hIter _))).mp (exists_unloaded_of_row hIter hUnloaded)
  rw [HandleBatch_of_processReceiveBatch (processReceiveBatch_of_none hNone), hLast]

theorem HandleBatch_unloaded_consumer_drops_batch :
    (∀ (remoteConsumers : List (UInt64 × RemoteConsumer)) (o : CommitOutcome)
        (iter : List (UInt64 × List RawRow) → List (UInt64 × List RawRow)) (writeBatch : WriteBatch)
        (rowsBatch : List ForwardRow),
      (∀ l, (iter l).Perm l) → (∃ row ∈ rowsBatch, remoteConsumers.lookup row.RemoteConsumerID = none) →
        (∃ err, HandleBatch remoteConsumers o iter writeBatch rowsBatch = .error err) ∨
          ∃ seq, HandleBatch remoteConsumers o iter writeBatch rowsBatch = .ok (seq, none)) ∧
    (∀ (iter : List (UInt64 × List RawRow) → List (UInt64 × List RawRow)) (s : ShardScheduler),
      (∀ l, (iter l).Perm l) →
        let live : RemoteConsumer := ⟨[], fun _ ctx => .ok { ctx with WriteBatch := ctx.WriteBatch.AddPut [1] [2] }⟩
        let row₁ : ForwardRow := ⟨5, 1, [1], EncodePrevAndCurrentRow [] [], 0, false⟩
        let row₂ : ForwardRow := ⟨6, 2, [2], EncodePrevAndCurrentRow [] [], 0, false⟩
        HandleBatch [(1, live)] ⟨none, none⟩ iter (NewWriteBatch 1000) [row₁, row₂] = .ok (6, none) ∧
        (s.processBatch false ((HandleBatch [(1, live)] ⟨none, none⟩ iter (NewWriteBatch 1000)
          [row₁, row₂]).map Prod.fst)).1.lastProcessedReceiverSeq = 6 ∧
        ∃ committed, HandleBatch [(1, live)] ⟨none, none⟩ iter (NewWriteBatch 1000) [row₁] =
          .ok (5, some committed)) := by
  refine ⟨fun remoteConsumers o iter writeBatch rowsBatch hIter hUnloaded => ?_, fun iter s hIter => ?_⟩
  · have hKey : ∃ p ∈ iter (groupRows writeBatch rowsBatch).1, remoteConsumers.lookup p.1 = none :=
      exists_unloaded_of_row hIter hUnloaded
    obtain ⟨row, hRow, -⟩ := hUnloaded
    obtain ⟨last, hLast⟩ := getLast?_of_mem hRow
    rcases processConsumers_of_unloaded remoteConsumers _ ⟨(groupRows writeBatch rowsBatch).2, []⟩ hKey with
      ⟨err, hErr⟩ | hNone
    · refine Or.inl ⟨err, ?_⟩
      rw [HandleBatch]
      dsimp only
      rw [processReceiveBatch_of_error hErr]
    · refine Or.inr ⟨last.ReceiverSequence.toInt64, ?_⟩
      rw [HandleBatch_of_processReceiveBatch (processReceiveBatch_of_none hNone), hLast]
  · intro live row₁ row₂
    have hGroup : (groupRows (NewWriteBatch 1000) [row₁, row₂]).1 =
        [(1, [⟨5, EncodePrevAndCurrentRow [] []⟩]), (2, [⟨6, EncodePrevAndCurrentRow [] []⟩])] := rfl
    -- consumer 1 decodes its row and handles it; consumer 2 is not loaded
    have hSucceed : ConsumersSucceed [(1, live)] (groupRows (NewWriteBatch 1000) [row₁, row₂]).1 := by
      rw [hGroup]
      intro p hp remoteConsumer hLoad
      rcases List.mem_pair.mp hp with rfl | rfl
      · obtain rfl : live = remoteConsumer := Option.some.inj hLoad
        exact ⟨_, rfl, fun ctx => ⟨_, rfl⟩⟩
      · cases hLoad
    have hDrop : HandleBatch [(1, live)] ⟨none, none⟩ iter (NewWriteBatch 1000) [row₁, row₂] = .ok (6, none) :=
      HandleBatch_of_unloaded hIter hSucceed ⟨row₂, List.mem_pair.mpr (Or.inr rfl), rfl⟩ rfl
    refine ⟨hDrop, ?_, ?_⟩
    · rw [hDrop]
      rfl
    · -- alone, the row of consumer 1 is committed
      have hGroup₁ : groupRows (NewWriteBatch 1000) [row₁] =
          ([(1, [⟨5, EncodePrevAndCurrentRow [] []⟩])], (NewWriteBatch 1000).AddDelete [1]) := rfl
      have hOne : iter [(1, [⟨5, EncodePrevAndCurrentRow [] []⟩])] = [(1, [⟨5, EncodePrevAndCurrentRow [] []⟩])] :=
        List.perm_singleton.mp (hIter _)
      rw [HandleBatch, hGroup₁]
      dsimp only
      rw [hOne]
      exact ⟨_, rfl⟩

theorem HandleBatch_unloaded_consumer_drops_batch_two_rows :
    ((∃ err, HandleBatch [(1, ⟨[], fun _ ctx => .ok { ctx with WriteBatch := ctx.WriteBatch.AddPut [1] [2] }⟩)] ⟨none, none⟩ id (NewWriteBatch 1000)
          [⟨5, 1, [1], EncodePrevAndCurrentRow [] [], 0, false⟩, ⟨6, 2, [2], EncodePrevAndCurrentRow [] [], 0, false⟩] = .error err) ∨
        ∃ seq, HandleBatch [(1, ⟨[], fun _ ctx => .ok { ctx with WriteBatch := ctx.WriteBatch.AddPut [1] [2] }⟩)] ⟨none, none⟩ id (NewWriteBatch 1000)
          [⟨5, 1, [1], EncodePrevAndCurrentRow [] [], 0, false⟩, ⟨6, 2, [2], EncodePrevAndCurrentRow [] [], 0, false⟩] = .ok (seq, none)) ∧
      HandleBatch [(1, ⟨[], fun _ ctx => .ok { ctx with WriteBatch := ctx.WriteBatch.AddPut [1] [2] }⟩)] ⟨none, none⟩ id (NewWriteBatch 1000)
          [⟨5, 1, [1], EncodePrevAndCurrentRow [] [], 0, false⟩, ⟨6, 2, [2], EncodePrevAndCurrentRow [] [], 0, false⟩] = .ok (6, none) ∧
      ((NewShardScheduler 1 0).processBatch false ((HandleBatch [(1, ⟨[], fun _ ctx => .ok { ctx with WriteBatch := ctx.WriteBatch.AddPut [1] [2] }⟩)] ⟨none, none⟩ id
          (NewWriteBatch 1000) [⟨5, 1, [1], EncodePrevAndCurrentRow [] [], 0, false⟩, ⟨6, 2, [2], EncodePrevAndCurrentRow [] [], 0, false⟩]).map Prod.fst)).1.lastProcessedReceiverSeq = 6 := by
  have hBug := HandleBatch_unloaded_consumer_drops_batch.2 id (NewShardScheduler 1 0) List.Perm.refl
  refine ⟨HandleBatch_unloaded_consumer_drops_batch.1 _ ⟨none, none⟩ id (NewWriteBatch 1000) _ List.Perm.refl
    ⟨⟨6, 2, [2], EncodePrevAndCurrentRow [] [], 0, false⟩, by simp, rfl⟩, hBug.1, hBug.2.1⟩

end PranaDB
