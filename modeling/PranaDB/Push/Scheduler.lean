import PranaDB.Cluster.ShardStateMachine

/-! # The shard scheduler (`push/sched/scheduler.go`)

A `ShardScheduler` queues what its shard has to do: rows the state machine
hands it (`AddRows`), forward writes to propose (`addForwardBatch`) and actions
(`AddAction`). Its loop takes one piece of work at a time (`getNextBatch`) and
runs it (`innerLoop`). The first turn after `Start` loads the receiver table
instead, and later turns drop the rows at the head of a batch that this load
already covered.

The loop runs as one step here. Between `getNextBatch` and the end of the
turn, the other methods only append to the queues, which the rest of the turn
does not read. The exception is a failing turn, and after it nothing is
processed again. What the world answers is an input of the step
(`LoopOutcome`): the receiver sequence or error of `HandleBatch`, the error of
`ExecuteForwardBatch`, the error of an action. A channel is named by a number.
-/

namespace PranaDB
set_option autoImplicit false

structure WriteBatchEntry where
  writeBatch : Bytes
  completionChannels : List Nat
deriving DecidableEq, Repr

/-- `actionEntry`, without the function it runs. -/
structure ActionEntry where
  weight : Int
  completionChannel : Nat
deriving DecidableEq, Repr

/-- The fields of `ShardScheduler` that its queues and its loop use. The
configuration makes `maxProcessBatchSize` at least 1. -/
structure ShardScheduler where
  started : Bool
  failed : Bool
  stopped : Bool
  processorRunning : Bool
  forwardRows : List ForwardRow
  fillForwardRows : List ForwardRow
  forwardWrites : List WriteBatchEntry
  actions : List ActionEntry
  queuedWriteRows : Int
  queuedActionWeights : Int
  lastQueuedReceiverSeq : UInt64
  lastProcessedReceiverSeq : UInt64
  maxProcessBatchSize : Nat
  maxForwardWriteBatchSize : Int
  processingPaused : Bool
  fillRun : Int
  nextChannel : Nat
deriving DecidableEq, Repr

def NewShardScheduler (maxProcessBatchSize : Nat) (maxForwardWriteBatchSize : Int) : ShardScheduler :=
  ⟨false, false, false, false, [], [], [], [], 0, 0, 0, 0, maxProcessBatchSize, maxForwardWriteBatchSize,
    false, 0, 0⟩

/-- `getNumPuts`: the count of puts of a forward write, after its three header bytes. -/
def getNumPuts (batch : Bytes) : Option UInt32 :=
  (ReadUint32FromBufferLE batch 3).map Prod.fst

def sumNumPuts (forwardWrites : List WriteBatchEntry) : Int :=
  (forwardWrites.map fun fw => ((getNumPuts fw.writeBatch).map fun n => (n.toNat : Int)).getD 0).sum

theorem sumNumPuts_cons (e : WriteBatchEntry) (q : List WriteBatchEntry) :
    sumNumPuts (e :: q) = ((getNumPuts e.writeBatch).map fun n => (n.toNat : Int)).getD 0 + sumNumPuts q := by
  simp [sumNumPuts]

theorem sumNumPuts_append (q q' : List WriteBatchEntry) : sumNumPuts (q ++ q') = sumNumPuts q + sumNumPuts q' := by
  simp [sumNumPuts]

theorem sumNumPuts_take_add_drop (q : List WriteBatchEntry) (k : Nat) :
    sumNumPuts (q.take k) + sumNumPuts (q.drop k) = sumNumPuts q := by
  rw [← sumNumPuts_append, List.take_append_drop]

/-- The errors of the scheduler's methods. -/
inductive SchedError where
  | panic (msg : String)
  | error (msg : String)
deriving DecidableEq, Repr

namespace ShardScheduler

/-- `maybeStartRunning`: a started scheduler whose loop is idle is woken up. -/
def maybeStartRunning (s : ShardScheduler) : ShardScheduler :=
  if s.started && !s.processorRunning then { s with processorRunning := true } else s

/-- `addForwardBatch`: the write is queued with a new channel, and its puts counted. -/
def addForwardBatch (s : ShardScheduler) (writeBatch : Bytes) : Except SchedError (Nat × ShardScheduler) :=
  if s.failed then .error (.error "cannot add forward batch, scheduler is failed")
  else if s.stopped then .error (.error "cannot add forward batch, scheduler has stopped")
  else
    let ch := s.nextChannel
    let s := { s with forwardWrites := s.forwardWrites ++ [WriteBatchEntry.mk writeBatch [ch]],
                      nextChannel := ch + 1 }
    match getNumPuts writeBatch with
    | none => .error (.panic "index out of range")
    | some numPuts => .ok (ch, maybeStartRunning { s with queuedWriteRows := s.queuedWriteRows + numPuts.toNat })

/-- `AddRows`: fill rows and the others go to their own queues. -/
def AddRows (s : ShardScheduler) (rows : List ForwardRow) : ShardScheduler :=
  if s.failed || s.stopped then s
  else
    let s := { s with fillForwardRows := s.fillForwardRows ++ rows.filter ForwardRow.Fill,
                      forwardRows := s.forwardRows ++ rows.filter fun row : ForwardRow => !row.Fill }
    let s := match s.forwardRows.getLast? with
      | some row => { s with lastQueuedReceiverSeq := row.ReceiverSequence }
      | none => s
    maybeStartRunning s

/-- `PauseProcessing`: no process batch is chosen until `ResumeProcessing`. -/
def PauseProcessing (s : ShardScheduler) : ShardScheduler := { s with processingPaused := true }

def ResumeProcessing (s : ShardScheduler) : ShardScheduler :=
  maybeStartRunning { s with processingPaused := false }

def AddAction (s : ShardScheduler) (weight : Int) : Except SchedError (Nat × ShardScheduler) :=
  if s.failed then .error (.error "cannot add action, scheduler is failed")
  else if s.stopped then .error (.error "cannot add action, scheduler has stopped")
  else
    let ch := s.nextChannel
    let s := { s with actions := s.actions ++ [ActionEntry.mk weight ch],
                      queuedActionWeights := s.queuedActionWeights + weight, nextChannel := ch + 1 }
    .ok (ch, maybeStartRunning s)

def getAction (s : ShardScheduler) : Option (ActionEntry × ShardScheduler) :=
  match s.actions with
  | [] => none
  | entry :: rest =>
    some (entry, { s with actions := rest, queuedActionWeights := s.queuedActionWeights - entry.weight })

/-- `getRowsToProcess`: at most `maxProcessBatchSize` rows from the head of the queue. -/
def getRowsToProcess (s : ShardScheduler) : List ForwardRow × ShardScheduler :=
  let numRows := min s.forwardRows.length s.maxProcessBatchSize
  (s.forwardRows.take numRows, { s with forwardRows := s.forwardRows.drop numRows })

def getFillRowsToProcess (s : ShardScheduler) : List ForwardRow × ShardScheduler :=
  let numRows := min s.fillForwardRows.length s.maxProcessBatchSize
  (s.fillForwardRows.take numRows, { s with fillForwardRows := s.fillForwardRows.drop numRows })

end ShardScheduler

/-- The loop of `getForwardWriteBatch` over the queued writes: each one's bytes
after its header are appended and its puts and first channel counted, until the
puts reach `maxForwardWriteBatchSize` or 255 writes are taken. Returns the
bytes, the puts, the number taken and the channels. -/
def combineForwardWrites (maxForwardWriteBatchSize : Int) :
    List WriteBatchEntry → Bytes → Int → Nat → List Nat → Option (Bytes × Int × Nat × List Nat)
  | [], combinedEntries, entries, nextBatchIndex, completionChannels =>
    some (combinedEntries, entries, nextBatchIndex, completionChannels)
  | batch :: rest, combinedEntries, entries, nextBatchIndex, completionChannels => do
    let nextBatchIndex := nextBatchIndex + 1
    let numPuts ← getNumPuts batch.writeBatch
    let combinedEntries := combinedEntries ++ batch.writeBatch.drop 3
    let entries := entries + numPuts.toNat
    let ch ← batch.completionChannels[0]?
    let completionChannels := completionChannels ++ [ch]
    if entries ≥ maxForwardWriteBatchSize ∨ nextBatchIndex = 255 then
      some (combinedEntries, entries, nextBatchIndex, completionChannels)
    else combineForwardWrites maxForwardWriteBatchSize rest combinedEntries entries nextBatchIndex completionChannels

namespace ShardScheduler

/-- `getForwardWriteBatch`: a single queued write is proposed as it is; otherwise
the writes `combineForwardWrites` takes are proposed as one, behind the first's
command and fill bytes and their number. An empty queue is a panic. -/
def getForwardWriteBatch (s : ShardScheduler) : Option (WriteBatchEntry × ShardScheduler) :=
  if s.forwardWrites.length ≠ 1 then do
    let first ← s.forwardWrites[0]?
    let (combinedEntries, entries, nextBatchIndex, completionChannels) ←
      combineForwardWrites s.maxForwardWriteBatchSize s.forwardWrites [] 0 0 []
    let command ← first.writeBatch[0]?
    let fill ← first.writeBatch[1]?
    some (⟨[command, fill, UInt8.ofNat nextBatchIndex] ++ combinedEntries, completionChannels⟩,
      { s with forwardWrites := s.forwardWrites.drop nextBatchIndex,
               queuedWriteRows := s.queuedWriteRows - entries })
  else do
    let batch ← s.forwardWrites[0]?
    let numPuts ← getNumPuts batch.writeBatch
    some (batch, { s with forwardWrites := s.forwardWrites.drop 1,
                          queuedWriteRows := s.queuedWriteRows - numPuts.toNat })

end ShardScheduler

theorem combineForwardWrites_take (maxForwardWriteBatchSize : Int) :
    ∀ (q : List WriteBatchEntry) (combined : Bytes) (entries : Int) (next : Nat) (channels : List Nat)
      {combined' : Bytes} {entries' : Int} {next' : Nat} {channels' : List Nat},
      combineForwardWrites maxForwardWriteBatchSize q combined entries next channels =
        some (combined', entries', next', channels') →
      ∃ j, j ≤ q.length ∧ next' = next + j ∧ entries' = entries + sumNumPuts (q.take j)
  | [], _, _, _, _, _, _, _, _, h => by
    simp only [combineForwardWrites, Option.some.injEq, Prod.mk.injEq] at h
    obtain ⟨-, rfl, rfl, -⟩ := h
    exact ⟨0, Nat.zero_le _, rfl, by simp [sumNumPuts]⟩
  | batch :: rest, combined, entries, next, channels, _, _, _, _, h => by
    simp only [combineForwardWrites, Option.bind_eq_bind, Option.bind_eq_some_iff] at h
    obtain ⟨numPuts, hPuts, ch, -, h⟩ := h
    have hHead : sumNumPuts [batch] = numPuts.toNat := by simp [sumNumPuts, hPuts]
    split at h
    · -- the puts reached the bound, or 255 writes were taken
      simp only [Option.some.injEq, Prod.mk.injEq] at h
      obtain ⟨-, rfl, rfl, -⟩ := h
      exact ⟨1, by simp, rfl, by simp [hHead]⟩
    · obtain ⟨j, hj, rfl, rfl⟩ := combineForwardWrites_take maxForwardWriteBatchSize rest _ _ _ _ h
      refine ⟨j + 1, by simpa using hj, by omega, ?_⟩
      rw [List.take_succ_cons, ← List.singleton_append, sumNumPuts_append, hHead]
      ring

namespace ShardScheduler

theorem getForwardWriteBatch_take {s s' : ShardScheduler} {entry : WriteBatchEntry}
    (h : s.getForwardWriteBatch = some (entry, s')) :
    ∃ k, s' = { s with forwardWrites := s.forwardWrites.drop k,
                        queuedWriteRows := s.queuedWriteRows - sumNumPuts (s.forwardWrites.take k) } := by
  unfold getForwardWriteBatch at h
  split at h
  · simp only [Option.bind_eq_bind, Option.bind_eq_some_iff] at h
    obtain ⟨first, -, ⟨combined, entries, next, channels⟩, hLoop, command, -, fill, -, h⟩ := h
    obtain ⟨j, -, rfl, rfl⟩ := combineForwardWrites_take _ _ _ _ _ _ hLoop
    simp only [Option.some.injEq, Prod.mk.injEq] at h
    obtain ⟨-, rfl⟩ := h
    exact ⟨0 + j, by simp⟩
  · rename_i hOne
    simp only [Option.bind_eq_bind, Option.bind_eq_some_iff] at h
    obtain ⟨batch, hBatch, numPuts, hPuts, h⟩ := h
    simp only [Option.some.injEq, Prod.mk.injEq] at h
    obtain ⟨-, rfl⟩ := h
    have hQueue : s.forwardWrites = [batch] := by
      obtain ⟨e, he⟩ := List.length_eq_one_iff.mp (not_not.mp hOne)
      rw [he] at hBatch ⊢
      simpa using hBatch
    refine ⟨1, ?_⟩
    simp [hQueue, sumNumPuts, hPuts]

end ShardScheduler

inductive scheduleChoice where
  | none
  | fillBatch
  | processBatch
  | action
  | forwardBatch
deriving DecidableEq, Repr

def maxFillRun : Int := 4

/-- What `getNextBatch` hands the loop. -/
structure NextBatch where
  rowsToProcess : List ForwardRow
  forwardWriteBatch : Option WriteBatchEntry
  action : Option ActionEntry
  more : Bool

namespace ShardScheduler

/-- The choice of `getNextBatch`: process batches first unless paused, then
actions, then forward writes; fill batches before all of them, but at most
`maxFillRun` in a row while there is other work. -/
def chooseWork (s : ShardScheduler) : scheduleChoice :=
  let numActions := s.queuedActionWeights
  let numToProcess : Int := s.forwardRows.length
  let numFillsToProcess : Int := s.fillForwardRows.length
  let numForwardWrites := s.queuedWriteRows
  let choice :=
    if !s.processingPaused && (numToProcess > numActions || numToProcess > numForwardWrites) then
      scheduleChoice.processBatch
    else if numActions > 0 then .action
    else if numForwardWrites > 0 then .forwardBatch
    else .none
  if numFillsToProcess > 0 && (s.fillRun < maxFillRun || choice == .none) then .fillBatch else choice

def workButNoneChosen (s : ShardScheduler) : Bool :=
  s.chooseWork == .none &&
    (s.queuedActionWeights > 0 || s.queuedWriteRows > 0 || !s.fillForwardRows.isEmpty ||
      (!s.processingPaused && !s.forwardRows.isEmpty))

def takeWork (s : ShardScheduler) :
    scheduleChoice → Option (List ForwardRow × Option WriteBatchEntry × Option ActionEntry × ShardScheduler)
  | .fillBatch =>
    let (rows, s) := s.getFillRowsToProcess
    some (rows, none, none, { s with fillRun := s.fillRun + 1 })
  | .processBatch =>
    let (rows, s) := s.getRowsToProcess
    some (rows, none, none, { s with fillRun := 0 })
  | .action => do
    let (action, s) ← s.getAction
    some ([], none, some action, s)
  | .forwardBatch => do
    let (batch, s) ← s.getForwardWriteBatch
    some ([], some batch, none, { s with fillRun := 0 })
  | .none => some ([], none, none, s)

/-- `getNextBatch`; `more` says whether work is left, and the loop goes idle if not. -/
def getNextBatch (s : ShardScheduler) : Option (NextBatch × ShardScheduler) :=
  if s.workButNoneChosen then none
  else do
    let (rows, batch, action, s) ← s.takeWork s.chooseWork
    let more := decide (s.queuedWriteRows > 0) || !s.actions.isEmpty || !s.fillForwardRows.isEmpty
    let more := if !s.processingPaused then more || !s.forwardRows.isEmpty else more
    let s := if !more then { s with processorRunning := false } else s
    some (⟨rows, batch, action, more⟩, s)

/-- `unblockWaitingWrites`: every queued write's channel gets the error. -/
def unblockWaitingWrites (s : ShardScheduler) (err : String) : List (Nat × Option String) :=
  s.forwardWrites.flatMap fun fw => (fw.completionChannels.take 1).map fun ch => (ch, some err)

/-- `setFailed`, with the channels it signals. -/
def setFailed (s : ShardScheduler) (err : String) : ShardScheduler × List (Nat × Option String) :=
  if s.failed || s.stopped then (s, [])
  else ({ s with stopped := true, failed := true, processorRunning := false }, s.unblockWaitingWrites err)

/-- `Start`: the loop is woken up for its first turn. -/
def Start (s : ShardScheduler) : ShardScheduler :=
  if s.started then s else { s with processorRunning := true, started := true }

/-- `Stop`, with the channels it signals: the waiting writes are unblocked unless
the scheduler has failed, which unblocked them already. -/
def Stop (s : ShardScheduler) : ShardScheduler × List (Nat × Option String) :=
  if !s.started then (s, [])
  else ({ s with started := false, stopped := true, processorRunning := false },
    if !s.failed then s.unblockWaitingWrites "scheduler is closed" else [])

/-- `processBatch`, given what `HandleBatch` returned: the last receiver sequence
of a batch that is not a fill is recorded as processed, `-1` meaning none. -/
def processBatch (s : ShardScheduler) (fill : Bool) (handled : Except String Int64) :
    ShardScheduler × List (Nat × Option String) × Bool :=
  match handled with
  | .error err =>
    let (s, signalled) := s.setFailed err
    (s, signalled, false)
  | .ok lastSequence =>
    if !fill && lastSequence != -1 then ({ s with lastProcessedReceiverSeq := lastSequence.toUInt64 }, [], true)
    else (s, [], true)

end ShardScheduler

/-- The rows of a batch that is not a fill after the head already processed:
`innerLoop` drops the rows up to the first above `lastProcessedReceiverSeq`. -/
def dropProcessed (lastProcessedReceiverSeq : UInt64) (rows : List ForwardRow) : List ForwardRow :=
  rows.dropWhile fun row => !(decide (row.ReceiverSequence > lastProcessedReceiverSeq))

/-- What the world answers to one turn of the loop. -/
structure LoopOutcome where
  handled : Except String Int64
  executed : Option String
  actionResult : Option String

/-- What one turn of the loop did: the rows it handed to `HandleBatch` (not on
the first turn), the channels it signalled with their errors, whether the loop
goes on, and whether more work is left. -/
structure Turn where
  handed : List ForwardRow
  signalled : List (Nat × Option String)
  ok : Bool
  more : Bool

namespace ShardScheduler

/-- `innerLoop`. The first turn runs `HandleBatch` with no rows, which loads the
receiver table; a later one runs what `getNextBatch` chose. `none` is the panic
of `getNextBatch`. -/
def innerLoop (s : ShardScheduler) (first : Bool) (o : LoopOutcome) : Option (ShardScheduler × Turn) :=
  if first then
    let (s, signalled, ok) := s.processBatch false o.handled
    some (s, ⟨[], signalled, ok, true⟩)
  else do
    let (next, s) ← s.getNextBatch
    match next.action, next.forwardWriteBatch with
    | some action, _ => some (s, ⟨[], [(action.completionChannel, o.actionResult)], true, next.more⟩)
    | none, some writeBatch =>
      let signalled := writeBatch.completionChannels.map fun ch => (ch, o.executed)
      match o.executed with
      | some err =>
        let (s, failSignalled) := s.setFailed err
        some (s, ⟨[], signalled ++ failSignalled, false, next.more⟩)
      | none => some (s, ⟨[], signalled, true, next.more⟩)
    | none, none =>
      match next.rowsToProcess with
      | [] => some (s, ⟨[], [], true, next.more⟩)
      | row :: rows =>
        let fill := row.Fill
        let rowsToProcess :=
          if !fill then dropProcessed s.lastProcessedReceiverSeq (row :: rows) else row :: rows
        if rowsToProcess.isEmpty then some (s, ⟨[], [], true, next.more⟩)
        else
          let (s, signalled, ok) := s.processBatch fill o.handled
          some (s, ⟨rowsToProcess, signalled, ok, next.more⟩)

theorem getNextBatch_forwardBatch {s s₁ : ShardScheduler} {entry : WriteBatchEntry}
    (hChoice : s.chooseWork = .forwardBatch) (hGet : s.getForwardWriteBatch = some (entry, s₁)) :
    ∃ more s₂, s.getNextBatch = some (⟨[], some entry, none, more⟩, s₂) := by
  have hSane : s.workButNoneChosen = false := by simp [workButNoneChosen, hChoice]
  simp only [getNextBatch, hSane, hChoice, takeWork, hGet]
  exact ⟨_, _, rfl⟩

theorem innerLoop_forwardBatch {s s₁ : ShardScheduler} {entry : WriteBatchEntry}
    (hChoice : s.chooseWork = .forwardBatch) (hGet : s.getForwardWriteBatch = some (entry, s₁))
    (o : LoopOutcome) :
    ∃ s' turn, s.innerLoop false o = some (s', turn) ∧ turn.handed = [] ∧
      entry.completionChannels.map (fun ch => (ch, o.executed)) <+: turn.signalled := by
  obtain ⟨more, s₂, hNext⟩ := getNextBatch_forwardBatch hChoice hGet
  cases hExec : o.executed with
  | none =>
    refine ⟨_, _, by simp only [innerLoop, hNext, hExec, Bool.false_eq_true, ↓reduceIte]; rfl, rfl, ?_⟩
    exact List.prefix_refl _
  | some err =>
    refine ⟨_, _, by simp only [innerLoop, hNext, hExec, Bool.false_eq_true, ↓reduceIte]; rfl, rfl, ?_⟩
    exact List.prefix_append _ _

end ShardScheduler

end PranaDB
