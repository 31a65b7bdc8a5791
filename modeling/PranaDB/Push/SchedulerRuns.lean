import PranaDB.Push.Scheduler

/-! # Runs of the shard scheduler

A run of a `ShardScheduler` from `NewShardScheduler` (`SchedReach`): the state
machine hands it rows, forward writes and actions are queued, the scheduler is
started, paused, resumed and stopped, and its loop takes turn after turn. Beside
the scheduler the run keeps a `RowHistory`: the rows that are not fills which
`AddRows` queued, those that later turns handed to `HandleBatch`, and what the
first turn's `HandleBatch`, the reload of the receiver table, returned.

Over every run the two counters match their queues, and the rows handed are, in
order and once each, the queued rows above the sequence the first turn records
(`reloadSeq`): the reload's result, or the initial 0 when it returned -1.
-/

namespace PranaDB
set_option autoImplicit false

theorem dropWhile_eq_filter_of_pairwise {α : Type} {R : α → α → Prop} {p : α → Bool}
    (hp : ∀ a b, R a b → p b = true → p a = true) :
    ∀ {l : List α}, l.Pairwise R → l.dropWhile p = l.filter fun a => !p a
  | [], _ => rfl
  | a :: l, hl => by
    rw [List.pairwise_cons] at hl
    rw [List.dropWhile_cons, List.filter_cons]
    by_cases ha : p a = true
    · simp only [ha, ↓reduceIte, Bool.not_true, Bool.false_eq_true]
      exact dropWhile_eq_filter_of_pairwise hp hl.2
    · have hRest : ∀ b ∈ l, p b = false := by
        intro b hb
        by_contra hb'
        exact ha (hp a b (hl.1 b hb) (by simpa using hb'))
      simp only [ha, Bool.false_eq_true, ↓reduceIte, Bool.not_false]
      rw [List.filter_eq_self.mpr (by simpa using hRest)]

/-- The queues, the counters and the processed sequence of a scheduler: what
the invariants of its runs are about. -/
structure SchedQueues where
  forwardRows : List ForwardRow
  fillForwardRows : List ForwardRow
  forwardWrites : List WriteBatchEntry
  actions : List ActionEntry
  queuedWriteRows : Int
  queuedActionWeights : Int
  lastProcessedReceiverSeq : UInt64
deriving DecidableEq, Repr

namespace ShardScheduler

def queues (s : ShardScheduler) : SchedQueues :=
  ⟨s.forwardRows, s.fillForwardRows, s.forwardWrites, s.actions, s.queuedWriteRows, s.queuedActionWeights,
    s.lastProcessedReceiverSeq⟩

variable {s s' : ShardScheduler}

theorem queues_maybeStartRunning : (maybeStartRunning s).queues = s.queues := by
  unfold maybeStartRunning
  split <;> rfl

theorem queues_setFailed (err : String) : (s.setFailed err).1.queues = s.queues := by
  unfold setFailed
  split <;> rfl

theorem queues_processBatch_error (fill : Bool) (err : String) :
    (s.processBatch fill (.error err)).1.queues = s.queues :=
  queues_setFailed err

theorem queues_processBatch_ok (fill : Bool) (lastSequence : Int64) :
    (s.processBatch fill (.ok lastSequence)).1.queues =
      if !fill && lastSequence != -1 then { s.queues with lastProcessedReceiverSeq := lastSequence.toUInt64 }
      else s.queues := by
  simp only [processBatch]
  split <;> rfl

theorem queues_processBatch_fill (handled : Except String Int64) :
    (s.processBatch true handled).1.queues = s.queues := by
  cases handled with
  | error err => exact queues_processBatch_error true err
  | ok lastSequence => simp [queues_processBatch_ok]

theorem queues_AddRows (rows : List ForwardRow) :
    (s.AddRows rows).queues =
      if s.failed || s.stopped then s.queues
      else { s.queues with forwardRows := s.forwardRows ++ rows.filter fun row => !row.Fill,
                           fillForwardRows := s.fillForwardRows ++ rows.filter ForwardRow.Fill } := by
  unfold AddRows
  split
  · rfl
  · dsimp only
    split <;> exact queues_maybeStartRunning

theorem queues_addForwardBatch {writeBatch : Bytes} {ch : Nat}
    (h : s.addForwardBatch writeBatch = .ok (ch, s')) :
    ∃ numPuts, getNumPuts writeBatch = some numPuts ∧
      s'.queues = { s.queues with forwardWrites := s.forwardWrites ++ [⟨writeBatch, [ch]⟩],
                                  queuedWriteRows := s.queuedWriteRows + numPuts.toNat } := by
  unfold addForwardBatch at h
  split at h
  · cases h
  · split at h
    · cases h
    · split at h
      · cases h
      · rename_i numPuts hPuts
        simp only [Except.ok.injEq, Prod.mk.injEq] at h
        obtain ⟨rfl, rfl⟩ := h
        exact ⟨numPuts, hPuts, queues_maybeStartRunning⟩

theorem queues_AddAction {weight : Int} {ch : Nat} (h : s.AddAction weight = .ok (ch, s')) :
    s'.queues = { s.queues with actions := s.actions ++ [⟨weight, ch⟩],
                                queuedActionWeights := s.queuedActionWeights + weight } := by
  unfold AddAction at h
  split at h
  · cases h
  · split at h
    · cases h
    · simp only [Except.ok.injEq, Prod.mk.injEq] at h
      obtain ⟨rfl, rfl⟩ := h
      exact queues_maybeStartRunning

theorem queues_Start : s.Start.queues = s.queues := by
  unfold Start
  split <;> rfl

theorem queues_Stop : s.Stop.1.queues = s.queues := by
  unfold Stop
  split <;> rfl

theorem queues_PauseProcessing : s.PauseProcessing.queues = s.queues := rfl

theorem queues_ResumeProcessing : s.ResumeProcessing.queues = s.queues := queues_maybeStartRunning

theorem takeWork_queues {c : scheduleChoice} {rows : List ForwardRow} {batch : Option WriteBatchEntry}
    {action : Option ActionEntry} (h : s.takeWork c = some (rows, batch, action, s')) :
    (∃ n, rows = s.fillForwardRows.take n ∧ batch = none ∧ action = none ∧
      s'.queues = { s.queues with fillForwardRows := s.fillForwardRows.drop n }) ∨
    (∃ n, rows = s.forwardRows.take n ∧ batch = none ∧ action = none ∧
      s'.queues = { s.queues with forwardRows := s.forwardRows.drop n }) ∨
    (∃ a rest, s.actions = a :: rest ∧ rows = [] ∧ batch = none ∧ action = some a ∧
      s'.queues = { s.queues with actions := rest, queuedActionWeights := s.queuedActionWeights - a.weight }) ∨
    (∃ k, rows = [] ∧ action = none ∧
      s'.queues = { s.queues with forwardWrites := s.forwardWrites.drop k,
                                  queuedWriteRows := s.queuedWriteRows - sumNumPuts (s.forwardWrites.take k) }) ∨
    (rows = [] ∧ batch = none ∧ action = none ∧ s'.queues = s.queues) := by
  cases c with
  | fillBatch =>
    simp only [takeWork, getFillRowsToProcess, Option.some.injEq, Prod.mk.injEq] at h
    obtain ⟨rfl, rfl, rfl, rfl⟩ := h
    exact .inl ⟨_, rfl, rfl, rfl, rfl⟩
  | processBatch =>
    simp only [takeWork, getRowsToProcess, Option.some.injEq, Prod.mk.injEq] at h
    obtain ⟨rfl, rfl, rfl, rfl⟩ := h
    exact .inr (.inl ⟨_, rfl, rfl, rfl, rfl⟩)
  | action =>
    simp only [takeWork, Option.bind_eq_bind, Option.bind_eq_some_iff] at h
    obtain ⟨⟨a, s₁⟩, hGet, h⟩ := h
    simp only [Option.some.injEq, Prod.mk.injEq] at h
    obtain ⟨rfl, rfl, rfl, rfl⟩ := h
    unfold getAction at hGet
    split at hGet
    · cases hGet
    · rename_i entry rest hActions
      simp only [Option.some.injEq, Prod.mk.injEq] at hGet
      obtain ⟨rfl, rfl⟩ := hGet
      exact .inr (.inr (.inl ⟨_, rest, hActions, rfl, rfl, rfl, rfl⟩))
  | forwardBatch =>
    simp only [takeWork, Option.bind_eq_bind, Option.bind_eq_some_iff] at h
    obtain ⟨⟨e, s₁⟩, hGet, h⟩ := h
    simp only [Option.some.injEq, Prod.mk.injEq] at h
    obtain ⟨rfl, rfl, rfl, rfl⟩ := h
    obtain ⟨k, rfl⟩ := getForwardWriteBatch_take hGet
    exact .inr (.inr (.inr (.inl ⟨k, rfl, rfl, rfl⟩)))
  | none =>
    simp only [takeWork, Option.some.injEq, Prod.mk.injEq] at h
    obtain ⟨rfl, rfl, rfl, rfl⟩ := h
    exact .inr (.inr (.inr (.inr ⟨rfl, rfl, rfl, rfl⟩)))

theorem getNextBatch_takeWork {next : NextBatch} (h : s.getNextBatch = some (next, s')) :
    ∃ c s₀, s.takeWork c = some (next.rowsToProcess, next.forwardWriteBatch, next.action, s₀) ∧
      s'.queues = s₀.queues := by
  unfold getNextBatch at h
  split at h
  · cases h
  · simp only [Option.bind_eq_bind, Option.bind_eq_some_iff] at h
    obtain ⟨⟨rows, batch, action, s₀⟩, hTake, h⟩ := h
    simp only [Option.some.injEq, Prod.mk.injEq] at h
    obtain ⟨rfl, rfl⟩ := h
    refine ⟨_, s₀, hTake, ?_⟩
    split_ifs <;> rfl

theorem innerLoop_first {o : LoopOutcome} {turn : Turn} (h : s.innerLoop true o = some (s', turn)) :
    turn.handed = [] ∧ s'.queues = (s.processBatch false o.handled).1.queues := by
  simp only [innerLoop, ↓reduceIte, Option.some.injEq, Prod.mk.injEq] at h
  obtain ⟨rfl, rfl⟩ := h
  exact ⟨rfl, rfl⟩

theorem innerLoop_rows {o : LoopOutcome} {turn : Turn} {next : NextBatch} {s₁ : ShardScheduler}
    (hNext : s.getNextBatch = some (next, s₁)) (hAction : next.action = none)
    (hBatch : next.forwardWriteBatch = none) (fill : Bool)
    (hKind : ∀ r ∈ next.rowsToProcess, r.Fill = fill) (h : s.innerLoop false o = some (s', turn)) :
    turn.handed = (if fill then next.rowsToProcess
      else dropProcessed s₁.lastProcessedReceiverSeq next.rowsToProcess) ∧
    (s'.queues = s₁.queues ∨ turn.handed ≠ [] ∧ s'.queues = (s₁.processBatch fill o.handled).1.queues) := by
  simp only [innerLoop, Bool.false_eq_true, ↓reduceIte, hNext, Option.bind_eq_bind, Option.bind_some,
    hAction, hBatch] at h
  revert hKind h
  cases next.rowsToProcess with
  | nil =>
    intro _ h
    simp only [Option.some.injEq, Prod.mk.injEq] at h
    obtain ⟨rfl, rfl⟩ := h
    cases fill <;> exact ⟨rfl, .inl rfl⟩
  | cons row rows =>
    intro hKind h
    have hRow : row.Fill = fill := hKind row List.mem_cons_self
    cases fill with
    | true =>
      simp only [hRow, Bool.not_true, Bool.false_eq_true, ↓reduceIte, List.isEmpty_cons,
        Option.some.injEq, Prod.mk.injEq] at h
      obtain ⟨rfl, rfl⟩ := h
      exact ⟨rfl, .inr ⟨List.cons_ne_nil _ _, rfl⟩⟩
    | false =>
      simp only [hRow, Bool.not_false, ↓reduceIte] at h
      split at h
      · rename_i hEmpty
        simp only [Option.some.injEq, Prod.mk.injEq] at h
        obtain ⟨rfl, rfl⟩ := h
        exact ⟨(List.isEmpty_iff.mp hEmpty).symm, .inl rfl⟩
      · rename_i hNonempty
        simp only [Option.some.injEq, Prod.mk.injEq] at h
        obtain ⟨rfl, rfl⟩ := h
        exact ⟨rfl, .inr ⟨fun hNil => hNonempty (List.isEmpty_iff.mpr hNil), rfl⟩⟩

theorem innerLoop_noRows {o : LoopOutcome} {turn : Turn} {next : NextBatch} {s₁ : ShardScheduler}
    (hNext : s.getNextBatch = some (next, s₁)) (hRows : next.rowsToProcess = [])
    (h : s.innerLoop false o = some (s', turn)) : turn.handed = [] ∧ s'.queues = s₁.queues := by
  simp only [innerLoop, Bool.false_eq_true, ↓reduceIte, hNext, Option.bind_eq_bind, Option.bind_some] at h
  split at h
  · simp only [Option.some.injEq, Prod.mk.injEq] at h
    obtain ⟨rfl, rfl⟩ := h
    exact ⟨rfl, rfl⟩
  · -- a forward write: the turn fails with the scheduler if the proposal does
    split at h
    · simp only [Option.some.injEq, Prod.mk.injEq] at h
      obtain ⟨rfl, rfl⟩ := h
      exact ⟨rfl, queues_setFailed _⟩
    · simp only [Option.some.injEq, Prod.mk.injEq] at h
      obtain ⟨rfl, rfl⟩ := h
      exact ⟨rfl, rfl⟩
  · simp only [hRows, Option.some.injEq, Prod.mk.injEq] at h
    obtain ⟨rfl, rfl⟩ := h
    exact ⟨rfl, rfl⟩

theorem innerLoop_cases {o : LoopOutcome} {turn : Turn} (hRowsKind : ∀ r ∈ s.forwardRows, r.Fill = false)
    (hFillKind : ∀ r ∈ s.fillForwardRows, r.Fill = true) (h : s.innerLoop false o = some (s', turn)) :
    (∃ n, (∀ r ∈ turn.handed, r.Fill = true) ∧
      s'.queues = { s.queues with fillForwardRows := s.fillForwardRows.drop n }) ∨
    (∃ n, turn.handed = dropProcessed s.lastProcessedReceiverSeq (s.forwardRows.take n) ∧
      (s'.queues = { s.queues with forwardRows := s.forwardRows.drop n } ∨
        turn.handed ≠ [] ∧ ∃ v, o.handled = .ok v ∧
          s'.queues = { s.queues with forwardRows := s.forwardRows.drop n,
                                      lastProcessedReceiverSeq := v.toUInt64 })) ∨
    (∃ a rest, s.actions = a :: rest ∧ turn.handed = [] ∧
      s'.queues = { s.queues with actions := rest, queuedActionWeights := s.queuedActionWeights - a.weight }) ∨
    (∃ k, turn.handed = [] ∧
      s'.queues = { s.queues with forwardWrites := s.forwardWrites.drop k,
                                  queuedWriteRows := s.queuedWriteRows - sumNumPuts (s.forwardWrites.take k) }) ∨
    (turn.handed = [] ∧ s'.queues = s.queues) := by
  cases hNext : s.getNextBatch with
  | none => simp [innerLoop, hNext] at h
  | some p =>
    obtain ⟨next, s₁⟩ := p
    obtain ⟨c, s₀, hTake, hQ₁⟩ := getNextBatch_takeWork hNext
    rcases takeWork_queues hTake with ⟨n, hRows, hB, hA, hQ₀⟩ | ⟨n, hRows, hB, hA, hQ₀⟩ |
        ⟨a, rest, hActions, hRows, -, -, hQ₀⟩ | ⟨k, hRows, -, hQ₀⟩ | ⟨hRows, -, -, hQ₀⟩
    · -- fill rows
      have hKind : ∀ r ∈ next.rowsToProcess, r.Fill = true := by
        rw [hRows]
        exact fun r hr => hFillKind r (List.mem_of_mem_take hr)
      obtain ⟨hHanded, hS⟩ := innerLoop_rows hNext hA hB true hKind h
      refine .inl ⟨n, by simpa [hHanded] using hKind, ?_⟩
      rcases hS with hS | ⟨-, hS⟩
      · rw [hS, hQ₁, hQ₀]
      · rw [hS, queues_processBatch_fill, hQ₁, hQ₀]
    · -- rows that are not fills
      have hKind : ∀ r ∈ next.rowsToProcess, r.Fill = false := by
        rw [hRows]
        exact fun r hr => hRowsKind r (List.mem_of_mem_take hr)
      have hQ : s₁.queues = { s.queues with forwardRows := s.forwardRows.drop n } := hQ₁.trans hQ₀
      have hL : s₁.lastProcessedReceiverSeq = s.lastProcessedReceiverSeq :=
        congrArg SchedQueues.lastProcessedReceiverSeq hQ
      obtain ⟨hHanded, hS⟩ := innerLoop_rows hNext hA hB false hKind h
      simp only [Bool.false_eq_true, ↓reduceIte, hRows, hL] at hHanded
      refine .inr (.inl ⟨n, hHanded, ?_⟩)
      rcases hS with hS | ⟨hNonempty, hS⟩
      · exact .inl (hS.trans hQ)
      · cases hHandled : o.handled with
        | error err =>
          rw [hHandled, queues_processBatch_error] at hS
          exact .inl (hS.trans hQ)
        | ok v =>
          rw [hHandled, queues_processBatch_ok] at hS
          by_cases hv : v = -1
          · simp only [hv, bne_self_eq_false, Bool.and_false, Bool.false_eq_true, ↓reduceIte] at hS
            exact .inl (hS.trans hQ)
          · have hv' : (v != -1) = true := bne_iff_ne.mpr hv
            simp only [Bool.not_false, hv', Bool.and_self, ↓reduceIte, hQ] at hS
            exact .inr ⟨hNonempty, v, rfl, hS⟩
    · obtain ⟨hHanded, hS⟩ := innerLoop_noRows hNext hRows h
      exact .inr (.inr (.inl ⟨a, rest, hActions, hHanded, by rw [hS, hQ₁, hQ₀]⟩))
    · obtain ⟨hHanded, hS⟩ := innerLoop_noRows hNext hRows h
      exact .inr (.inr (.inr (.inl ⟨k, hHanded, by rw [hS, hQ₁, hQ₀]⟩)))
    · obtain ⟨hHanded, hS⟩ := innerLoop_noRows hNext hRows h
      exact .inr (.inr (.inr (.inr ⟨hHanded, by rw [hS, hQ₁, hQ₀]⟩)))

end ShardScheduler

def nonFill (rows : List ForwardRow) : List ForwardRow := rows.filter fun row => !row.Fill

theorem dropProcessed_eq_filter {L : UInt64} {rows : List ForwardRow}
    (hSorted : rows.Pairwise fun a b => a.ReceiverSequence < b.ReceiverSequence) :
    dropProcessed L rows = rows.filter fun r => decide (L < r.ReceiverSequence) := by
  unfold dropProcessed
  rw [dropWhile_eq_filter_of_pairwise _ hSorted]
  · simp only [Bool.not_not]
  · intro a b hab hb
    simp only [Bool.not_eq_eq_eq_not, Bool.not_true, decide_eq_false_iff_not, UInt64.not_lt] at hb ⊢
    exact UInt64.le_of_lt (UInt64.lt_of_lt_of_le hab hb)

/-- What a run has done with the rows that are not fills: the rows `AddRows`
queued, the rows later turns handed to `HandleBatch`, and what the first turn's
`HandleBatch` returned, once it returned a sequence. -/
structure RowHistory where
  added : List ForwardRow
  handed : List ForwardRow
  reload : Option Int64

/-- `Engine.HandleBatch` after the first turn: the sequence it returns for a
batch is its last row's. -/
def HandleBatchAnswers (rows : List ForwardRow) (handled : Except String Int64) : Prop :=
  ∀ lastSequence last, handled = .ok lastSequence → rows.getLast? = some last →
    lastSequence = last.ReceiverSequence.toInt64

def reloadSeq (reload : Int64) : UInt64 := if reload != -1 then reload.toUInt64 else 0

def coveredByReload (reload : Int64) (row : ForwardRow) : Bool :=
  reload != -1 && decide (row.ReceiverSequence ≤ reload.toUInt64)

theorem reloadSeq_lt_iff {reload : Int64} {row : ForwardRow} :
    reloadSeq reload < row.ReceiverSequence ↔
      coveredByReload reload row = false ∧ 0 < row.ReceiverSequence := by
  by_cases h : reload = -1
  · simp [reloadSeq, coveredByReload, h]
  · have hNe : (reload != -1) = true := bne_iff_ne.mpr h
    simp only [reloadSeq, coveredByReload, hNe, ↓reduceIte, Bool.true_and, decide_eq_false_iff_not,
      UInt64.not_le]
    constructor
    · intro hlt
      exact ⟨hlt, UInt64.lt_of_le_of_lt UInt64.zero_le hlt⟩
    · exact fun h => h.1

/-- The runs of a scheduler from `NewShardScheduler`, with what they did with
the rows. The state machine hands `AddRows` rows whose sequences rise above the
ones queued, from 1 on since it counts a sequence up before it uses it; a turn runs while the scheduler is started and not stopped; the
first turn is the reload, and after it `HandleBatch` answers with the last
sequence of the rows it is handed. -/
inductive SchedReach : ShardScheduler → RowHistory → Prop where
  | init (maxProcessBatchSize : Nat) (maxForwardWriteBatchSize : Int) :
      SchedReach (NewShardScheduler maxProcessBatchSize maxForwardWriteBatchSize) ⟨[], [], none⟩
  | addRows {s : ShardScheduler} {h : RowHistory} (rows : List ForwardRow) : SchedReach s h →
      (h.added ++ nonFill rows).Pairwise (fun a b => a.ReceiverSequence < b.ReceiverSequence) →
      (∀ r ∈ nonFill rows, 0 < r.ReceiverSequence) → SchedReach (s.AddRows rows)
        { h with added := if s.failed || s.stopped then h.added else h.added ++ nonFill rows }
  | addForwardBatch {s s' : ShardScheduler} {h : RowHistory} {ch : Nat} (writeBatch : Bytes) :
      SchedReach s h → s.addForwardBatch writeBatch = .ok (ch, s') → SchedReach s' h
  | addAction {s s' : ShardScheduler} {h : RowHistory} {ch : Nat} (weight : Int) :
      SchedReach s h → s.AddAction weight = .ok (ch, s') → SchedReach s' h
  | start {s : ShardScheduler} {h : RowHistory} : SchedReach s h → SchedReach s.Start h
  | stop {s : ShardScheduler} {h : RowHistory} : SchedReach s h → SchedReach s.Stop.1 h
  | pause {s : ShardScheduler} {h : RowHistory} : SchedReach s h → SchedReach s.PauseProcessing h
  | resume {s : ShardScheduler} {h : RowHistory} : SchedReach s h → SchedReach s.ResumeProcessing h
  | firstTurn {s s' : ShardScheduler} {h : RowHistory} {turn : Turn} (o : LoopOutcome) : SchedReach s h →
      h.reload = none → s.started = true → s.stopped = false → s.innerLoop true o = some (s', turn) →
      SchedReach s' { h with reload := o.handled.toOption }
  | turn {s s' : ShardScheduler} {h : RowHistory} {turn : Turn} {reload : Int64} (o : LoopOutcome) :
      SchedReach s h → h.reload = some reload → s.started = true → s.stopped = false →
      s.innerLoop false o = some (s', turn) → HandleBatchAnswers turn.handed o.handled →
      SchedReach s' { h with handed := h.handed ++ nonFill turn.handed }

namespace SchedQueues

/-- The counters match their queues. -/
structure Counted (q : SchedQueues) : Prop where
  writeRows : q.queuedWriteRows = sumNumPuts q.forwardWrites
  actionWeights : q.queuedActionWeights = (q.actions.map ActionEntry.weight).sum

/-- After the reload: the processed sequence is the reload's or a handed row's,
the queued rows above the reload's are above it, and the rows added above the
reload's are those handed followed by those still queued. -/
structure ReloadInv (reload : Int64) (q : SchedQueues) (h : RowHistory) : Prop where
  processed_ge : reloadSeq reload ≤ q.lastProcessedReceiverSeq
  processed_of : q.lastProcessedReceiverSeq = reloadSeq reload ∨
    ∃ r ∈ h.handed, q.lastProcessedReceiverSeq = r.ReceiverSequence
  queue_above : ∀ r ∈ q.forwardRows, reloadSeq reload < r.ReceiverSequence →
    q.lastProcessedReceiverSeq < r.ReceiverSequence
  added_eq : h.added.filter (fun r => decide (reloadSeq reload < r.ReceiverSequence)) =
    h.handed ++ q.forwardRows.filter fun r => decide (reloadSeq reload < r.ReceiverSequence)

/-- The rows of a run: each queue holds rows of its kind, the queue is a suffix
of the sorted rows added, and before the reload nothing is handed or processed. -/
structure RowsInv (q : SchedQueues) (h : RowHistory) : Prop where
  rows_nonFill : ∀ r ∈ q.forwardRows, r.Fill = false
  fillRows_fill : ∀ r ∈ q.fillForwardRows, r.Fill = true
  added_sorted : h.added.Pairwise fun a b => a.ReceiverSequence < b.ReceiverSequence
  queue_suffix : q.forwardRows <:+ h.added
  before_reload : h.reload = none → h.handed = [] ∧ q.lastProcessedReceiverSeq = 0 ∧ q.forwardRows = h.added
  after_reload : ∀ reload, h.reload = some reload → ReloadInv reload q h

variable {q : SchedQueues} {h : RowHistory}

theorem RowsInv.queue_sorted (hInv : RowsInv q h) :
    q.forwardRows.Pairwise fun a b => a.ReceiverSequence < b.ReceiverSequence :=
  hInv.added_sorted.sublist hInv.queue_suffix.sublist

theorem ReloadInv.handed_sublist {reload : Int64} (hI : ReloadInv reload q h) : h.handed.Sublist h.added := by
  have hPre : h.handed <+: h.added.filter fun r => decide (reloadSeq reload < r.ReceiverSequence) := by
    rw [hI.added_eq]
    exact List.prefix_append _ _
  exact hPre.sublist.trans List.filter_sublist

theorem RowsInv.of_rows {q' : SchedQueues} (hInv : RowsInv q h) (hRows : q'.forwardRows = q.forwardRows)
    (hL : q'.lastProcessedReceiverSeq = q.lastProcessedReceiverSeq)
    (hFill : ∀ r ∈ q'.fillForwardRows, r.Fill = true) : RowsInv q' h := by
  obtain ⟨hNonFill, -, hSorted, hSuffix, hBefore, hAfter⟩ := hInv
  refine ⟨hRows ▸ hNonFill, hFill, hSorted, hRows ▸ hSuffix, ?_, ?_⟩
  · rw [hRows, hL]
    exact hBefore
  · intro reload hReload
    obtain ⟨hGe, hOf, hAbove, hEq⟩ := hAfter reload hReload
    exact ⟨hL ▸ hGe, hL ▸ hOf, hRows ▸ hL ▸ hAbove, hRows ▸ hEq⟩

theorem RowsInv.addRows (hInv : RowsInv q h) (rows : List ForwardRow)
    (hSorted : (h.added ++ nonFill rows).Pairwise fun a b => a.ReceiverSequence < b.ReceiverSequence) :
    RowsInv { q with forwardRows := q.forwardRows ++ nonFill rows,
                     fillForwardRows := q.fillForwardRows ++ rows.filter ForwardRow.Fill }
      { h with added := h.added ++ nonFill rows } := by
  obtain ⟨hNonFill, hFillRows, -, ⟨t, ht⟩, hBefore, hAfter⟩ := hInv
  refine ⟨?_, ?_, hSorted, ⟨t, by rw [← List.append_assoc, ht]⟩, ?_, ?_⟩
  · intro r hr
    rcases List.mem_append.mp hr with hr | hr
    · exact hNonFill r hr
    · simpa [nonFill] using (List.mem_filter.mp hr).2
  · intro r hr
    rcases List.mem_append.mp hr with hr | hr
    · exact hFillRows r hr
    · exact (List.mem_filter.mp hr).2
  · intro hNone
    obtain ⟨hHanded, hL, hRows⟩ := hBefore hNone
    exact ⟨hHanded, hL, by rw [hRows]⟩
  · intro reload hReload
    have hI := hAfter reload hReload
    have hSub := hI.handed_sublist
    obtain ⟨hGe, hOf, hAbove, hEq⟩ := hI
    refine ⟨hGe, hOf, ?_, ?_⟩
    · -- a new row is above every row added before it, the handed ones included
      intro r hr hrAbove
      rcases List.mem_append.mp hr with hr | hr
      · exact hAbove r hr hrAbove
      · rcases hOf with hL | ⟨a, ha, hL⟩
        · rw [hL]
          exact hrAbove
        · rw [hL]
          exact (List.pairwise_append.mp hSorted).2.2 a (hSub.subset ha) r hr
    · simp only [List.filter_append, hEq, List.append_assoc]

theorem RowsInv.takeRows {reload : Int64} (hInv : RowsInv q h) (hReload : h.reload = some reload) (n : Nat)
    (L' : UInt64) (hL' : L' = q.lastProcessedReceiverSeq ∨
      ∃ last, (dropProcessed q.lastProcessedReceiverSeq (q.forwardRows.take n)).getLast? = some last ∧
        L' = last.ReceiverSequence) :
    RowsInv { q with forwardRows := q.forwardRows.drop n, lastProcessedReceiverSeq := L' }
      { h with handed := h.handed ++ dropProcessed q.lastProcessedReceiverSeq (q.forwardRows.take n) } := by
  have hI := hInv.after_reload reload hReload
  have hSorted := hInv.queue_sorted
  have hSplit := hSorted
  rw [← List.take_append_drop n q.forwardRows, List.pairwise_append] at hSplit
  obtain ⟨hTakeSorted, -, hTakeDrop⟩ := hSplit
  have hD := dropProcessed_eq_filter (L := q.lastProcessedReceiverSeq) hTakeSorted
  have hAboveIff : ∀ r ∈ q.forwardRows.take n,
      decide (q.lastProcessedReceiverSeq < r.ReceiverSequence) = decide (reloadSeq reload < r.ReceiverSequence) := by
    intro r hr
    apply decide_eq_decide.mpr
    constructor
    · exact UInt64.lt_of_le_of_lt hI.processed_ge
    · exact hI.queue_above r (List.mem_of_mem_take hr)
  have hHanded : dropProcessed q.lastProcessedReceiverSeq (q.forwardRows.take n) =
      (q.forwardRows.take n).filter fun r => decide (reloadSeq reload < r.ReceiverSequence) := by
    rw [hD]
    exact List.filter_congr hAboveIff
  refine ⟨fun r hr => hInv.rows_nonFill r (List.mem_of_mem_drop hr), hInv.fillRows_fill, hInv.added_sorted,
    (List.drop_suffix n _).trans hInv.queue_suffix, ?_, ?_⟩
  · intro hNone
    rw [hReload] at hNone
    cases hNone
  · intro reload' hReload'
    rw [hReload, Option.some.injEq] at hReload'
    subst hReload'
    refine ⟨?_, ?_, ?_, ?_⟩
    · rcases hL' with rfl | ⟨last, hLast, rfl⟩
      · exact hI.processed_ge
      · have hMem := List.mem_of_getLast? hLast
        rw [hD, List.mem_filter, decide_eq_true_iff] at hMem
        exact UInt64.le_of_lt (UInt64.lt_of_le_of_lt hI.processed_ge hMem.2)
    · rcases hL' with rfl | ⟨last, hLast, rfl⟩
      · rcases hI.processed_of with hL | ⟨a, ha, hL⟩
        · exact .inl hL
        · exact .inr ⟨a, List.mem_append_left _ ha, hL⟩
      · exact .inr ⟨last, List.mem_append_right _ (List.mem_of_getLast? hLast), rfl⟩
    · intro r hr hrAbove
      rcases hL' with rfl | ⟨last, hLast, rfl⟩
      · exact hI.queue_above r (List.mem_of_mem_drop hr) hrAbove
      · have hMem := List.mem_of_getLast? hLast
        rw [hD] at hMem
        exact hTakeDrop last (List.mem_of_mem_filter hMem) r hr
    · have hFilter : q.forwardRows.filter (fun r => decide (reloadSeq reload < r.ReceiverSequence)) =
          (q.forwardRows.take n).filter (fun r => decide (reloadSeq reload < r.ReceiverSequence)) ++
            (q.forwardRows.drop n).filter fun r => decide (reloadSeq reload < r.ReceiverSequence) := by
        rw [← List.filter_append, List.take_append_drop]
      show _ = (h.handed ++ dropProcessed q.lastProcessedReceiverSeq (q.forwardRows.take n)) ++ _
      rw [hI.added_eq, hFilter, hHanded, List.append_assoc]

theorem Counted.of_counters {q' : SchedQueues} (hC : q.Counted) (hW : q'.forwardWrites = q.forwardWrites)
    (hR : q'.queuedWriteRows = q.queuedWriteRows) (hA : q'.actions = q.actions)
    (hAW : q'.queuedActionWeights = q.queuedActionWeights) : q'.Counted :=
  ⟨by rw [hR, hW, hC.writeRows], by rw [hAW, hA, hC.actionWeights]⟩

end SchedQueues

open SchedQueues

namespace ShardScheduler

variable {s s' : ShardScheduler} {h : RowHistory} {o : LoopOutcome} {turn : Turn}

theorem counted_processBatch (hC : s.queues.Counted) (fill : Bool) (handled : Except String Int64) :
    (s.processBatch fill handled).1.queues.Counted := by
  cases handled with
  | error err => rw [queues_processBatch_error]; exact hC
  | ok v =>
    rw [queues_processBatch_ok]
    split
    · exact hC.of_counters rfl rfl rfl rfl
    · exact hC

theorem counted_innerLoop (hRowsKind : ∀ r ∈ s.forwardRows, r.Fill = false)
    (hFillKind : ∀ r ∈ s.fillForwardRows, r.Fill = true) (hC : s.queues.Counted)
    (hTurn : s.innerLoop false o = some (s', turn)) : s'.queues.Counted := by
  rcases innerLoop_cases hRowsKind hFillKind hTurn with ⟨n, -, hQ⟩ | ⟨n, -, hQ | ⟨-, v, -, hQ⟩⟩ |
      ⟨a, rest, hActions, -, hQ⟩ | ⟨k, -, hQ⟩ | ⟨-, hQ⟩ <;> rw [hQ]
  · exact hC.of_counters rfl rfl rfl rfl
  · exact hC.of_counters rfl rfl rfl rfl
  · exact hC.of_counters rfl rfl rfl rfl
  · refine ⟨hC.writeRows, ?_⟩
    show s.queuedActionWeights - a.weight = (rest.map ActionEntry.weight).sum
    have hW : s.queuedActionWeights = (s.actions.map ActionEntry.weight).sum := hC.actionWeights
    have hSum : (s.actions.map ActionEntry.weight).sum = a.weight + (rest.map ActionEntry.weight).sum := by
      simp [hActions]
    rw [hW, hSum]
    ring
  · refine ⟨?_, hC.actionWeights⟩
    show s.queuedWriteRows - sumNumPuts (s.forwardWrites.take k) = sumNumPuts (s.forwardWrites.drop k)
    have hW : s.queuedWriteRows = sumNumPuts s.forwardWrites := hC.writeRows
    rw [hW, ← sumNumPuts_take_add_drop s.forwardWrites k]
    ring
  · exact hC

theorem rowsInv_firstTurn (hInv : s.queues.RowsInv h) (hNone : h.reload = none)
    (hTurn : s.innerLoop true o = some (s', turn)) : s'.queues.RowsInv { h with reload := o.handled.toOption } := by
  obtain ⟨-, hQ⟩ := innerLoop_first hTurn
  obtain ⟨hHanded, hL, hRows⟩ := hInv.before_reload hNone
  cases hHandled : o.handled with
  | error err =>
    rw [hHandled, queues_processBatch_error] at hQ
    rw [hQ]
    show s.queues.RowsInv { h with reload := none }
    rw [← hNone]
    exact hInv
  | ok reload =>
    rw [hHandled, queues_processBatch_ok] at hQ
    have hL' : s'.queues.lastProcessedReceiverSeq = reloadSeq reload := by
      rw [hQ, reloadSeq]
      by_cases hr : reload = -1
      · simpa [hr] using hL
      · have hNe : (reload != -1) = true := bne_iff_ne.mpr hr
        simp [hNe]
    have hRows' : s'.queues.forwardRows = s.queues.forwardRows := by
      rw [hQ]
      split <;> rfl
    have hFill' : s'.queues.fillForwardRows = s.queues.fillForwardRows := by
      rw [hQ]
      split <;> rfl
    refine ⟨hRows' ▸ hInv.rows_nonFill, hFill' ▸ hInv.fillRows_fill, hInv.added_sorted, hRows' ▸ hInv.queue_suffix,
      (fun hSome => by cases hSome), ?_⟩
    intro reload' hReload'
    obtain rfl : reload = reload' := Option.some.inj hReload'
    refine ⟨UInt64.le_of_eq hL'.symm, .inl hL', fun r _ hr => hL' ▸ hr, ?_⟩
    show h.added.filter _ = h.handed ++ s'.queues.forwardRows.filter _
    rw [hHanded, hRows', hRows, List.nil_append]

theorem rowsInv_innerLoop {reload : Int64} (hInv : s.queues.RowsInv h) (hReload : h.reload = some reload)
    (hTurn : s.innerLoop false o = some (s', turn)) (hAns : HandleBatchAnswers turn.handed o.handled) :
    s'.queues.RowsInv { h with handed := h.handed ++ nonFill turn.handed } := by
  have hNoneHanded : turn.handed = [] → s'.queues.RowsInv h →
      s'.queues.RowsInv { h with handed := h.handed ++ nonFill turn.handed } := by
    intro hEmpty hInv'
    simp only [hEmpty, nonFill, List.filter_nil, List.append_nil]
    exact hInv'
  rcases innerLoop_cases hInv.rows_nonFill hInv.fillRows_fill hTurn with ⟨n, hFill, hQ⟩ | ⟨n, hHanded, hQ⟩ |
      ⟨a, rest, -, hHanded, hQ⟩ | ⟨k, hHanded, hQ⟩ | ⟨hHanded, hQ⟩
  · have hNone : nonFill turn.handed = [] := List.filter_eq_nil_iff.mpr fun r hr => by simp [hFill r hr]
    rw [hNone, List.append_nil, hQ]
    exact hInv.of_rows rfl rfl fun r hr => hInv.fillRows_fill r (List.mem_of_mem_drop hr)
  · have hNonFill : nonFill turn.handed = turn.handed := by
      apply List.filter_eq_self.mpr
      intro r hr
      rw [hHanded] at hr
      have hr' := hInv.rows_nonFill r (List.mem_of_mem_take ((List.dropWhile_sublist _).subset hr))
      simp [hr']
    rw [hNonFill, hHanded]
    rcases hQ with hQ | ⟨hNonempty, v, hv, hQ⟩
    · rw [hQ]
      exact hInv.takeRows hReload n _ (.inl rfl)
    · rw [hQ]
      apply hInv.takeRows hReload n _ (.inr ?_)
      obtain ⟨last, hLast⟩ := Option.isSome_iff_exists.mp (List.getLast?_isSome.mpr hNonempty)
      refine ⟨last, hHanded ▸ hLast, ?_⟩
      rw [hAns v last hv hLast, UInt64.toUInt64_toInt64]
  · apply hNoneHanded hHanded
    rw [hQ]
    exact hInv.of_rows rfl rfl hInv.fillRows_fill
  · apply hNoneHanded hHanded
    rw [hQ]
    exact hInv.of_rows rfl rfl hInv.fillRows_fill
  · apply hNoneHanded hHanded
    rw [hQ]
    exact hInv

end ShardScheduler

theorem SchedReach.inv {s : ShardScheduler} {h : RowHistory} (hReach : SchedReach s h) :
    s.queues.Counted ∧ s.queues.RowsInv h := by
  induction hReach with
  | init maxProcessBatchSize maxForwardWriteBatchSize =>
    refine ⟨⟨by simp [NewShardScheduler, ShardScheduler.queues, sumNumPuts], rfl⟩, ?_⟩
    refine ⟨by simp [NewShardScheduler, ShardScheduler.queues], by simp [NewShardScheduler, ShardScheduler.queues],
      List.Pairwise.nil, List.suffix_refl _, fun _ => ⟨rfl, rfl, rfl⟩, fun _ hSome => by cases hSome⟩
  | @addRows s h rows _ hSorted _ ih =>
    obtain ⟨hC, hInv⟩ := ih
    rw [ShardScheduler.queues_AddRows]
    by_cases hStop : (s.failed || s.stopped) = true
    · simp only [hStop, ↓reduceIte]
      exact ⟨hC, hInv⟩
    · simp only [hStop, Bool.false_eq_true, ↓reduceIte]
      exact ⟨hC.of_counters rfl rfl rfl rfl, hInv.addRows rows hSorted⟩
  | @addForwardBatch s s' h ch writeBatch _ hAdd ih =>
    obtain ⟨hC, hInv⟩ := ih
    obtain ⟨numPuts, hPuts, hQ⟩ := ShardScheduler.queues_addForwardBatch hAdd
    rw [hQ]
    refine ⟨⟨?_, hC.actionWeights⟩, hInv.of_rows rfl rfl hInv.fillRows_fill⟩
    show s.queuedWriteRows + numPuts.toNat = sumNumPuts (s.forwardWrites ++ [⟨writeBatch, [ch]⟩])
    have hW : s.queuedWriteRows = sumNumPuts s.forwardWrites := hC.writeRows
    rw [sumNumPuts_append, hW]
    simp [sumNumPuts, hPuts]
  | @addAction s s' h ch weight _ hAdd ih =>
    obtain ⟨hC, hInv⟩ := ih
    rw [ShardScheduler.queues_AddAction hAdd]
    refine ⟨⟨hC.writeRows, ?_⟩, hInv.of_rows rfl rfl hInv.fillRows_fill⟩
    show s.queuedActionWeights + weight = ((s.actions ++ [ActionEntry.mk weight ch]).map ActionEntry.weight).sum
    have hW : s.queuedActionWeights = (s.actions.map ActionEntry.weight).sum := hC.actionWeights
    rw [hW]
    simp
  | start _ ih =>
    rw [ShardScheduler.queues_Start]
    exact ih
  | stop _ ih =>
    rw [ShardScheduler.queues_Stop]
    exact ih
  | pause _ ih =>
    rw [ShardScheduler.queues_PauseProcessing]
    exact ih
  | resume _ ih =>
    rw [ShardScheduler.queues_ResumeProcessing]
    exact ih
  | firstTurn o _ hNone _ _ hTurn ih =>
    obtain ⟨hC, hInv⟩ := ih
    obtain ⟨-, hQ⟩ := ShardScheduler.innerLoop_first hTurn
    exact ⟨hQ ▸ ShardScheduler.counted_processBatch hC false o.handled,
      ShardScheduler.rowsInv_firstTurn hInv hNone hTurn⟩
  | turn o _ hReload _ _ hTurn hAns ih =>
    obtain ⟨hC, hInv⟩ := ih
    exact ⟨ShardScheduler.counted_innerLoop hInv.rows_nonFill hInv.fillRows_fill hC hTurn,
      ShardScheduler.rowsInv_innerLoop hInv hReload hTurn hAns⟩

theorem SchedReach.added_pos {s : ShardScheduler} {h : RowHistory} (hReach : SchedReach s h) :
    ∀ r ∈ h.added, 0 < r.ReceiverSequence := by
  induction hReach with
  | init => exact fun r hr => absurd hr List.not_mem_nil
  | @addRows s h rows _ _ hPos ih =>
    intro r hr
    split at hr
    · exact ih r hr
    · rcases List.mem_append.mp hr with hr | hr
      · exact ih r hr
      · exact hPos r hr
  | addForwardBatch _ _ _ ih | addAction _ _ _ ih | start _ ih | stop _ ih | pause _ ih | resume _ ih => exact ih
  | firstTurn _ _ _ _ _ _ ih | turn _ _ _ _ _ _ _ ih => exact ih

end PranaDB
