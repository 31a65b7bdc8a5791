import PranaDB.Push.SchedulerRuns

/-! # The loop drains its queues

A started scheduler that is not paused, whose `HandleBatch` returns the last
sequence of the rows it is handed and whose forward writes are proposed without
error, takes at least one entry from a queue at each turn of its loop, and the
loop goes on by itself exactly while entries are left. So it empties its queues
within as many turns as they hold entries, and by then every queued row above
the reload has been handed to `HandleBatch`, once and in order.

That needs what the callers queue (`Drainable`): actions of positive weight (the
fill queues its replays with weight 500 or the rows left, the sink its batches
with weight 1), writes with their channel and a put, and batches of a row at
least. The measure of the argument is `SchedQueues.pending`.
-/

namespace PranaDB
set_option autoImplicit false

namespace SchedQueues

def pending (q : SchedQueues) : Nat :=
  q.forwardRows.length + q.fillForwardRows.length + q.actions.length + q.forwardWrites.length

end SchedQueues

/-- A turn answered with success: `HandleBatch` returns the last sequence of the
rows it is handed and the proposal of a forward write no error; an action may
return anything. -/
structure LoopOutcome.Succeeds (o : LoopOutcome) (handed : List ForwardRow) : Prop where
  handled : ∃ v, o.handled = .ok v
  answers : HandleBatchAnswers handed o.handled
  executed : o.executed = none

def succeeding (handed : List ForwardRow) : LoopOutcome :=
  ⟨.ok ((handed.getLast?.map fun row => row.ReceiverSequence.toInt64).getD 0), none, none⟩

theorem succeeding_succeeds (handed : List ForwardRow) : (succeeding handed).Succeeds handed := by
  refine ⟨⟨_, rfl⟩, ?_, rfl⟩
  intro lastSequence last hOk hLast
  simp only [succeeding, hLast, Option.map_some, Option.getD_some, Except.ok.injEq] at hOk
  exact hOk.symm

namespace ShardScheduler

/-- What the callers queue, and a configuration whose batches hold a row. -/
structure Drainable (s : ShardScheduler) : Prop where
  batchSize : 0 < s.maxProcessBatchSize
  weights : ∀ a ∈ s.actions, 0 < a.weight
  writes : ∀ w ∈ s.forwardWrites, w.completionChannels ≠ [] ∧ ∃ n, getNumPuts w.writeBatch = some n ∧ 0 < n

def control (s : ShardScheduler) : Bool × Bool × Bool × Nat :=
  (s.started, s.stopped, s.processingPaused, s.maxProcessBatchSize)

def moreWork (s : ShardScheduler) : Bool :=
  decide (s.queuedWriteRows > 0) || !s.actions.isEmpty || !s.fillForwardRows.isEmpty ||
    (!s.processingPaused && !s.forwardRows.isEmpty)

def ChoiceSpec (s : ShardScheduler) : scheduleChoice → Prop
  | .fillBatch => s.fillForwardRows ≠ []
  | .processBatch => s.processingPaused = false ∧
      (s.queuedActionWeights < s.forwardRows.length ∨ s.queuedWriteRows < s.forwardRows.length)
  | .action => 0 < s.queuedActionWeights
  | .forwardBatch => 0 < s.queuedWriteRows
  | .none => s.fillForwardRows = [] ∧
      (s.processingPaused = false → (s.forwardRows.length : Int) ≤ s.queuedActionWeights ∧
        (s.forwardRows.length : Int) ≤ s.queuedWriteRows) ∧
      s.queuedActionWeights ≤ 0 ∧ s.queuedWriteRows ≤ 0

/-- A reachable state after the reload whose loop runs by itself. -/
structure Running (s : ShardScheduler) (h : RowHistory) (reload : Int64) : Prop where
  reach : SchedReach s h
  reloaded : h.reload = some reload
  started : s.started = true
  stopped : s.stopped = false
  resumed : s.processingPaused = false
  drainable : s.Drainable

end ShardScheduler

/-- The turns of the loop after the reload, each answered with success, for as
long as the loop goes on by itself: every turn but the last says that work is
left, and the last says none is. -/
inductive SucceedingRun : ShardScheduler → List Turn → ShardScheduler → Prop where
  | last {s s' : ShardScheduler} {turn : Turn} (o : LoopOutcome) :
      s.innerLoop false o = some (s', turn) → o.Succeeds turn.handed → turn.more = false →
      SucceedingRun s [turn] s'
  | next {s s₁ s' : ShardScheduler} {turn : Turn} {turns : List Turn} (o : LoopOutcome) :
      s.innerLoop false o = some (s₁, turn) → o.Succeeds turn.handed → turn.more = true →
      SucceedingRun s₁ turns s' → SucceedingRun s (turn :: turns) s'

theorem sum_weight_nonneg {actions : List ActionEntry} (h : ∀ a ∈ actions, 0 < a.weight) :
    0 ≤ (actions.map ActionEntry.weight).sum :=
  List.sum_nonneg fun x hx => by
    obtain ⟨a, ha, rfl⟩ := List.mem_map.mp hx
    exact (h a ha).le

theorem sum_weight_pos {actions : List ActionEntry} (h : ∀ a ∈ actions, 0 < a.weight) (hne : actions ≠ []) :
    0 < (actions.map ActionEntry.weight).sum :=
  List.sum_pos _ (fun x hx => by
    obtain ⟨a, ha, rfl⟩ := List.mem_map.mp hx
    exact h a ha) (by simpa using hne)

theorem sumNumPuts_nonneg (ws : List WriteBatchEntry) : 0 ≤ sumNumPuts ws :=
  List.sum_nonneg fun x hx => by
    obtain ⟨w, -, rfl⟩ := List.mem_map.mp hx
    cases getNumPuts w.writeBatch <;> simp

theorem sumNumPuts_pos {ws : List WriteBatchEntry} (h : ∀ w ∈ ws, ∃ n, getNumPuts w.writeBatch = some n ∧ 0 < n)
    (hne : ws ≠ []) : 0 < sumNumPuts ws :=
  List.sum_pos _ (fun x hx => by
    obtain ⟨w, hw, rfl⟩ := List.mem_map.mp hx
    obtain ⟨n, hn, hpos⟩ := h w hw
    have : 0 < n.toNat := UInt32.lt_iff_toNat_lt.mp hpos
    simp only [hn, Option.map_some, Option.getD_some]
    omega) (by simpa using hne)

theorem length_le_of_getNumPuts {batch : Bytes} {n : UInt32} (h : getNumPuts batch = some n) :
    7 ≤ batch.length := by
  unfold getNumPuts ReadUint32FromBufferLE at h
  split at h
  · omega
  · cases h

theorem combineForwardWrites_isSome (maxForwardWriteBatchSize : Int) :
    ∀ (q : List WriteBatchEntry) (combined : Bytes) (entries : Int) (next : Nat) (channels : List Nat),
      (∀ w ∈ q, w.completionChannels ≠ [] ∧ ∃ n, getNumPuts w.writeBatch = some n) →
      (combineForwardWrites maxForwardWriteBatchSize q combined entries next channels).isSome
  | [], _, _, _, _, _ => rfl
  | batch :: rest, combined, entries, next, channels, hq => by
    obtain ⟨hCh, n, hn⟩ := hq batch List.mem_cons_self
    obtain ⟨ch, chs, hchs⟩ := List.exists_cons_of_ne_nil hCh
    have ih := combineForwardWrites_isSome maxForwardWriteBatchSize rest (combined ++ batch.writeBatch.drop 3)
      (entries + n.toNat) (next + 1) (channels ++ [ch]) fun w hw => hq w (List.mem_cons_of_mem _ hw)
    simp only [combineForwardWrites, hn, hchs, Option.bind_eq_bind, Option.bind_some, List.getElem?_cons_zero]
    split
    · rfl
    · exact ih

theorem combineForwardWrites_cons_next {maxForwardWriteBatchSize : Int} {batch : WriteBatchEntry}
    {rest : List WriteBatchEntry} {combined combined' : Bytes} {entries entries' : Int} {next next' : Nat}
    {channels channels' : List Nat}
    (h : combineForwardWrites maxForwardWriteBatchSize (batch :: rest) combined entries next channels =
      some (combined', entries', next', channels')) : next < next' := by
  simp only [combineForwardWrites, Option.bind_eq_bind, Option.bind_eq_some_iff] at h
  obtain ⟨numPuts, -, ch, -, h⟩ := h
  split at h
  · simp only [Option.some.injEq, Prod.mk.injEq] at h
    omega
  · obtain ⟨j, -, hj, -⟩ := combineForwardWrites_take maxForwardWriteBatchSize rest _ _ _ _ h
    omega

namespace ShardScheduler

variable {s s' s₁ : ShardScheduler} {h : RowHistory} {o : LoopOutcome} {turn : Turn} {next : NextBatch}

theorem counters_pos (hC : s.queues.Counted) (hD : s.Drainable) :
    0 ≤ s.queuedActionWeights ∧ (s.actions ≠ [] → 0 < s.queuedActionWeights) ∧
      0 ≤ s.queuedWriteRows ∧ (s.forwardWrites ≠ [] → 0 < s.queuedWriteRows) := by
  have hA : s.queuedActionWeights = (s.actions.map ActionEntry.weight).sum := hC.actionWeights
  have hW : s.queuedWriteRows = sumNumPuts s.forwardWrites := hC.writeRows
  rw [hA, hW]
  exact ⟨sum_weight_nonneg hD.weights, sum_weight_pos hD.weights, sumNumPuts_nonneg _,
    sumNumPuts_pos fun w hw => (hD.writes w hw).2⟩

theorem actions_ne_nil (hC : s.queues.Counted) (hA : 0 < s.queuedActionWeights) : s.actions ≠ [] := by
  intro hNil
  have hSum : s.queuedActionWeights = (s.actions.map ActionEntry.weight).sum := hC.actionWeights
  simp [hNil] at hSum
  omega

theorem forwardWrites_ne_nil (hC : s.queues.Counted) (hW : 0 < s.queuedWriteRows) : s.forwardWrites ≠ [] := by
  intro hNil
  have hSum : s.queuedWriteRows = sumNumPuts s.forwardWrites := hC.writeRows
  simp [hNil, sumNumPuts] at hSum
  omega

theorem chooseWork_spec : s.ChoiceSpec s.chooseWork := by
  have fills_of : ∀ b, (decide ((s.fillForwardRows.length : Int) > 0) && b) = true → s.fillForwardRows ≠ [] := by
    intro b hb
    have : 0 < s.fillForwardRows.length := by simp at hb; omega
    exact List.ne_nil_of_length_pos this
  simp only [chooseWork]
  split_ifs with hProcess hFill hAction hFill hWrite hFill hFill
  · exact fills_of _ hFill
  · simpa [ChoiceSpec] using hProcess
  · exact fills_of _ hFill
  · exact hAction
  · exact fills_of _ hFill
  · exact hWrite
  · exact fills_of _ hFill
  · have hNoFills : ¬(s.fillForwardRows.length : Int) > 0 := by simpa using hFill
    refine ⟨List.eq_nil_of_length_eq_zero (by omega), fun hP => ?_, by omega, by omega⟩
    simp only [hP, Bool.not_false, Bool.true_and, Bool.or_eq_true, decide_eq_true_eq, not_or] at hProcess
    omega

theorem queues_empty_of_chooseWork (hC : s.queues.Counted) (hD : s.Drainable) (hPaused : s.processingPaused = false)
    (hNone : s.chooseWork = .none) :
    s.forwardRows = [] ∧ s.fillForwardRows = [] ∧ s.actions = [] ∧ s.forwardWrites = [] := by
  have hSpec := chooseWork_spec (s := s)
  rw [hNone] at hSpec
  obtain ⟨hFills, hRows, hA, hW⟩ := hSpec
  obtain ⟨hA0, hAPos, hW0, hWPos⟩ := counters_pos hC hD
  have hLen := hRows hPaused
  refine ⟨List.eq_nil_of_length_eq_zero (by omega), hFills, ?_, ?_⟩
  · by_contra hne
    have := hAPos hne
    omega
  · by_contra hne
    have := hWPos hne
    omega

theorem getForwardWriteBatch_some
    (hW : ∀ w ∈ s.forwardWrites, w.completionChannels ≠ [] ∧ ∃ n, getNumPuts w.writeBatch = some n)
    (hne : s.forwardWrites ≠ []) :
    ∃ entry s', s.getForwardWriteBatch = some (entry, s') ∧ s'.forwardWrites.length < s.forwardWrites.length := by
  obtain ⟨first, rest, hQ⟩ := List.exists_cons_of_ne_nil hne
  obtain ⟨-, n, hn⟩ := hW first (by simp [hQ])
  have hLen := length_le_of_getNumPuts hn
  unfold getForwardWriteBatch
  split
  · obtain ⟨⟨combined, entries, nextIndex, channels⟩, hLoop⟩ :=
      Option.isSome_iff_exists.mp (combineForwardWrites_isSome s.maxForwardWriteBatchSize s.forwardWrites [] 0 0 [] hW)
    rw [hQ] at hLoop
    have hNext : 0 < nextIndex := combineForwardWrites_cons_next hLoop
    obtain ⟨command, hCommand⟩ : ∃ c, first.writeBatch[0]? = some c := ⟨_, List.getElem?_eq_getElem (by omega)⟩
    obtain ⟨fill, hFill⟩ : ∃ c, first.writeBatch[1]? = some c := ⟨_, List.getElem?_eq_getElem (by omega)⟩
    simp only [hQ, hLoop, List.getElem?_cons_zero, hCommand, hFill, Option.bind_eq_bind, Option.bind_some]
    refine ⟨_, _, rfl, ?_⟩
    simp only [List.length_drop, List.length_cons]
    omega
  · simp only [hQ, List.getElem?_cons_zero, hn, Option.bind_eq_bind, Option.bind_some]
    refine ⟨_, _, rfl, ?_⟩
    simp

theorem takeWork_progress (hC : s.queues.Counted) (hD : s.Drainable) (hPaused : s.processingPaused = false) :
    ∃ rows batch action s₀, s.takeWork s.chooseWork = some (rows, batch, action, s₀) ∧
      (s₀.queues.pending < s.queues.pending ∨ s₀.queues.pending = 0) := by
  have hSpec := chooseWork_spec (s := s)
  obtain ⟨hA0, -, hW0, -⟩ := counters_pos hC hD
  have hBatch := hD.batchSize
  cases hc : s.chooseWork with
  | fillBatch =>
    rw [hc] at hSpec
    have hLen : 0 < s.fillForwardRows.length := List.length_pos_iff.mpr hSpec
    refine ⟨_, _, _, _, rfl, .inl ?_⟩
    simp only [queues, SchedQueues.pending, List.length_drop]
    omega
  | processBatch =>
    rw [hc] at hSpec
    obtain ⟨-, hMore⟩ := hSpec
    have hLen : 0 < s.forwardRows.length := by omega
    refine ⟨_, _, _, _, rfl, .inl ?_⟩
    simp only [queues, SchedQueues.pending, List.length_drop]
    omega
  | action =>
    rw [hc] at hSpec
    obtain ⟨a, rest, hActions⟩ := List.exists_cons_of_ne_nil (actions_ne_nil hC hSpec)
    have hTake : s.takeWork .action = some ([], none, some a,
        { s with actions := rest, queuedActionWeights := s.queuedActionWeights - a.weight }) := by
      simp only [takeWork, getAction, hActions, Option.bind_eq_bind, Option.bind_some]
    refine ⟨_, _, _, _, hTake, .inl ?_⟩
    simp [queues, SchedQueues.pending, hActions]
  | forwardBatch =>
    rw [hc] at hSpec
    obtain ⟨entry, s₁, hGet, hLt⟩ :=
      getForwardWriteBatch_some (fun w hw => ⟨(hD.writes w hw).1, (hD.writes w hw).2.imp fun _ => And.left⟩)
        (forwardWrites_ne_nil hC hSpec)
    have hTake : s.takeWork .forwardBatch = some ([], some entry, none, { s₁ with fillRun := 0 }) := by
      simp only [takeWork, hGet, Option.bind_eq_bind, Option.bind_some]
    obtain ⟨k, rfl⟩ := getForwardWriteBatch_take hGet
    refine ⟨_, _, _, _, hTake, .inl ?_⟩
    simp only [queues, SchedQueues.pending] at hLt ⊢
    omega
  | none =>
    obtain ⟨hRows, hFills, hActions, hWrites⟩ := queues_empty_of_chooseWork hC hD hPaused hc
    exact ⟨[], none, none, s, rfl, .inr (by simp [queues, SchedQueues.pending, hRows, hFills, hActions, hWrites])⟩

theorem takeWork_control {c : scheduleChoice} {rows : List ForwardRow} {batch : Option WriteBatchEntry}
    {action : Option ActionEntry} (h : s.takeWork c = some (rows, batch, action, s')) : s'.control = s.control := by
  cases c with
  | fillBatch | processBatch | none =>
    simp only [takeWork, getFillRowsToProcess, getRowsToProcess, Option.some.injEq, Prod.mk.injEq] at h
    obtain ⟨-, -, -, rfl⟩ := h
    rfl
  | action =>
    simp only [takeWork, Option.bind_eq_bind, Option.bind_eq_some_iff] at h
    obtain ⟨⟨a, s₁⟩, hGet, h⟩ := h
    simp only [Option.some.injEq, Prod.mk.injEq] at h
    obtain ⟨-, -, -, rfl⟩ := h
    unfold getAction at hGet
    split at hGet
    · cases hGet
    · simp only [Option.some.injEq, Prod.mk.injEq] at hGet
      obtain ⟨-, rfl⟩ := hGet
      rfl
  | forwardBatch =>
    simp only [takeWork, Option.bind_eq_bind, Option.bind_eq_some_iff] at h
    obtain ⟨⟨e, s₁⟩, hGet, h⟩ := h
    simp only [Option.some.injEq, Prod.mk.injEq] at h
    obtain ⟨-, -, -, rfl⟩ := h
    obtain ⟨k, rfl⟩ := getForwardWriteBatch_take hGet
    rfl

theorem getNextBatch_cases (h : s.getNextBatch = some (next, s₁)) :
    ∃ s₀, s.takeWork s.chooseWork = some (next.rowsToProcess, next.forwardWriteBatch, next.action, s₀) ∧
      next.more = s₀.moreWork ∧ (s₁ = s₀ ∨ s₁ = { s₀ with processorRunning := false }) := by
  unfold getNextBatch at h
  split at h
  · cases h
  · simp only [Option.bind_eq_bind, Option.bind_eq_some_iff] at h
    obtain ⟨⟨rows, batch, action, s₀⟩, hTake, h⟩ := h
    simp only [Option.some.injEq, Prod.mk.injEq] at h
    obtain ⟨rfl, rfl⟩ := h
    refine ⟨s₀, hTake, ?_, ?_⟩
    · cases hP : s₀.processingPaused <;> simp [moreWork, hP]
    · split_ifs <;> simp

theorem getNextBatch_control (h : s.getNextBatch = some (next, s₁)) : s₁.control = s.control := by
  obtain ⟨s₀, hTake, -, hS⟩ := getNextBatch_cases h
  have hControl : s₀.control = s.control := takeWork_control hTake
  rcases hS with rfl | rfl <;> exact hControl

theorem getNextBatch_more (h : s.getNextBatch = some (next, s₁)) : next.more = s₁.moreWork := by
  obtain ⟨s₀, -, hMore, hS⟩ := getNextBatch_cases h
  rcases hS with rfl | rfl <;> exact hMore

theorem getNextBatch_progress (hC : s.queues.Counted) (hD : s.Drainable) (hPaused : s.processingPaused = false) :
    ∃ next s₁, s.getNextBatch = some (next, s₁) ∧
      (s₁.queues.pending < s.queues.pending ∨ s₁.queues.pending = 0) := by
  have hSane : s.workButNoneChosen = false := by
    unfold workButNoneChosen
    cases hc : s.chooseWork with
    | none =>
      obtain ⟨hRows, hFills, hActions, hWrites⟩ := queues_empty_of_chooseWork hC hD hPaused hc
      have hA : s.queuedActionWeights = (s.actions.map ActionEntry.weight).sum := hC.actionWeights
      have hW : s.queuedWriteRows = sumNumPuts s.forwardWrites := hC.writeRows
      simp [hA, hW, hRows, hFills, hActions, hWrites, sumNumPuts]
    | fillBatch | processBatch | action | forwardBatch => rfl
  obtain ⟨rows, batch, action, s₀, hTake, hProg⟩ := takeWork_progress hC hD hPaused
  obtain ⟨next, s₁, hNext⟩ : ∃ next s₁, s.getNextBatch = some (next, s₁) := by
    simp only [getNextBatch, hSane, hTake, Bool.false_eq_true, ↓reduceIte, Option.bind_eq_bind, Option.bind_some]
    exact ⟨_, _, rfl⟩
  obtain ⟨s₀', hTake', -, hS⟩ := getNextBatch_cases hNext
  rw [hTake, Option.some.injEq, Prod.mk.injEq, Prod.mk.injEq, Prod.mk.injEq] at hTake'
  obtain ⟨-, -, -, rfl⟩ := hTake'
  refine ⟨next, s₁, hNext, ?_⟩
  rcases hS with rfl | rfl <;> exact hProg

theorem moreWork_iff (hC : s.queues.Counted) (hD : s.Drainable) (hPaused : s.processingPaused = false) :
    s.moreWork = true ↔ 0 < s.queues.pending := by
  obtain ⟨-, -, hW0, hWPos⟩ := counters_pos hC hD
  have hWrites : decide (s.queuedWriteRows > 0) = !s.forwardWrites.isEmpty := by
    by_cases hne : s.forwardWrites = []
    · have hW : ¬s.queuedWriteRows > 0 := fun hW => forwardWrites_ne_nil hC hW hne
      simp [hW, hne]
    · simp [hWPos hne, hne]
  simp only [moreWork, hWrites, hPaused, Bool.not_false, Bool.true_and, Bool.or_eq_true, Bool.not_eq_true',
    List.isEmpty_eq_false_iff, ne_eq, queues, SchedQueues.pending, ← List.length_pos_iff]
  omega

theorem innerLoop_answered (hNext : s.getNextBatch = some (next, s₁)) :
    ∃ handed, ∀ o : LoopOutcome, o.executed = none → ∀ v, o.handled = .ok v →
      ∃ s' turn, s.innerLoop false o = some (s', turn) ∧ turn.handed = handed ∧ turn.more = next.more ∧
        (s' = s₁ ∨ s' = { s₁ with lastProcessedReceiverSeq := v.toUInt64 }) := by
  cases hA : next.action with
  | some a =>
    refine ⟨[], fun o _ _ _ => ⟨s₁, ⟨[], [(a.completionChannel, o.actionResult)], true, next.more⟩, ?_, rfl, rfl,
      .inl rfl⟩⟩
    simp only [innerLoop, Bool.false_eq_true, ↓reduceIte, hNext, Option.bind_eq_bind, Option.bind_some, hA]
  | none =>
    cases hB : next.forwardWriteBatch with
    | some b =>
      refine ⟨[], fun o hE _ _ => ⟨s₁, ⟨[], b.completionChannels.map fun ch => (ch, o.executed), true, next.more⟩,
        ?_, rfl, rfl, .inl rfl⟩⟩
      simp only [innerLoop, Bool.false_eq_true, ↓reduceIte, hNext, Option.bind_eq_bind, Option.bind_some, hA, hB, hE]
    | none =>
      cases hR : next.rowsToProcess with
      | nil =>
        refine ⟨[], fun o _ _ _ => ⟨s₁, ⟨[], [], true, next.more⟩, ?_, rfl, rfl, .inl rfl⟩⟩
        simp only [innerLoop, Bool.false_eq_true, ↓reduceIte, hNext, Option.bind_eq_bind, Option.bind_some, hA, hB,
          hR]
      | cons row rows =>
        refine ⟨if !row.Fill then dropProcessed s₁.lastProcessedReceiverSeq (row :: rows) else row :: rows,
          fun o _ v hv => ?_⟩
        by_cases hEmpty : (if !row.Fill then dropProcessed s₁.lastProcessedReceiverSeq (row :: rows)
            else row :: rows).isEmpty = true
        · refine ⟨s₁, ⟨[], [], true, next.more⟩, ?_, (List.isEmpty_iff.mp hEmpty).symm, rfl, .inl rfl⟩
          simp only [innerLoop, Bool.false_eq_true, ↓reduceIte, hNext, Option.bind_eq_bind, Option.bind_some, hA, hB,
            hR, hEmpty]
        · refine ⟨(s₁.processBatch row.Fill o.handled).1,
            ⟨_, (s₁.processBatch row.Fill o.handled).2.1, (s₁.processBatch row.Fill o.handled).2.2, next.more⟩, ?_,
            rfl, rfl, ?_⟩
          · simp only [innerLoop, Bool.false_eq_true, ↓reduceIte, hNext, Option.bind_eq_bind, Option.bind_some, hA,
              hB, hR, hEmpty]
            rfl
          · simp only [hv, processBatch]
            split
            · exact .inr rfl
            · exact .inl rfl

theorem Drainable.of_subset (hD : s.Drainable) (hB : s'.maxProcessBatchSize = s.maxProcessBatchSize)
    (hA : s'.actions ⊆ s.actions) (hW : s'.forwardWrites ⊆ s.forwardWrites) : s'.Drainable :=
  ⟨hB ▸ hD.batchSize, fun a ha => hD.weights a (hA ha), fun w hw => hD.writes w (hW hw)⟩

theorem drainable_innerLoop (hRowsKind : ∀ r ∈ s.forwardRows, r.Fill = false)
    (hFillKind : ∀ r ∈ s.fillForwardRows, r.Fill = true) (hD : s.Drainable)
    (hB : s'.maxProcessBatchSize = s.maxProcessBatchSize) (hTurn : s.innerLoop false o = some (s', turn)) :
    s'.Drainable := by
  have same : ∀ {α : Type} {l l' : List α}, l' = l → l' ⊆ l := fun h => h ▸ List.Subset.refl _
  rcases innerLoop_cases hRowsKind hFillKind hTurn with ⟨n, -, hQ⟩ | ⟨n, -, hQ | ⟨-, v, -, hQ⟩⟩ |
      ⟨a, rest, hActions, -, hQ⟩ | ⟨k, -, hQ⟩ | ⟨-, hQ⟩
  · exact hD.of_subset hB (same (congrArg SchedQueues.actions hQ)) (same (congrArg SchedQueues.forwardWrites hQ))
  · exact hD.of_subset hB (same (congrArg SchedQueues.actions hQ)) (same (congrArg SchedQueues.forwardWrites hQ))
  · exact hD.of_subset hB (same (congrArg SchedQueues.actions hQ)) (same (congrArg SchedQueues.forwardWrites hQ))
  · have hA : s'.actions = rest := congrArg SchedQueues.actions hQ
    refine hD.of_subset hB ?_ (same (congrArg SchedQueues.forwardWrites hQ))
    rw [hA, hActions]
    exact List.subset_cons_self _ _
  · have hW : s'.forwardWrites = s.forwardWrites.drop k := congrArg SchedQueues.forwardWrites hQ
    refine hD.of_subset hB (same (congrArg SchedQueues.actions hQ)) ?_
    rw [hW]
    exact List.drop_subset _ _
  · exact hD.of_subset hB (same (congrArg SchedQueues.actions hQ)) (same (congrArg SchedQueues.forwardWrites hQ))

variable {reload : Int64}

theorem Running.succeeding_turn (hRun : s.Running h reload) (hTurn : s.innerLoop false o = some (s', turn))
    (hOk : o.Succeeds turn.handed) :
    s'.Running { h with handed := h.handed ++ nonFill turn.handed } reload ∧
      (turn.more = true ↔ 0 < s'.queues.pending) ∧
      (s'.queues.pending < s.queues.pending ∨ s'.queues.pending = 0) := by
  obtain ⟨hC, hInv⟩ := hRun.reach.inv
  obtain ⟨next, s₁, hNext, hProg⟩ := getNextBatch_progress hC hRun.drainable hRun.resumed
  obtain ⟨handed, hAns⟩ := innerLoop_answered hNext
  obtain ⟨v, hv⟩ := hOk.handled
  obtain ⟨s₂, turn₂, hTurn₂, -, hMore, hS⟩ := hAns o hOk.executed v hv
  rw [hTurn, Option.some.injEq, Prod.mk.injEq] at hTurn₂
  obtain ⟨rfl, rfl⟩ := hTurn₂
  have hS₁ : s'.queues.pending = s₁.queues.pending ∧ s'.control = s₁.control ∧ s'.moreWork = s₁.moreWork := by
    rcases hS with rfl | rfl <;> exact ⟨rfl, rfl, rfl⟩
  have hControl : s'.control = s.control := hS₁.2.1.trans (getNextBatch_control hNext)
  simp only [control, Prod.mk.injEq] at hControl
  obtain ⟨hStarted, hStopped, hPaused, hBatch⟩ := hControl
  have hReach := SchedReach.turn o hRun.reach hRun.reloaded hRun.started hRun.stopped hTurn hOk.answers
  have hD := drainable_innerLoop hInv.rows_nonFill hInv.fillRows_fill hRun.drainable hBatch hTurn
  have hResumed : s'.processingPaused = false := hPaused.trans hRun.resumed
  refine ⟨⟨hReach, hRun.reloaded, hStarted.trans hRun.started, hStopped.trans hRun.stopped, hResumed, hD⟩,
    ?_, hS₁.1 ▸ hProg⟩
  rw [hMore, getNextBatch_more hNext, ← hS₁.2.2]
  exact moreWork_iff hReach.inv.1 hD hResumed

theorem Running.exists_succeeding_turn (hRun : s.Running h reload) :
    ∃ o s' turn, s.innerLoop false o = some (s', turn) ∧ o.Succeeds turn.handed := by
  obtain ⟨hC, -⟩ := hRun.reach.inv
  obtain ⟨next, s₁, hNext, -⟩ := getNextBatch_progress hC hRun.drainable hRun.resumed
  obtain ⟨handed, hAns⟩ := innerLoop_answered hNext
  obtain ⟨s', turn, hTurn, hHanded, -⟩ := hAns (succeeding handed) rfl _ rfl
  exact ⟨_, s', turn, hTurn, hHanded ▸ succeeding_succeeds handed⟩

theorem Running.exists_succeedingRun (hRun : s.Running h reload) : ∃ turns s', SucceedingRun s turns s' := by
  induction hn : s.queues.pending using Nat.strong_induction_on generalizing s h with
  | _ n ih =>
    obtain ⟨o, s', turn, hTurn, hOk⟩ := hRun.exists_succeeding_turn
    obtain ⟨hRun', hMore, hProg⟩ := hRun.succeeding_turn hTurn hOk
    cases hm : turn.more with
    | false => exact ⟨[turn], s', .last o hTurn hOk hm⟩
    | true =>
      have hPos : 0 < s'.queues.pending := hMore.mp hm
      obtain ⟨turns, s'', hRest⟩ := ih _ (by omega) hRun' rfl
      exact ⟨turn :: turns, s'', .next o hTurn hOk hm hRest⟩

end ShardScheduler

open ShardScheduler

theorem SucceedingRun.drains {s s' : ShardScheduler} {turns : List Turn} (hRun : SucceedingRun s turns s') :
    ∀ {h : RowHistory} {reload : Int64}, s.Running h reload →
      s'.Running { h with handed := h.handed ++ turns.flatMap fun t => nonFill t.handed } reload ∧
        s'.queues.pending = 0 ∧ turns.length ≤ s.queues.pending + 1 := by
  induction hRun with
  | @last s₀ s₁ turn o hTurn hOk hMore =>
    intro h reload hR
    obtain ⟨hR', hMoreIff, -⟩ := hR.succeeding_turn hTurn hOk
    have hZero : ¬0 < s₁.queues.pending := fun hPos => by simp [hMoreIff.mpr hPos] at hMore
    exact ⟨by simpa using hR', by omega, by simp⟩
  | next o hTurn hOk hMore _ ih =>
    intro h reload hR
    obtain ⟨hR₁, hMoreIff, hProg⟩ := hR.succeeding_turn hTurn hOk
    obtain ⟨hR', hZero, hLen⟩ := ih hR₁
    have hPos := hMoreIff.mp hMore
    refine ⟨by simpa [List.append_assoc] using hR', hZero, ?_⟩
    simp only [List.length_cons]
    omega

theorem filter_not_covered {reload : Int64} {rows : List ForwardRow} (hPos : ∀ r ∈ rows, 0 < r.ReceiverSequence) :
    rows.filter (fun r => !coveredByReload reload r) =
      rows.filter fun r => decide (reloadSeq reload < r.ReceiverSequence) := by
  apply List.filter_congr
  intro r hr
  apply Bool.eq_iff_iff.mpr
  simp [reloadSeq_lt_iff, hPos r hr]

theorem SchedReach.handed_above_reload {s : ShardScheduler} {h : RowHistory} {reload : Int64}
    (hReach : SchedReach s h) (hReload : h.reload = some reload) :
    h.handed.Pairwise (fun a b => a.ReceiverSequence < b.ReceiverSequence) ∧ h.handed.Nodup ∧
      (∀ r ∈ h.handed, coveredByReload reload r = false) ∧
      h.added.filter (fun r => !coveredByReload reload r) =
        h.handed ++ s.forwardRows.filter fun r => !coveredByReload reload r := by
  obtain ⟨-, hInv⟩ := hReach.inv
  have hI := hInv.after_reload reload hReload
  have hPos := hReach.added_pos
  have hSorted : h.handed.Pairwise fun a b => a.ReceiverSequence < b.ReceiverSequence :=
    hInv.added_sorted.sublist hI.handed_sublist
  have hNodup : h.handed.Nodup := hSorted.imp fun {a b} hlt (hEq : a = b) => UInt64.lt_irrefl _ (hEq ▸ hlt)
  have hQueuePos : ∀ r ∈ s.forwardRows, 0 < r.ReceiverSequence := fun r hr => hPos r (hInv.queue_suffix.subset hr)
  refine ⟨hSorted, hNodup, ?_, ?_⟩
  · intro r hr
    have hMem : r ∈ h.added.filter fun r => decide (reloadSeq reload < r.ReceiverSequence) := by
      rw [hI.added_eq]
      exact List.mem_append_left _ hr
    exact (reloadSeq_lt_iff.mp (decide_eq_true_iff.mp (List.mem_filter.mp hMem).2)).1
  · rw [filter_not_covered hPos, filter_not_covered hQueuePos]
    exact hI.added_eq

theorem SchedReach_handed_counters {s : ShardScheduler} {h : RowHistory} (hReach : SchedReach s h) :
    s.queuedWriteRows = sumNumPuts s.forwardWrites ∧
    s.queuedActionWeights = (s.actions.map ActionEntry.weight).sum ∧
    ∀ reload, h.reload = some reload →
      h.handed.Pairwise (fun a b => a.ReceiverSequence < b.ReceiverSequence) ∧ h.handed.Nodup ∧
      (∀ r ∈ h.handed, coveredByReload reload r = false) ∧
      h.added.filter (fun r => !coveredByReload reload r) =
        h.handed ++ s.forwardRows.filter (fun r => !coveredByReload reload r) ∧
      (s.started = true → s.stopped = false → s.processingPaused = false → s.Drainable →
        (∃ turns s', SucceedingRun s turns s') ∧
        ∀ turns s', SucceedingRun s turns s' → s'.queues.pending = 0 ∧ turns.length ≤ s.queues.pending + 1 ∧
          h.handed ++ turns.flatMap (fun t => nonFill t.handed) =
            h.added.filter fun r => !coveredByReload reload r) := by
  obtain ⟨hC, -⟩ := hReach.inv
  refine ⟨hC.writeRows, hC.actionWeights, fun reload hReload => ?_⟩
  obtain ⟨hSorted, hNodup, hNotCovered, hEq⟩ := hReach.handed_above_reload hReload
  refine ⟨hSorted, hNodup, hNotCovered, hEq, fun hStarted hStopped hPaused hD => ?_⟩
  have hRun : s.Running h reload := ⟨hReach, hReload, hStarted, hStopped, hPaused, hD⟩
  refine ⟨hRun.exists_succeedingRun, fun turns s' hTurns => ?_⟩
  obtain ⟨hRun', hZero, hLen⟩ := hTurns.drains hRun
  have hRows : s'.forwardRows = [] := by
    simp only [queues, SchedQueues.pending] at hZero
    exact List.eq_nil_of_length_eq_zero (by omega)
  refine ⟨hZero, hLen, ?_⟩
  have hAfter := (hRun'.reach.handed_above_reload hRun'.reloaded).2.2.2
  simp only [hRows, List.filter_nil, List.append_nil] at hAfter
  exact hAfter.symm

theorem SchedReach_handed_counters_two_rows :
    ∃ s h, SchedReach s h ∧ h.reload = some (-1) ∧ ∃ turns s', SucceedingRun s turns s' ∧
      turns.flatMap (fun t => nonFill t.handed) = [⟨1, 7, [1], [2], 0, false⟩, ⟨2, 7, [3], [4], 0, false⟩] := by
  have h₁ := SchedReach.addRows [⟨1, 7, [1], [2], 0, false⟩, ⟨2, 7, [3], [4], 0, false⟩]
    (SchedReach.init 10 100) (by decide) (by decide)
  have h₂ := SchedReach.firstTurn ⟨.ok (-1), none, none⟩ h₁.start rfl rfl rfl rfl
  obtain ⟨-, -, hAll⟩ := SchedReach_handed_counters h₂
  obtain ⟨-, -, -, -, hLive⟩ := hAll (-1) rfl
  obtain ⟨⟨turns, s', hRun⟩, hDrain⟩ := hLive rfl rfl rfl ⟨by decide, by decide, by decide⟩
  refine ⟨_, _, h₂, rfl, turns, s', hRun, ?_⟩
  exact (hDrain turns s' hRun).2.2.trans (by decide)

end PranaDB
