import Mathlib
import PranaDB.Push.TableExec
import PranaDB.Command.Selector

/-! # Sinks (`push/sink.go`)

A sink sends the changes of its query to a Kafka topic. `Sink.HandleRows`
gathers the latest row of each key of the batch in `rowsToSend`, a delete as a
nil row. With `EmitAfter` zero it sends them at once. Otherwise it keeps them,
per shard, in `toSend` until there are `MaxBufferedMessages` of them or the timer
sends them, and meanwhile stores each in the sink table, a delete as a nil
value, so that `loadPersistentState` can send again what a restart finds there.
A persistent send deletes the keys it sent from the sink table.

Go's maps are `AList`s. `sendMessageBatch` runs over `iter` of a map's entries,
which is a permutation of them, and the results hold for every such `iter`.
`createKafkaMessage` injects the cells of a row into the key, the headers and
the value of a message, as the selectors of `TargetInfo.Injectors` say. What it
calls outside the sink is `MessageEnv`: the codecs, whose bytes are of a type
`β`, `sharder.Hash`, `GoTime`, the text of a decimal, the clock and the order
of a `range` over the header map. The producer and the cluster take what is
sent. The state a failed call leaves behind is not modelled.
-/

namespace PranaDB
set_option autoImplicit false

/-- What goes wrong in a sink: an error it returns, a runtime panic of Go, or
the failure of a selector's `Inject`. -/
inductive SinkError where
  | error (msg : String)
  | panic (msg : String)
  | selector (err : SelectorError)
deriving DecidableEq, Repr

/-- The fields of `common.SinkInfo` the sink reads: its table and, from
`TargetInfo`, when it emits, the injectors of the columns and the number of
partitions. `EmitAfter` is a duration, zero for at once. -/
structure SinkInfo where
  ID : UInt64
  PrimaryKeyCols : List Nat
  ColumnTypes : List ColumnType
  EmitAfter : Nat
  MaxBufferedMessages : Nat
  Injectors : List ColumnSelector
  NumPartitions : Int

/-- The values `createKafkaMessage` injects: Go's `int64`, `float64` and
`string`, and a `time.Time` of type `τ`. -/
inductive InjectedValue (τ : Type) where
  | int64 (v : Int64)
  | float64 (bits : UInt64)
  | string (s : Bytes)
  | time (t : τ)
deriving Repr

/-- `kafka.Message`, with the encoded key, value and headers of type `β`. -/
structure KafkaMessage (τ β : Type) where
  PartitionID : Int32
  Value : β
  Key : β
  TimeStamp : τ
  Headers : List (String × β)
deriving Repr

/-- What `createKafkaMessage` calls outside the sink: the key, header and value
codecs, `sharder.Hash`, `Timestamp.GoTime(time.UTC)`, `MyDecimal.String`,
`time.Time.IsZero`, `time.Now()` and the order of a `range` over the header
map. -/
structure MessageEnv (τ β : Type) where
  keyCodec : JsonValue (InjectedValue τ) → Except String β
  headerCodec : JsonValue (InjectedValue τ) → Except String β
  valueCodec : JsonValue (InjectedValue τ) → Except String β
  Hash : β → UInt32
  GoTime : Timestamp → Except String τ
  decimalString : MyDecimal → Bytes
  IsZero : τ → Bool
  Now : τ
  headerIter : List (String × JsonValue (InjectedValue τ)) → List (String × JsonValue (InjectedValue τ))

/-- The variables of `createKafkaMessage` across its loop over the columns: the
timestamp injected, if any, the key, the header map (`null` while nil) and the
value map. -/
structure MessageParts (τ : Type) where
  timestamp : Option τ
  key : JsonValue (InjectedValue τ)
  header : JsonValue (InjectedValue τ)
  value : JsonValue (InjectedValue τ)

abbrev RowsMap := AList fun _ : Bytes => Option Row

abbrev PutsMap := AList fun _ : Bytes => Bytes

/-- `toSendBatch`, without its creation time. -/
structure toSendBatch where
  rowsToSend : RowsMap
  sent : Bool

/-- `Sink`: its info and the batches waiting to be sent, by shard. -/
structure Sink where
  Info : SinkInfo
  toSend : AList fun _ : UInt64 => toSendBatch

/-- What one call of `sendMessageBatch` hands on: the messages for the producer
and, for a persistent send, the write batch of deletes for the cluster. -/
structure MessageBatch (μ : Type) where
  messages : List μ
  deletes : Option WriteBatch

section Message

variable {τ β : Type} (env : MessageEnv τ β)

/-- The `switch colType.Type` on a cell that is not null. A datum of another
type than its column's, which no row of the sink's columns holds, falls to the
`default` panic. -/
def cellValue : ColumnType → Datum → Except SinkError (InjectedValue τ)
  | .tinyInt, .int64 v | .int, .int64 v | .bigInt, .int64 v => pure (.int64 v)
  | .double, .float64 bits => pure (.float64 bits)
  | .varchar, .string str => pure (.string str)
  | .decimal _ _, .decimal dec => pure (.string (env.decimalString dec))
  | .timestamp _, .timestamp ts =>
    match env.GoTime ts with
    | .ok gt => pure (.time gt)
    | .error err => throw (.error err)
  | _, _ => throw (.panic "unknown type")

/-- Where the injector of a column puts its value: the timestamp, the key, a
header, or the value when it has no meta key. -/
def injectValue (injector : ColumnSelector) (val : InjectedValue τ) (parts : MessageParts τ) :
    Except SinkError (MessageParts τ) :=
  match injector.MetaKey with
  | some "timestamp" =>
    match val with
    | .time ts => pure { parts with timestamp := some ts }
    | _ => throw (.error "meta timestamp injector must inject a value of type timestamp")
  | some "key" =>
    if injector.Selector.length = 0 then pure { parts with key := .scalar val }
    else do
      let key : JsonValue (InjectedValue τ) := match parts.key with
        | .null => .map []
        | key => key
      let key ← (injector.Selector.Inject key (.scalar val)).mapError .selector
      pure { parts with key := key }
  | some "header" => do
    let header : JsonValue (InjectedValue τ) := match parts.header with
      | .null => .map []
      | header => header
    let header ← (injector.Selector.Inject header (.scalar val)).mapError .selector
    pure { parts with header := header }
  | some _ => pure parts
  | none => do
    let value ← (injector.Selector.Inject parts.value (.scalar val)).mapError .selector
    pure { parts with value := value }

def messageLoop (injectors : List ColumnSelector) (row : Row) :
    Nat → List ColumnType → MessageParts τ → Except SinkError (MessageParts τ)
  | _, [], parts => pure parts
  | i, colType :: colTypes, parts =>
    match row[i]? with
    | none => throw (.panic "index out of range")
    | some none => messageLoop injectors row (i + 1) colTypes parts
    | some (some d) => do
      let injector ← match injectors[i]? with
        | some injector => pure injector
        | none => throw (.panic "index out of range")
      let val ← cellValue env colType d
      let parts ← injectValue injector val parts
      messageLoop injectors row (i + 1) colTypes parts

def encodeHeaders (header : JsonValue (InjectedValue τ)) : Except SinkError (List (String × β)) :=
  match header with
  | .map entries => (env.headerIter entries).mapM fun kv =>
    match env.headerCodec kv.2 with
    | .ok encoded => pure (kv.1, encoded)
    | .error err => throw (.error err)
  | _ => pure []

/-! ## What the value of a message holds -/

def cellValues (colTypes : List ColumnType) (row : Row) : Except SinkError (List (Option (InjectedValue τ))) :=
  (colTypes.zip row).mapM fun c =>
    match c.2 with
    | some d => (cellValue env c.1 d).map some
    | none => pure none

/-- The writes of the cells into the value: each cell that is not null, at its
injector's selector. -/
def valueInjections (injectors : List ColumnSelector) (vals : List (Option (InjectedValue τ))) :
    List (SelectorInjector × JsonValue (InjectedValue τ)) :=
  (injectors.zip vals).filterMap fun p => p.2.map fun v => (p.1.Selector, .scalar v)

theorem exists_drop_eq_cons {α : Type} {l : List α} {i n : Nat} (h : n + 1 ≤ (l.drop i).length) :
    ∃ a, l[i]? = some a ∧ l.drop i = a :: l.drop (i + 1) := by
  have hi : i < l.length := by
    rw [List.length_drop] at h
    omega
  exact ⟨l[i], List.getElem?_eq_getElem hi, List.drop_eq_getElem_cons hi⟩

theorem cellValues_cons_eq_ok {colType : ColumnType} {colTypes : List ColumnType} {cell : Option Datum}
    {row : Row} {vals : List (Option (InjectedValue τ))}
    (h : cellValues env (colType :: colTypes) (cell :: row) = .ok vals) :
    ∃ val vals', (match cell with
        | some d => (cellValue env colType d).map some
        | none => pure none) = .ok val ∧ cellValues env colTypes row = .ok vals' ∧ vals = val :: vals' := by
  rw [cellValues, List.zip_cons_cons, List.mapM_cons] at h
  cases hHead : (match cell with
      | some d => (cellValue env colType d).map some
      | none => (pure none : Except SinkError (Option (InjectedValue τ)))) with
  | error err =>
    rw [hHead] at h
    cases h
  | ok val =>
    rw [hHead] at h
    cases hRest : cellValues env colTypes row with
    | error err =>
      rw [cellValues] at hRest
      rw [hRest] at h
      cases h
    | ok vals' =>
      rw [cellValues] at hRest
      rw [hRest] at h
      exact ⟨val, vals', rfl, rfl, (Except.ok.inj h).symm⟩

theorem injectValue_of_metaKey_none {injector : ColumnSelector} (h : injector.MetaKey = none)
    (val : InjectedValue τ) (parts : MessageParts τ) :
    injectValue injector val parts =
      ((injector.Selector.Inject parts.value (.scalar val)).mapError .selector).map
        fun value => { parts with value := value } := by
  simp only [injectValue, h]
  cases injector.Selector.Inject parts.value (.scalar val) <;> rfl

theorem messageLoop_eq {injectors : List ColumnSelector} {row : Row}
    (hMeta : ∀ inj ∈ injectors, inj.MetaKey = none) :
    ∀ (colTypes : List ColumnType) (i : Nat) (parts : MessageParts τ) (vals : List (Option (InjectedValue τ))),
      cellValues env colTypes (row.drop i) = .ok vals → colTypes.length ≤ (row.drop i).length →
        colTypes.length ≤ (injectors.drop i).length →
        messageLoop env injectors row i colTypes parts =
          ((injectAll parts.value (valueInjections (injectors.drop i) vals)).mapError .selector).map
            fun value => { parts with value := value }
  | [], i, parts, vals, hCells, _, _ => by
    obtain rfl : vals = [] := (Except.ok.inj hCells).symm
    simp [messageLoop, valueInjections, injectAll, Except.mapError, Except.map]
  | colType :: colTypes, i, parts, vals, hCells, hRow, hInjectors => by
    obtain ⟨cell, hCell, hDrop⟩ := exists_drop_eq_cons hRow
    obtain ⟨injector, hInjector, hInjDrop⟩ := exists_drop_eq_cons hInjectors
    rw [hDrop] at hCells hRow
    rw [hInjDrop] at hInjectors
    rw [hInjDrop]
    have hRow' : colTypes.length ≤ (row.drop (i + 1)).length := by
      simp only [List.length_cons] at hRow
      omega
    have hInjectors' : colTypes.length ≤ (injectors.drop (i + 1)).length := by
      simp only [List.length_cons] at hInjectors
      omega
    obtain ⟨val, vals', hVal, hCells', rfl⟩ := cellValues_cons_eq_ok env hCells
    cases cell with
    | none =>
      obtain rfl : val = none := (Except.ok.inj hVal).symm
      rw [messageLoop, hCell]
      exact messageLoop_eq hMeta colTypes (i + 1) parts vals' hCells' hRow' hInjectors'
    | some d =>
      obtain ⟨v, hV, rfl⟩ := ExceptRun.map_eq_ok.mp hVal
      have hInject := injectValue_of_metaKey_none (hMeta injector (List.mem_of_getElem? hInjector)) v parts
      simp only [messageLoop, hCell, hInjector, hV, pure_bind, ExceptRun.ok_bind, hInject]
      cases hObj : injector.Selector.Inject parts.value (.scalar v) with
      | error err =>
        simp only [valueInjections, List.zip_cons_cons, List.filterMap_cons, Option.map_some, injectAll, hObj]
        rfl
      | ok obj =>
        have hNext := messageLoop_eq hMeta colTypes (i + 1) { parts with value := obj } vals' hCells' hRow' hInjectors'
        have hFirst : valueInjections (injector :: injectors.drop (i + 1)) (some v :: vals') =
            (injector.Selector, .scalar v) :: valueInjections (injectors.drop (i + 1)) vals' := rfl
        rw [hFirst, injectAll_cons_of_ok hObj]
        exact hNext

end Message

/-- The injectors of a sink on the columns `(id, v)`: each cell into the field
of its column's name in the value. -/
def idValueInjectors : List ColumnSelector := [⟨none, [.field "id"]⟩, ⟨none, [.field "v"]⟩]

/-- An environment whose codecs keep the JSON value they encode, with one
partition, no clock and no decimal. -/
def jsonEnv : MessageEnv Unit (JsonValue (InjectedValue Unit)) :=
  ⟨.ok, .ok, .ok, fun _ => 0, fun _ => .ok (), fun _ => [], fun _ => true, (), id⟩

namespace Sink

variable {τ β : Type}

def keyOf (s : Sink) (shardID : UInt64) (row : Row) : Except SinkError Bytes :=
  match EncodeKeyCols row s.Info.PrimaryKeyCols s.Info.ColumnTypes (EncodeTableKeyPrefix s.Info.ID shardID) with
  | some keyBuff => pure keyBuff
  | none => throw (.error "cannot encode key")


/-- `createKafkaMessage`. The loop over the columns starts with the row's null
flag: on the nil row of a delete that is Go's nil dereference, unless there is
no column. -/
def createKafkaMessage (env : MessageEnv τ β) (s : Sink) (row : Option Row) : Except SinkError (KafkaMessage τ β) := do
  let parts ← match row with
    | some row => messageLoop env s.Info.Injectors row 0 s.Info.ColumnTypes ⟨none, .null, .null, .map []⟩
    | none =>
      if s.Info.ColumnTypes.isEmpty then pure ⟨none, .null, .null, .map []⟩
      else throw (.panic "nil pointer dereference")
  let encodedKey ← (env.keyCodec parts.key).mapError .error
  let numPartitions := UInt32.ofInt s.Info.NumPartitions
  if numPartitions = 0 then throw (.panic "integer divide by zero")
  else do
    let part := env.Hash encodedKey % numPartitions
    let kheaders ← encodeHeaders env parts.header
    let timestamp := match parts.timestamp with
      | some ts => if env.IsZero ts then env.Now else ts
      | none => env.Now
    let encodedBody ← (env.valueCodec parts.value).mapError .error
    pure ⟨part.toInt32, encodedBody, encodedKey, timestamp, kheaders⟩

/-- The delete of a sent key in a persistent send, unless `ignoreDeletes`
holds the key. -/
def deleteSent (persistent : Bool) (ignoreDeletes : Option PutsMap) (wb : WriteBatch) (key : Bytes) :
    WriteBatch :=
  if persistent then
    match ignoreDeletes with
    | some ignore => if (ignore.lookup key).isSome then wb else wb.AddDelete key
    | none => wb.AddDelete key
  else wb

def sendEntry (s : Sink) (env : MessageEnv τ β) (persistent : Bool)
    (ignoreDeletes : Option PutsMap) (acc : List (KafkaMessage τ β) × WriteBatch) (kv : Σ _ : Bytes, Option Row) :
    Except SinkError (List (KafkaMessage τ β) × WriteBatch) := do
  let kmsg ← s.createKafkaMessage env kv.2
  pure (acc.1 ++ [kmsg], deleteSent persistent ignoreDeletes acc.2 kv.1)

/-- `sendMessageBatch`, over the map in the order `iter`. -/
def sendMessageBatch (s : Sink) (env : MessageEnv τ β)
    (iter : List (Σ _ : Bytes, Option Row) → List (Σ _ : Bytes, Option Row)) (shardID : UInt64) (rows : RowsMap)
    (persistent : Bool) (ignoreDeletes : Option PutsMap) : Except SinkError (MessageBatch (KafkaMessage τ β)) := do
  let (kmsgs, wb) ← (iter rows.entries).foldlM (s.sendEntry env persistent ignoreDeletes)
    ([], NewWriteBatch shardID)
  pure ⟨kmsgs, if persistent then some wb else none⟩

/-- The loop of `HandleRows` at one change: the row to send under its key, and
with `EmitAfter` the value to store. A delete is keyed by its previous row. -/
def handleEntry (s : Sink) (shardID : UInt64) (rowsBatch : RowsBatch) (acc : RowsMap × PutsMap)
    (entry : RowsEntry) : Except SinkError (RowsMap × PutsMap) := do
  let prevRow ← (rowsBatch.PreviousRow entry).mapError .panic
  let currentRow ← (rowsBatch.CurrentRow entry).mapError .panic
  match currentRow with
  | some currentRow =>
    let keyBuff ← s.keyOf shardID currentRow
    let toPut ←
      if s.Info.EmitAfter > 0 then
        match EncodeRow currentRow s.Info.ColumnTypes [] with
        | some valueBuff => pure (acc.2.insert keyBuff valueBuff)
        | none => throw (.error "cannot encode row")
      else pure acc.2
    pure (acc.1.insert keyBuff (some currentRow), toPut)
  | none =>
    let keyBuff ← match prevRow with
      | some prevRow => s.keyOf shardID prevRow
      | none => throw (.panic "nil pointer dereference")
    -- a tombstone: the nil value
    let toPut := if s.Info.EmitAfter > 0 then acc.2.insert keyBuff [] else acc.2
    pure (acc.1.insert keyBuff none, toPut)

/-- `Sink.HandleRows`: the sink after the batch, the context with the values it
stores, and the sends it made. -/
def HandleRows (s : Sink) (env : MessageEnv τ β)
    (iter : List (Σ _ : Bytes, Option Row) → List (Σ _ : Bytes, Option Row)) (rowsBatch : RowsBatch)
    (ctx : ExecutionContext) : Except SinkError (Sink × ExecutionContext × List (MessageBatch (KafkaMessage τ β))) := do
  let shardID := ctx.WriteBatch.ShardID
  let rowsToSend : RowsMap :=
    if s.Info.EmitAfter = 0 then ∅ else ((s.toSend.lookup shardID).map (·.rowsToSend)).getD ∅
  let (rowsToSend, toPut) ← rowsBatch.entries.foldlM (s.handleEntry shardID rowsBatch) (rowsToSend, ∅)
  if s.Info.EmitAfter = 0 then
    let sent ← s.sendMessageBatch env iter shardID rowsToSend false none
    pure (s, ctx, [sent])
  else if rowsToSend.entries.length ≥ s.Info.MaxBufferedMessages then
    -- the values of this batch are not stored, so their keys are not deleted
    let sent ← s.sendMessageBatch env iter shardID rowsToSend true (some toPut)
    pure ({ s with toSend := s.toSend.erase shardID }, ctx, [sent])
  else
    pure ({ s with toSend := s.toSend.insert shardID ⟨rowsToSend, false⟩ },
      { ctx with WriteBatch := toPut.entries.foldl (fun wb kv => wb.AddPut kv.1 kv.2) ctx.WriteBatch }, [])

/-- The action `checkBatchTimeouts` runs on the scheduler of a shard whose
batch is due. -/
def sendDueBatch (s : Sink) (env : MessageEnv τ β)
    (iter : List (Σ _ : Bytes, Option Row) → List (Σ _ : Bytes, Option Row)) (shardID : UInt64) :
    Except SinkError (Sink × List (MessageBatch (KafkaMessage τ β))) :=
  match s.toSend.lookup shardID with
  | none => pure (s, [])
  | some tsb =>
    if tsb.sent then pure (s, [])
    else do
      let sent ← s.sendMessageBatch env iter shardID tsb.rowsToSend true none
      pure ({ s with toSend := s.toSend.erase shardID }, [sent])

def decodeStored (s : Sink) (rowsMap : RowsMap) (kv : Bytes × Bytes) : Except SinkError RowsMap :=
  match DecodeRow kv.2 s.Info.ColumnTypes [] with
  | some row => pure (rowsMap.insert kv.1 (some row))
  | none => throw (.panic "index out of range")

/-- `loadPersistentState` on `kvp`, the rows of the sink table on the shard. -/
def loadPersistentState (s : Sink) (env : MessageEnv τ β)
    (iter : List (Σ _ : Bytes, Option Row) → List (Σ _ : Bytes, Option Row)) (shardID : UInt64)
    (kvp : List (Bytes × Bytes)) : Except SinkError (MessageBatch (KafkaMessage τ β)) := do
  let rowsMap ← kvp.foldlM s.decodeStored ∅
  s.sendMessageBatch env iter shardID rowsMap true none

/-! ## Sending -/

theorem createKafkaMessage_none {s : Sink} (env : MessageEnv τ β) (h : s.Info.ColumnTypes ≠ []) :
    s.createKafkaMessage env none = .error (.panic "nil pointer dereference") := by
  have hEmpty : s.Info.ColumnTypes.isEmpty = false := List.isEmpty_eq_false_iff.mpr h
  simp only [createKafkaMessage, hEmpty, Bool.false_eq_true, ↓reduceIte]
  rfl

theorem pairwise_zip_fst {α γ : Type} {R : α → α → Prop} :
    ∀ {l₁ : List α} {l₂ : List γ}, l₁.Pairwise R → (l₁.zip l₂).Pairwise fun a b => R a.1 b.1
  | [], _, _ => List.Pairwise.nil
  | _ :: _, [], _ => List.Pairwise.nil
  | a :: l₁, b :: l₂, h => by
    obtain ⟨hHead, hTail⟩ := List.pairwise_cons.mp h
    rw [List.zip_cons_cons, List.pairwise_cons]
    exact ⟨fun p hp => hHead p.1 (List.of_mem_zip hp).1, pairwise_zip_fst hTail⟩

theorem mem_valueInjections {injectors : List ColumnSelector} {vals : List (Option (InjectedValue τ))}
    {inj : SelectorInjector × JsonValue (InjectedValue τ)} (h : inj ∈ valueInjections injectors vals) :
    ∃ injector ∈ injectors, inj.1 = injector.Selector := by
  obtain ⟨p, hp, hInj⟩ := List.mem_filterMap.mp h
  obtain ⟨v, -, rfl⟩ := Option.map_eq_some_iff.mp hInj
  exact ⟨p.1, (List.of_mem_zip hp).1, rfl⟩

/-- A row whose cells each have their column's type, sent by a sink whose
injectors all write into the value, at paths that start with a field and part
pairwise: the message has the key of `nil`, no header and the time of the
call, and its value holds each cell that is not null at its injector's
selector. -/
theorem createKafkaMessage_selects {env : MessageEnv τ β} {s : Sink} {row : Row}
    {vals : List (Option (InjectedValue τ))} {key : β}
    (hCells : cellValues env s.Info.ColumnTypes row = .ok vals)
    (hRow : s.Info.ColumnTypes.length ≤ row.length)
    (hInjectors : s.Info.ColumnTypes.length ≤ s.Info.Injectors.length)
    (hMeta : ∀ inj ∈ s.Info.Injectors, inj.MetaKey = none)
    (hPaths : ∀ inj ∈ s.Info.Injectors, ∃ field tokens, inj.Selector = .field field :: tokens ∧ Fresh tokens)
    (hParts : s.Info.Injectors.Pairwise fun a b => Parts a.Selector b.Selector)
    (hKey : env.keyCodec .null = .ok key) (hNum : UInt32.ofInt s.Info.NumPartitions ≠ 0) :
    ∃ value, (∀ inj ∈ valueInjections s.Info.Injectors vals, inj.1.Select value = .ok inj.2) ∧
      s.createKafkaMessage env (some row) =
        ((env.valueCodec value).mapError .error).map fun body =>
          ⟨(env.Hash key % UInt32.ofInt s.Info.NumPartitions).toInt32, body, key, env.Now, []⟩ := by
  have hPaths' : ∀ inj ∈ valueInjections s.Info.Injectors vals,
      ∃ field tokens, inj.1 = .field field :: tokens ∧ Fresh tokens := by
    intro inj hInj
    obtain ⟨injector, hMem, hSel⟩ := mem_valueInjections hInj
    rw [hSel]
    exact hPaths injector hMem
  have hParts' : (valueInjections s.Info.Injectors vals).Pairwise fun a b => Parts a.1 b.1 := by
    refine (pairwise_zip_fst hParts).filterMap _ ?_
    intro a a' hR b hb b' hb'
    obtain ⟨v, -, rfl⟩ := Option.map_eq_some_iff.mp hb
    obtain ⟨v', -, rfl⟩ := Option.map_eq_some_iff.mp hb'
    exact hR
  obtain ⟨value, hRun, hSelect⟩ := injectAll_select hPaths' hParts'
  refine ⟨value, hSelect, ?_⟩
  -- the loop leaves the key and the header nil and no timestamp
  have hLoop : messageLoop env s.Info.Injectors row 0 s.Info.ColumnTypes ⟨none, .null, .null, .map []⟩ =
      .ok ⟨none, .null, .null, value⟩ := by
    rw [messageLoop_eq env hMeta s.Info.ColumnTypes 0 _ vals hCells hRow hInjectors, List.drop_zero, hRun]
    rfl
  simp only [createKafkaMessage, hLoop, ExceptRun.ok_bind, hKey, if_neg hNum]
  cases env.valueCodec value <;> rfl

theorem createKafkaMessage_selects_id_value :
    ∃ value, (∀ inj ∈ valueInjections idValueInjectors [some (.int64 1), some (.int64 10)],
        inj.1.Select value = .ok inj.2) ∧
      (⟨⟨500, [0], [.bigInt, .bigInt], 0, 10, idValueInjectors, 1⟩, ∅⟩ : Sink).createKafkaMessage jsonEnv
          (some [some (.int64 1), some (.int64 10)]) =
        ((jsonEnv.valueCodec value).mapError .error).map fun body =>
          ⟨(jsonEnv.Hash .null % UInt32.ofInt 1).toInt32, body, .null, jsonEnv.Now, []⟩ := by
  have hPaths : ∀ inj ∈ idValueInjectors, ∃ field tokens, inj.Selector = .field field :: tokens ∧ Fresh tokens := by
    intro inj hInj
    rcases List.mem_pair.mp hInj with rfl | rfl
    · exact ⟨"id", [], rfl, trivial⟩
    · exact ⟨"v", [], rfl, trivial⟩
  exact @createKafkaMessage_selects Unit _ jsonEnv ⟨⟨500, [0], [.bigInt, .bigInt], 0, 10, idValueInjectors, 1⟩, ∅⟩
    [some (.int64 1), some (.int64 10)] [some (.int64 1), some (.int64 10)] .null rfl (by decide) (by decide)
    (by decide) hPaths (List.pairwise_pair.mpr (Parts.field [] [] (by decide))) rfl (by decide)

theorem foldlM_sendEntry (s : Sink) (env : MessageEnv τ β) (persistent : Bool)
    (ignoreDeletes : Option PutsMap) :
    ∀ (l : List (Σ _ : Bytes, Option Row)) (acc : List (KafkaMessage τ β) × WriteBatch),
      l.foldlM (s.sendEntry env persistent ignoreDeletes) acc =
        (l.mapM fun kv => s.createKafkaMessage env kv.2).map fun kmsgs =>
          (acc.1 ++ kmsgs, l.foldl (fun wb kv => deleteSent persistent ignoreDeletes wb kv.1) acc.2)
  | [], acc => by simp [Except.map, pure, Except.pure]
  | kv :: l, acc => by
    rw [List.foldlM_cons, List.mapM_cons, List.foldl_cons]
    cases hMsg : s.createKafkaMessage env kv.2 with
    | error e =>
      have hStep : s.sendEntry env persistent ignoreDeletes acc kv = .error e := by
        rw [sendEntry, hMsg]
        rfl
      rw [hStep]
      rfl
    | ok kmsg =>
      have hStep : s.sendEntry env persistent ignoreDeletes acc kv =
          .ok (acc.1 ++ [kmsg], deleteSent persistent ignoreDeletes acc.2 kv.1) := by
        rw [sendEntry, hMsg]
        rfl
      rw [hStep, ExceptRun.ok_bind, ExceptRun.ok_bind, foldlM_sendEntry s env persistent ignoreDeletes l]
      cases l.mapM fun kv => s.createKafkaMessage env kv.2 with
      | error e => rfl
      | ok kmsgs => simp [Except.map, pure, Except.pure]

theorem sendMessageBatch_eq (s : Sink) (env : MessageEnv τ β)
    (iter : List (Σ _ : Bytes, Option Row) → List (Σ _ : Bytes, Option Row)) (shardID : UInt64) (rows : RowsMap)
    (persistent : Bool) (ignoreDeletes : Option PutsMap) :
    s.sendMessageBatch env iter shardID rows persistent ignoreDeletes =
      ((iter rows.entries).mapM fun kv => s.createKafkaMessage env kv.2).map fun kmsgs =>
        ⟨kmsgs, if persistent then
          some ((iter rows.entries).foldl (fun wb kv => deleteSent persistent ignoreDeletes wb kv.1)
            (NewWriteBatch shardID))
          else none⟩ := by
  rw [sendMessageBatch, foldlM_sendEntry]
  cases (iter rows.entries).mapM fun kv => s.createKafkaMessage env kv.2 <;> rfl

theorem mapM_createKafkaMessage_of_delete {s : Sink} {env : MessageEnv τ β}
    (hCols : s.Info.ColumnTypes ≠ []) :
    ∀ {l : List (Σ _ : Bytes, Option Row)},
      (∀ kv ∈ l, ∀ row, kv.2 = some row → ∃ kmsg, s.createKafkaMessage env (some row) = .ok kmsg) →
      (∃ kv ∈ l, kv.2 = none) →
      (l.mapM fun kv => s.createKafkaMessage env kv.2) = .error (.panic "nil pointer dereference")
  | [], _, ⟨_, hkv, _⟩ => absurd hkv List.not_mem_nil
  | kv :: l, hMsg, ⟨kv', hkv', hNone⟩ => by
    rw [List.mapM_cons]
    cases hRow : kv.2 with
    | none => rw [createKafkaMessage_none env hCols]; rfl
    | some row =>
      obtain ⟨kmsg, hHead⟩ := hMsg kv List.mem_cons_self row hRow
      have hRest : ∃ kv ∈ l, kv.2 = none := by
        rcases List.mem_cons.mp hkv' with rfl | hkv'
        · rw [hRow] at hNone
          cases hNone
        · exact ⟨kv', hkv', hNone⟩
      rw [hHead, ExceptRun.ok_bind,
        mapM_createKafkaMessage_of_delete hCols (fun kv hkv => hMsg kv (List.mem_cons_of_mem _ hkv)) hRest]
      rfl

theorem foldl_deleteSent_filter (toPut : PutsMap) :
    ∀ (l : List (Σ _ : Bytes, Option Row)) (wb : WriteBatch),
      l.foldl (fun wb kv => deleteSent true (some toPut) wb kv.1) wb =
        (l.filter fun kv => (toPut.lookup kv.1).isNone).foldl (fun wb kv => wb.AddDelete kv.1) wb
  | [], _ => rfl
  | kv :: l, wb => by
    rw [List.foldl_cons, deleteSent, if_pos rfl, List.filter_cons]
    cases hPut : toPut.lookup kv.1 with
    | none => exact foldl_deleteSent_filter toPut l _
    | some v => exact foldl_deleteSent_filter toPut l _

/-! ## `HandleRows` -/

theorem HandleRows_of_emitAfter_zero {s : Sink} {env : MessageEnv τ β}
    {iter : List (Σ _ : Bytes, Option Row) → List (Σ _ : Bytes, Option Row)} {rowsBatch : RowsBatch}
    {ctx : ExecutionContext} {rowsToSend : RowsMap} {toPut : PutsMap} (hEmit : s.Info.EmitAfter = 0)
    (hLoop : rowsBatch.entries.foldlM (s.handleEntry ctx.WriteBatch.ShardID rowsBatch)
      ((∅ : RowsMap), (∅ : PutsMap)) = .ok (rowsToSend, toPut)) :
    s.HandleRows env iter rowsBatch ctx =
      (s.sendMessageBatch env iter ctx.WriteBatch.ShardID rowsToSend false none).map
        fun sent => (s, ctx, [sent]) := by
  simp only [HandleRows, hEmit, ↓reduceIte, hLoop, ExceptRun.ok_bind]
  cases s.sendMessageBatch env iter ctx.WriteBatch.ShardID rowsToSend false none <;> rfl

theorem HandleRows_of_full {s : Sink} {env : MessageEnv τ β}
    {iter : List (Σ _ : Bytes, Option Row) → List (Σ _ : Bytes, Option Row)} {rowsBatch : RowsBatch}
    {ctx : ExecutionContext} {rowsToSend : RowsMap} {toPut : PutsMap} (hEmit : s.Info.EmitAfter ≠ 0)
    (hLoop : rowsBatch.entries.foldlM (s.handleEntry ctx.WriteBatch.ShardID rowsBatch)
      ((((s.toSend.lookup ctx.WriteBatch.ShardID).map (·.rowsToSend)).getD ∅), (∅ : PutsMap)) =
        .ok (rowsToSend, toPut))
    (hFull : s.Info.MaxBufferedMessages ≤ rowsToSend.entries.length) :
    s.HandleRows env iter rowsBatch ctx =
      (s.sendMessageBatch env iter ctx.WriteBatch.ShardID rowsToSend true (some toPut)).map
        fun sent => ({ s with toSend := s.toSend.erase ctx.WriteBatch.ShardID }, ctx, [sent]) := by
  simp only [HandleRows, hEmit, ↓reduceIte, hLoop, ExceptRun.ok_bind, ge_iff_le, hFull]
  cases s.sendMessageBatch env iter ctx.WriteBatch.ShardID rowsToSend true (some toPut) <;> rfl

theorem HandleRows_of_delete {s : Sink} {env : MessageEnv τ β}
    {iter : List (Σ _ : Bytes, Option Row) → List (Σ _ : Bytes, Option Row)} (hIter : ∀ l, (iter l).Perm l)
    {rowsBatch : RowsBatch} {ctx : ExecutionContext} {rowsToSend : RowsMap} {toPut : PutsMap} {k : Bytes}
    (hCols : s.Info.ColumnTypes ≠ []) (hEmit : s.Info.EmitAfter = 0)
    (hMsg : ∀ kv ∈ rowsToSend.entries, ∀ row, kv.2 = some row →
      ∃ kmsg, s.createKafkaMessage env (some row) = .ok kmsg)
    (hLoop : rowsBatch.entries.foldlM (s.handleEntry ctx.WriteBatch.ShardID rowsBatch)
      ((∅ : RowsMap), (∅ : PutsMap)) = .ok (rowsToSend, toPut))
    (hDelete : rowsToSend.lookup k = some none) :
    s.HandleRows env iter rowsBatch ctx = .error (.panic "nil pointer dereference") := by
  have hMem : (⟨k, none⟩ : Σ _ : Bytes, Option Row) ∈ iter rowsToSend.entries :=
    (hIter _).mem_iff.mpr (AList.mem_lookup_iff.mp hDelete)
  rw [HandleRows_of_emitAfter_zero hEmit hLoop, sendMessageBatch_eq,
    mapM_createKafkaMessage_of_delete hCols (fun kv hkv => hMsg kv ((hIter _).subset hkv)) ⟨_, hMem, rfl⟩]
  rfl

theorem HandleRows_full_deletes {s : Sink} {env : MessageEnv τ β}
    {iter : List (Σ _ : Bytes, Option Row) → List (Σ _ : Bytes, Option Row)} {rowsBatch : RowsBatch}
    {ctx : ExecutionContext} {rowsToSend : RowsMap} {toPut : PutsMap}
    {r : Sink × ExecutionContext × List (MessageBatch (KafkaMessage τ β))} (hEmit : s.Info.EmitAfter ≠ 0)
    (hLoop : rowsBatch.entries.foldlM (s.handleEntry ctx.WriteBatch.ShardID rowsBatch)
      ((((s.toSend.lookup ctx.WriteBatch.ShardID).map (·.rowsToSend)).getD ∅), (∅ : PutsMap)) =
        .ok (rowsToSend, toPut))
    (hFull : s.Info.MaxBufferedMessages ≤ rowsToSend.entries.length)
    (h : s.HandleRows env iter rowsBatch ctx = .ok r) :
    ∃ sent, r.2.2 = [sent] ∧ sent.deletes = some (((iter rowsToSend.entries).filter fun kv =>
      (toPut.lookup kv.1).isNone).foldl (fun wb kv => wb.AddDelete kv.1) (NewWriteBatch ctx.WriteBatch.ShardID)) := by
  rw [HandleRows_of_full hEmit hLoop hFull, sendMessageBatch_eq] at h
  cases hMsgs : (iter rowsToSend.entries).mapM fun kv => s.createKafkaMessage env kv.2 with
  | error e =>
    rw [hMsgs] at h
    cases h
  | ok kmsgs =>
    rw [hMsgs] at h
    cases h
    exact ⟨_, rfl, by rw [if_pos rfl, foldl_deleteSent_filter]⟩

/-! ## Restart -/

theorem DecodeRow_nil {colTypes : List ColumnType} (h : colTypes ≠ []) : DecodeRow [] colTypes [] = none := by
  cases colTypes with
  | nil => exact absurd rfl h
  | cons colType colTypes => rfl

theorem foldlM_decodeStored_of_tombstone {s : Sink} (hCols : s.Info.ColumnTypes ≠ []) :
    ∀ {kvp : List (Bytes × Bytes)} (rowsMap : RowsMap), (∃ kv ∈ kvp, kv.2 = []) →
      kvp.foldlM s.decodeStored rowsMap = .error (.panic "index out of range")
  | [], _, ⟨_, hkv, _⟩ => absurd hkv List.not_mem_nil
  | kv :: kvp, rowsMap, ⟨kv', hkv', hEmpty⟩ => by
    rw [List.foldlM_cons]
    cases hRow : DecodeRow kv.2 s.Info.ColumnTypes [] with
    | none =>
      have hStep : s.decodeStored rowsMap kv = .error (.panic "index out of range") := by
        rw [decodeStored, hRow]
        rfl
      rw [hStep]
      rfl
    | some row =>
      have hStep : s.decodeStored rowsMap kv = .ok (rowsMap.insert kv.1 (some row)) := by
        rw [decodeStored, hRow]
        rfl
      have hRest : ∃ kv ∈ kvp, kv.2 = [] := by
        rcases List.mem_cons.mp hkv' with rfl | hkv'
        · rw [hEmpty, DecodeRow_nil hCols] at hRow
          cases hRow
        · exact ⟨kv', hkv', hEmpty⟩
      rw [hStep, ExceptRun.ok_bind]
      exact foldlM_decodeStored_of_tombstone hCols _ hRest

theorem loadPersistentState_of_tombstone {s : Sink} (env : MessageEnv τ β)
    (iter : List (Σ _ : Bytes, Option Row) → List (Σ _ : Bytes, Option Row)) (shardID : UInt64)
    {kvp : List (Bytes × Bytes)} (hCols : s.Info.ColumnTypes ≠ []) (hTomb : ∃ kv ∈ kvp, kv.2 = []) :
    s.loadPersistentState env iter shardID kvp = .error (.panic "index out of range") := by
  rw [loadPersistentState, foldlM_decodeStored_of_tombstone hCols ∅ hTomb]
  rfl

end Sink

theorem HandleRows_delete_panics :
    (∀ (τ β : Type) (s : Sink) (env : MessageEnv τ β)
        (iter : List (Σ _ : Bytes, Option Row) → List (Σ _ : Bytes, Option Row)) (rowsBatch : RowsBatch)
        (ctx : ExecutionContext) (rowsToSend : RowsMap) (toPut : PutsMap) (k : Bytes),
      (∀ l, (iter l).Perm l) → s.Info.ColumnTypes ≠ [] → s.Info.EmitAfter = 0 →
        (∀ kv ∈ rowsToSend.entries, ∀ row, kv.2 = some row →
          ∃ kmsg, s.createKafkaMessage env (some row) = .ok kmsg) →
        rowsBatch.entries.foldlM (s.handleEntry ctx.WriteBatch.ShardID rowsBatch)
          ((∅ : RowsMap), (∅ : PutsMap)) = .ok (rowsToSend, toPut) →
        rowsToSend.lookup k = some none →
          s.HandleRows env iter rowsBatch ctx = .error (.panic "nil pointer dereference")) ∧
    (∀ (τ β : Type) (s : Sink) (env : MessageEnv τ β)
        (iter : List (Σ _ : Bytes, Option Row) → List (Σ _ : Bytes, Option Row)) (shardID : UInt64)
        (kvp : List (Bytes × Bytes)),
      s.Info.ColumnTypes ≠ [] → (∃ kv ∈ kvp, kv.2 = []) →
        s.loadPersistentState env iter shardID kvp = .error (.panic "index out of range")) ∧
    (∀ (τ β : Type) (s : Sink) (env : MessageEnv τ β)
        (iter : List (Σ _ : Bytes, Option Row) → List (Σ _ : Bytes, Option Row)) (rowsBatch : RowsBatch)
        (ctx : ExecutionContext) (rowsToSend : RowsMap) (toPut : PutsMap)
        (r : Sink × ExecutionContext × List (MessageBatch (KafkaMessage τ β))),
      s.Info.EmitAfter ≠ 0 →
        rowsBatch.entries.foldlM (s.handleEntry ctx.WriteBatch.ShardID rowsBatch)
          ((((s.toSend.lookup ctx.WriteBatch.ShardID).map (·.rowsToSend)).getD ∅), (∅ : PutsMap)) =
            .ok (rowsToSend, toPut) →
        s.Info.MaxBufferedMessages ≤ rowsToSend.entries.length →
        s.HandleRows env iter rowsBatch ctx = .ok r →
          ∃ sent, r.2.2 = [sent] ∧ sent.deletes = some (((iter rowsToSend.entries).filter fun kv =>
            (toPut.lookup kv.1).isNone).foldl (fun wb kv => wb.AddDelete kv.1)
              (NewWriteBatch ctx.WriteBatch.ShardID))) ∧
    (∀ (τ β : Type) (env : MessageEnv τ β) (iter : List (Σ _ : Bytes, Option Row) → List (Σ _ : Bytes, Option Row)),
      (∀ l, (iter l).Perm l) →
      (⟨⟨500, [0], [.bigInt, .bigInt], 0, 10, idValueInjectors, 1⟩, ∅⟩ : Sink).HandleRows env iter
          ⟨[[some (.int64 1), some (.int64 10)]], [⟨0, -1, 1⟩]⟩ ⟨NewWriteBatch 1000, []⟩ =
        .error (.panic "nil pointer dereference") ∧
      ∃ k s' ctx', EncodeKeyCols [some (.int64 1), some (.int64 10)] [0] [.bigInt, .bigInt]
          (EncodeTableKeyPrefix 500 1000) = some k ∧
        (⟨⟨500, [0], [.bigInt, .bigInt], 1, 2, idValueInjectors, 1⟩, ∅⟩ : Sink).HandleRows env iter
          ⟨[[some (.int64 1), some (.int64 10)]], [⟨0, -1, 1⟩]⟩ ⟨NewWriteBatch 1000, []⟩ = .ok (s', ctx', []) ∧
        ctx'.WriteBatch = (NewWriteBatch 1000).AddPut k []) ∧
    ∃ k v s₁ ctx₁ rowCache₁ s₂ ctx₂ sent,
      EncodeKeyCols [some (.int64 1), some (.int64 10)] [0] [.bigInt, .bigInt] (EncodeTableKeyPrefix 500 1000) =
        some k ∧ EncodeRow [some (.int64 1), some (.int64 10)] [.bigInt, .bigInt] [] = some v ∧
      (⟨⟨500, [0], [.bigInt, .bigInt], 1, 2, idValueInjectors, 1⟩, ∅⟩ : Sink).HandleRows jsonEnv id
        ⟨[[some (.int64 1), some (.int64 10)]], [⟨-1, 0, 1⟩]⟩ ⟨NewWriteBatch 1000, []⟩ = .ok (s₁, ctx₁, []) ∧
      updateRowCache ctx₁.WriteBatch (fun _ => none) = .ok rowCache₁ ∧ rowCache₁ k = some v ∧
      s₁.HandleRows jsonEnv id
        ⟨[[some (.int64 1), some (.int64 10)], [some (.int64 1), some (.int64 20)],
          [some (.int64 2), some (.int64 30)]], [⟨0, 1, 2⟩, ⟨-1, 2, 3⟩]⟩ ⟨NewWriteBatch 1000, []⟩ =
        .ok (s₂, ctx₂, [sent]) ∧
      sent.deletes = some (NewWriteBatch 1000) ∧ s₂.toSend.lookup 1000 = none ∧
      s₂.loadPersistentState jsonEnv id 1000 [(k, v)] =
        .ok ⟨[⟨0, .map [("id", .scalar (.int64 1)), ("v", .scalar (.int64 10))], .null, (), []⟩],
          some ((NewWriteBatch 1000).AddDelete k)⟩ := by
  refine ⟨fun τ β s env iter rowsBatch ctx rowsToSend toPut k hIter hCols hEmit hMsg hLoop hDelete =>
      Sink.HandleRows_of_delete hIter hCols hEmit hMsg hLoop hDelete,
    fun τ β s env iter shardID kvp hCols hTomb => Sink.loadPersistentState_of_tombstone env iter shardID
      hCols hTomb,
    fun τ β s env iter rowsBatch ctx rowsToSend toPut r hEmit hLoop hFull h =>
      Sink.HandleRows_full_deletes hEmit hLoop hFull h,
    fun τ β env iter hIter => ⟨?_, _, _, _, rfl, rfl, rfl⟩, ?_⟩
  · -- the delete is the only row to send, so no message of a row is built
    refine Sink.HandleRows_of_delete hIter (by decide) rfl ?_ rfl (AList.lookup_insert _)
    intro kv hkv row hRow
    obtain rfl : kv = ⟨_, none⟩ := by simpa using hkv
    cases hRow
  · -- the second batch fills the buffer: both keys are sent, and key 1, stored by the first batch, is kept
    exact ⟨_, _, _, _, _, _, _, _, rfl, rfl, rfl, rfl, rfl, rfl, rfl, rfl, rfl⟩

theorem HandleRows_delete_panics_one_delete :
    (⟨⟨500, [0], [.bigInt, .bigInt], 0, 10, idValueInjectors, 1⟩, ∅⟩ : Sink).HandleRows jsonEnv id
        ⟨[[some (.int64 1), some (.int64 10)]], [⟨0, -1, 1⟩]⟩ ⟨NewWriteBatch 1000, []⟩ =
      .error (.panic "nil pointer dereference") :=
  (HandleRows_delete_panics.2.2.2.1 Unit _ jsonEnv id (fun l => List.Perm.refl l)).1

end PranaDB
