import Mathlib
import PranaDB.Remoting.Framing

/-! # The two ends of a remoting connection (`remoting/connection.go`, `remoting/server.go`)

A client connection keeps, in a `sync.Map`, the response handler of every
request that wants a response, under the request's sequence number. Its read
loop is `readMessage` with `clientConnection.handleMessage`, which takes the
handler of a response's sequence out of the map and calls it; when the loop's
read fails, the close action marks the connection closed and calls every
handler still waiting with `ErrConnectionClosed`. The server's read loop puts
every message on a channel; each is answered, if the request wants it, with
`sendResponse`.

A client connection is a state machine whose events are the sends of any
goroutine (`SendRequestAsync` holds the read lock for all of its work, and
the close action takes the write lock to mark the connection closed), the
reads of its read loop, the failure of a read, and `Close`. `sync.Map.Range`
ranges in an order of its own; the close action ranges over the entries in
the map's order, and what is proved counts calls per handler, whatever the
order. `stored` is not part of the Go state: it records each handler
`SendRequestAsync` stored, with its sequence, to say what became of it.
A handler returns a `PranaError` as `errors.As` finds it; the conversion of
other errors by `common.LogInternalError`, whose text carries a random id,
is not modelled.
-/

namespace PranaDB
set_option autoImplicit false

structure PranaError where
  Code : Int
  Msg : Bytes
deriving DecidableEq, Repr

/-- The error a response handler is called with: the error of a response, or
`ErrConnectionClosed`. -/
inductive ResponseError where
  | prana (perr : PranaError)
  | connectionClosed
deriving DecidableEq, Repr

/-! ## The server -/

section Server

variable {M : Type} (pb : ProtoBuffer M)

/-- The handlers a server registered, by message type; each answers a message
with a message and an error. -/
abbrev MessageHandlers (M : Type) := ClusterMessageType → Option (Option M → Option M × Option PranaError)

/-- `connection.handleMessage`: every message goes on `asyncMsgCh`, whatever its type. -/
def connection.handleMessage (asyncMsgs : List Bytes) (_ : UInt8) (msg : Bytes) :
    Except RemotingError (List Bytes) :=
  .ok (asyncMsgs ++ [msg])

/-- The response `connection.sendResponse` builds: ok without an error, and
otherwise with the code and the text of the `PranaError`. -/
def connection.response (nf : ClusterRequest M) (respMsg : Option M) : Option PranaError → ClusterResponse M
  | none => ⟨nf.sequence, true, 0, [], respMsg⟩
  | some perr => ⟨nf.sequence, false, perr.Code, perr.Msg, respMsg⟩

/-- `connection.sendResponse`: the bytes of the response it writes. -/
def connection.sendResponse (nf : ClusterRequest M) (respMsg : Option M) (respErr : Option PranaError) :
    Except RemotingError Bytes :=
  match (connection.response nf respMsg respErr).serialize pb [] with
  | .error e => .error (.error e)
  | .ok buff => writeMessage responseMessageType buff

/-- `connection.handleMessageAsync0`: the response it writes for a message, if
any. A request that does not deserialize, and a response that fails, are
logged and get no answer. -/
def connection.handleMessageAsync0 (messageHandlers : MessageHandlers M) (responsesDisabled : Bool)
    (msg : Bytes) : Except RemotingError (Option Bytes) :=
  match ClusterRequest.deserialize pb msg with
  | .error (.panic p) => .error (.panic p)
  | .error (.error _) => .ok none
  | .ok request =>
    let nt := TypeForClusterMessage pb request.requestMessage
    match messageHandlers nt with
    | none => .error (.panic s!"no message handler for type {nt}")
    | some handler =>
      let (respMsg, respErr) := handler request.requestMessage
      if request.requiresResponse && !responsesDisabled then
        match connection.sendResponse pb request respMsg respErr with
        | .ok bytes => .ok (some bytes)
        | .error (.panic p) => .error (.panic p)
        | .error (.error _) => .ok none
      else .ok none

theorem connection.deliverAll_handleMessage (fs : List Frame) :
    ∀ asyncMsgs : List Bytes,
      Reassembly.deliverAll (fun s (f : Frame) => connection.handleMessage s requestMessageType f.msg) fs asyncMsgs =
        .ok (asyncMsgs ++ fs.map Frame.msg) := by
  induction fs with
  | nil => intro asyncMsgs; simp [Reassembly.deliverAll]
  | cons f fs ih =>
    intro asyncMsgs
    have hStep : connection.handleMessage asyncMsgs requestMessageType f.msg = .ok (asyncMsgs ++ [f.msg]) := rfl
    rw [Reassembly.deliverAll, hStep]
    simp only [ih, List.map_cons, List.append_assoc, List.singleton_append]

/-- The read loop of a server connection puts on its channel every request
of the stream, once and in order, however the network reads cut the stream,
and returns only when a read fails. -/
theorem connection.readLoop_requests (fs : List Frame) (hType : ∀ f ∈ fs, f.msgType = requestMessageType)
    (chunks : List Bytes) (hChunks : ∀ c ∈ chunks, c ≠ []) (hStream : chunks.flatten = frameFormat.stream fs) :
    readMessage connection.handleMessage chunks ⟨[], none⟩ [] = .closed (fs.map Frame.msg) := by
  -- nothing is kept before the first read, and no length either
  have hRun : readMessage connection.handleMessage chunks ⟨[], none⟩ [] =
      ReadEnd.ofDeliver (Reassembly.deliverAll (fun s (f : Frame) => connection.handleMessage s requestMessageType f.msg)
        fs []) :=
    readMessage_stream connection.handleMessage requestMessageType chunks [] fs [] hChunks hType
      (by simpa using hStream) (.inl rfl)
  rw [hRun, connection.deliverAll_handleMessage, List.nil_append]
  rfl

theorem connection.readLoop_requests_two :
    (∀ f ∈ [(⟨1, [7], by decide⟩ : Frame), ⟨1, [8, 9], by decide⟩], f.msgType = requestMessageType) ∧
      (∀ c ∈ [[1, 1, 0], [0, 0, 7, 1], [2, 0, 0, 0, 8], [9]], c ≠ ([] : Bytes)) ∧
      [[1, 1, 0], [0, 0, 7, 1], [2, 0, 0, 0, 8], [9]].flatten =
        frameFormat.stream [(⟨1, [7], by decide⟩ : Frame), ⟨1, [8, 9], by decide⟩] ∧
      readMessage connection.handleMessage [[1, 1, 0], [0, 0, 7, 1], [2, 0, 0, 0, 8], [9]] ⟨[], none⟩ [] =
        .closed [[7], [8, 9]] := by
  have hType : ∀ f ∈ [(⟨1, [7], by decide⟩ : Frame), ⟨1, [8, 9], by decide⟩], f.msgType = requestMessageType := by
    decide
  have hChunks : ∀ c ∈ [[1, 1, 0], [0, 0, 7, 1], [2, 0, 0, 0, 8], [9]], c ≠ ([] : Bytes) := by decide
  have hStream : [[1, 1, 0], [0, 0, 7, 1], [2, 0, 0, 0, 8], [9]].flatten =
      frameFormat.stream [(⟨1, [7], by decide⟩ : Frame), ⟨1, [8, 9], by decide⟩] := by
    rfl
  exact ⟨hType, hChunks, hStream, connection.readLoop_requests _ hType _ hChunks hStream⟩

end Server

/-! ## The client -/

/-- `clientConnection`: the handlers waiting for a response by the sequence of
their request, the last sequence given out, and whether it is closed. -/
structure clientConnection (H : Type) where
  respHandlers : AList fun _ : Int64 => H
  reqSequence : Int64
  closed : Bool

/-- A call of a response handler: the sequence it was stored under, the
handler, and what it was called with. -/
structure Answer (M H : Type) where
  sequence : Int64
  handler : H
  result : Except ResponseError (Option M)

def Answer.entry {M H : Type} (a : Answer M H) : Σ _ : Int64, H := ⟨a.sequence, a.handler⟩

section Client

variable {M H : Type} (pb : ProtoBuffer M)

/-- The request of `SendRequestAsync`: a request with a handler takes the next
sequence and stores the handler under it. -/
def clientConnection.register (c : clientConnection H) (message : Option M) (respHandler : Option H) :
    ClusterRequest M × clientConnection H :=
  match respHandler with
  | some h =>
    let seq := c.reqSequence + 1
    (⟨true, seq, message⟩, { c with reqSequence := seq, respHandlers := c.respHandlers.insert seq h })
  | none => (⟨false, 0, message⟩, c)

/-- `clientConnection.SendRequestAsync`, with whether the connection's write
goes through; on success, the bytes written. -/
def clientConnection.SendRequestAsync (c : clientConnection H) (message : Option M) (respHandler : Option H)
    (writeOk : Bool) : Except RemotingError Bytes × clientConnection H :=
  if c.closed then (.error (.error "connection closed"), c)
  else
    let (cr, c) := c.register message respHandler
    match cr.serialize pb [] with
    | .error e => (.error (.error e), c)
    | .ok buf =>
      match writeMessage requestMessageType buf with
      | .error e => (.error e, c)
      | .ok bytes => (if writeOk then .ok bytes else .error (.error "write failed"), c)

def ClusterResponse.result (resp : ClusterResponse M) : Except ResponseError (Option M) :=
  if resp.errMsg ≠ [] then .error (.prana ⟨resp.errCode, resp.errMsg⟩) else .ok resp.responseMessage

/-- `clientConnection.handleMessage`, with the calls of the response handlers so far. -/
def clientConnection.handleMessage (st : clientConnection H × List (Answer M H)) (msgType : UInt8) (msg : Bytes) :
    Except RemotingError (clientConnection H × List (Answer M H)) :=
  if msgType ≠ responseMessageType then .error (.panic s!"unexpected message type {msgType} msg {msg}")
  else
    match ClusterResponse.deserialize pb msg with
    | .error e => .error e
    | .ok resp =>
      match st.1.respHandlers.lookup resp.sequence with
      | none => .error (.error "failed to find response handler")
      | some handler =>
        .ok ({ st.1 with respHandlers := st.1.respHandlers.erase resp.sequence },
          st.2 ++ [⟨resp.sequence, handler, resp.result⟩])

/-- The close action of `clientConnection.start`, run when a read of the read
loop fails: the connection is closed and every waiting handler is removed and
called with `ErrConnectionClosed`. -/
def clientConnection.closeAction (st : clientConnection H × List (Answer M H)) :
    clientConnection H × List (Answer M H) :=
  ({ st.1 with closed := true, respHandlers := ∅ },
    st.2 ++ st.1.respHandlers.entries.map fun e => ⟨e.1, e.2, .error .connectionClosed⟩)

/-- `clientConnection.Close`: the connection is marked closed and its socket
closed, so that the next read of the read loop fails. -/
def clientConnection.Close (c : clientConnection H) : clientConnection H := { c with closed := true }

end Client

/-! ## A client connection as a state machine -/

/-- Where the read loop of a client connection is. -/
inductive ReaderPhase where
  | reading (rs : ReadState)
  /-- `readMessage` returned on a handler error, without the close action. -/
  | stopped
  /-- A read failed and the close action ran. -/
  | exited
  /-- A panic; `common.PanicHandler` ends the process. -/
  | panicked
deriving DecidableEq, Repr

/-- A client connection with the calls of its response handlers and its read loop. -/
structure ClientState (M H : Type) where
  conn : clientConnection H
  answers : List (Answer M H)
  reader : ReaderPhase
  stored : List (Σ _ : Int64, H)

/-- What happens to a client connection: a send from any goroutine, a read of
its read loop, the read that fails, and `Close`. -/
inductive ClientEvent (M H : Type) where
  | send (message : Option M) (respHandler : Option H) (writeOk : Bool)
  | read (chunk : Bytes)
  | readFails
  | close

def ClientEvent.storesHandler {M H : Type} : ClientEvent M H → Bool
  | .send _ (some _) _ => true
  | _ => false

section Machine

variable {M H : Type} (pb : ProtoBuffer M)

def ClientState.init : ClientState M H := ⟨⟨∅, 0, false⟩, [], .reading ⟨[], none⟩, []⟩

def ClientState.step (st : ClientState M H) : ClientEvent M H → ClientState M H
  | .send message respHandler writeOk =>
    let stored :=
      match respHandler with
      | some h => if st.conn.closed then st.stored else st.stored ++ [⟨st.conn.reqSequence + 1, h⟩]
      | none => st.stored
    { st with conn := (st.conn.SendRequestAsync pb message respHandler writeOk).2, stored := stored }
  | .read chunk =>
    match st.reader with
    | .reading rs =>
      match readOnce (clientConnection.handleMessage pb) chunk rs (st.conn, st.answers) with
      | .ok (rs', (c, answers)) => { st with conn := c, answers := answers, reader := .reading rs' }
      | .error (.error _, (c, answers)) => { st with conn := c, answers := answers, reader := .stopped }
      | .error (.panic _, (c, answers)) => { st with conn := c, answers := answers, reader := .panicked }
    | _ => st
  | .readFails =>
    match st.reader with
    | .reading _ =>
      { st with conn := (clientConnection.closeAction (st.conn, st.answers)).1,
                answers := (clientConnection.closeAction (st.conn, st.answers)).2,
                reader := .exited }
    | _ => st
  | .close => { st with conn := st.conn.Close }

def ClientState.run (st : ClientState M H) (evs : List (ClientEvent M H)) : ClientState M H :=
  evs.foldl (ClientState.step pb) st

end Machine

/-! ## Every stored handler is called once -/

theorem toInt_add_one_of_lt {x : Int64} (h : x.toInt < 2 ^ 63 - 1) : (x + 1).toInt = x.toInt + 1 := by
  have hLo := Int64.le_toInt x
  rw [Int64.toInt_add]
  simp only [Int64.toInt_one]
  rw [Int.bmod_eq_of_le] <;> omega

theorem entries_perm_cons_erase {α : Type} {β : α → Type} [DecidableEq α] {s : AList β} {a : α} {b : β a}
    (h : s.lookup a = some b) : s.entries.Perm (⟨a, b⟩ :: (s.erase a).entries) := by
  have hMem : Sigma.mk a b ∈ s.entries := AList.mem_lookup_iff.mp (by simp [h])
  obtain ⟨b', l₁, l₂, -, hEq, hErase⟩ := List.exists_of_kerase (List.mem_keys_of_mem hMem)
  have hb : b' = b := by
    have hMem' : Sigma.mk a b' ∈ s.entries := by rw [hEq]; simp
    exact s.nodupKeys.eq_of_mk_mem hMem' hMem
  have hErase' : (s.erase a).entries = l₁ ++ l₂ := hErase
  rw [hErase', hEq, hb]
  exact List.perm_middle

section Accounting

variable {M H : Type} (pb : ProtoBuffer M)

@[simp] theorem clientConnection.register_none (c : clientConnection H) (message : Option M) :
    (c.register message none).2 = c := rfl

@[simp] theorem clientConnection.register_some (c : clientConnection H) (message : Option M) (h : H) :
    (c.register message (some h)).2 =
      { c with reqSequence := c.reqSequence + 1, respHandlers := c.respHandlers.insert (c.reqSequence + 1) h } :=
  rfl

theorem clientConnection.SendRequestAsync_snd (c : clientConnection H) (message : Option M)
    (respHandler : Option H) (writeOk : Bool) :
    (c.SendRequestAsync pb message respHandler writeOk).2 = if c.closed then c else (c.register message respHandler).2 := by
  by_cases hClosed : c.closed
  · simp [clientConnection.SendRequestAsync, hClosed]
  · simp only [clientConnection.SendRequestAsync, hClosed, Bool.false_eq_true, if_false]
    split <;> (try split) <;> rfl

theorem clientConnection.handleMessage_eq_ok {st st' : clientConnection H × List (Answer M H)}
    {msgType : UInt8} {msg : Bytes} (h : clientConnection.handleMessage pb st msgType msg = .ok st') :
    ∃ resp handler, msgType = responseMessageType ∧ ClusterResponse.deserialize pb msg = .ok resp ∧
      st.1.respHandlers.lookup resp.sequence = some handler ∧
      st' = ({ st.1 with respHandlers := st.1.respHandlers.erase resp.sequence },
        st.2 ++ [⟨resp.sequence, handler, resp.result⟩]) := by
  unfold clientConnection.handleMessage at h
  split at h
  · cases h
  · rename_i hType
    split at h
    · cases h
    · rename_i resp hResp
      split at h
      · cases h
      · rename_i handler hLookup
        exact ⟨resp, handler, not_not.mp hType, hResp, hLookup, (Except.ok.inj h).symm⟩

def Accounted (stored : List (Σ _ : Int64, H)) (c : clientConnection H) (answers : List (Answer M H)) : Prop :=
  (c.respHandlers.entries ++ answers.map Answer.entry).Perm stored

theorem Accounted.handleMessage {stored : List (Σ _ : Int64, H)} {c c' : clientConnection H}
    {answers answers' : List (Answer M H)} {msgType : UInt8} {msg : Bytes} (hAcc : Accounted stored c answers)
    (h : clientConnection.handleMessage pb (c, answers) msgType msg = .ok (c', answers')) :
    Accounted stored c' answers' ∧ c'.reqSequence = c.reqSequence ∧ c'.closed = c.closed := by
  obtain ⟨resp, handler, -, -, hLookup, hEq⟩ := clientConnection.handleMessage_eq_ok pb h
  simp only [Prod.mk.injEq] at hEq
  obtain ⟨rfl, rfl⟩ := hEq
  refine ⟨?_, rfl, rfl⟩
  have hPerm := entries_perm_cons_erase hLookup
  have hMoved : ((c.respHandlers.erase resp.sequence).entries ++
      (answers ++ [(⟨resp.sequence, handler, resp.result⟩ : Answer M H)]).map Answer.entry).Perm
        (c.respHandlers.entries ++ answers.map Answer.entry) := by
    rw [List.map_append, List.map_singleton, ← List.append_assoc]
    refine (List.perm_append_singleton _ _).trans ?_
    exact (List.Perm.append_right _ hPerm).symm
  exact hMoved.trans hAcc

theorem Accounted.closeAction {stored : List (Σ _ : Int64, H)} {c : clientConnection H}
    {answers : List (Answer M H)} (hAcc : Accounted stored c answers) :
    Accounted stored (clientConnection.closeAction (c, answers)).1 (clientConnection.closeAction (c, answers)).2 := by
  have hCalled : (c.respHandlers.entries.map fun e => (⟨e.1, e.2, .error .connectionClosed⟩ : Answer M H)).map
      Answer.entry = c.respHandlers.entries := by
    simp [Function.comp_def, Answer.entry]
  simp only [Accounted, clientConnection.closeAction, AList.empty_entries, List.nil_append, List.map_append, hCalled]
  exact List.perm_append_comm.trans hAcc

theorem Accounted.insert {stored : List (Σ _ : Int64, H)} {c : clientConnection H}
    {answers : List (Answer M H)} {seq : Int64} {h : H} (hAcc : Accounted stored c answers)
    (hFresh : seq ∉ stored.map Sigma.fst) :
    Accounted (stored ++ [⟨seq, h⟩]) { c with respHandlers := c.respHandlers.insert seq h } answers := by
  have hNotMem : seq ∉ c.respHandlers := by
    intro hMem
    obtain ⟨b, hb⟩ := AList.mem_keys.mp hMem |> List.mem_keys.mp
    exact hFresh (List.mem_map.mpr ⟨_, hAcc.subset (List.mem_append_left _ hb), rfl⟩)
  simp only [Accounted, AList.entries_insert_of_notMem hNotMem, List.cons_append]
  exact (List.Perm.cons _ hAcc).trans (List.perm_append_singleton _ _).symm

end Accounting

section Runs

variable {M H : Type} (pb : ProtoBuffer M)

@[simp] theorem ClientState.run_nil (st : ClientState M H) : st.run pb [] = st := rfl

@[simp] theorem ClientState.run_cons (st : ClientState M H) (ev : ClientEvent M H) (evs : List (ClientEvent M H)) :
    st.run pb (ev :: evs) = (st.step pb ev).run pb evs := rfl

@[simp] theorem ClientEvent.storesHandler_send (message : Option M) (respHandler : Option H) (writeOk : Bool) :
    (ClientEvent.send message respHandler writeOk).storesHandler = respHandler.isSome := by
  cases respHandler <;> rfl

theorem ClientState.step_send_cases (st : ClientState M H) (message : Option M) (respHandler : Option H)
    (writeOk : Bool) :
    st.step pb (.send message respHandler writeOk) = st ∨
      ∃ h, respHandler = some h ∧ st.conn.closed = false ∧
        st.step pb (.send message respHandler writeOk) =
          { st with
            conn := { st.conn with
              reqSequence := st.conn.reqSequence + 1
              respHandlers := st.conn.respHandlers.insert (st.conn.reqSequence + 1) h }
            stored := st.stored ++ [⟨st.conn.reqSequence + 1, h⟩] } := by
  cases respHandler with
  | none => left; simp [ClientState.step, clientConnection.SendRequestAsync_snd]
  | some h =>
    cases hClosed : st.conn.closed with
    | true => left; simp [ClientState.step, clientConnection.SendRequestAsync_snd, hClosed]
    | false => exact .inr ⟨h, rfl, rfl, by simp [ClientState.step, clientConnection.SendRequestAsync_snd, hClosed]⟩

theorem ClientState.step_read_cases (st : ClientState M H) (chunk : Bytes) :
    st.step pb (.read chunk) = st ∨
      ∃ rs ph, st.reader = .reading rs ∧ ph ≠ .exited ∧
        st.step pb (.read chunk) =
          { st with
            conn := (readResultState (readOnce (clientConnection.handleMessage pb) chunk rs (st.conn, st.answers))).1,
            answers := (readResultState (readOnce (clientConnection.handleMessage pb) chunk rs (st.conn, st.answers))).2,
            reader := ph } := by
  cases hReader : st.reader with
  | reading rs =>
    right
    cases hRead : readOnce (clientConnection.handleMessage pb) chunk rs (st.conn, st.answers) with
    | ok r =>
      obtain ⟨rs', c, answers⟩ := r
      exact ⟨rs, .reading rs', rfl, nofun, by simp [ClientState.step, hReader, hRead, readResultState]⟩
    | error r =>
      obtain ⟨e, c, answers⟩ := r
      cases e with
      | error msg => exact ⟨rs, .stopped, rfl, nofun, by simp [ClientState.step, hReader, hRead, readResultState]⟩
      | panic msg => exact ⟨rs, .panicked, rfl, nofun, by simp [ClientState.step, hReader, hRead, readResultState]⟩
  | stopped => exact .inl (by simp [ClientState.step, hReader])
  | exited => exact .inl (by simp [ClientState.step, hReader])
  | panicked => exact .inl (by simp [ClientState.step, hReader])

theorem ClientState.step_readFails_cases (st : ClientState M H) :
    st.step pb .readFails = st ∨
      ∃ rs, st.reader = .reading rs ∧
        st.step pb .readFails =
          { st with conn := (clientConnection.closeAction (st.conn, st.answers)).1,
                    answers := (clientConnection.closeAction (st.conn, st.answers)).2, reader := .exited } := by
  cases hReader : st.reader with
  | reading rs => exact .inr ⟨rs, rfl, by simp [ClientState.step, hReader]⟩
  | stopped => exact .inl (by simp [ClientState.step, hReader])
  | exited => exact .inl (by simp [ClientState.step, hReader])
  | panicked => exact .inl (by simp [ClientState.step, hReader])

/-- What every run of a client connection from `init` keeps. -/
structure ClientState.Invariant (st : ClientState M H) : Prop where
  /-- Every handler stored is waiting in the map or has been called, once. -/
  accounted : Accounted st.stored st.conn st.answers
  /-- No sequence is given out twice. -/
  nodup : (st.stored.map Sigma.fst).Nodup
  fresh : ∀ e ∈ st.stored, e.1.toInt ≤ st.conn.reqSequence.toInt
  /-- The sequence counts the handlers stored. -/
  counter : st.conn.reqSequence.toInt = st.stored.length
  /-- Once the close action ran the connection stays closed and its map empty. -/
  exited : st.reader = .exited → st.conn.closed = true ∧ st.conn.respHandlers = ∅

theorem ClientState.invariant_init : (ClientState.init : ClientState M H).Invariant where
  accounted := List.Perm.refl _
  nodup := List.nodup_nil
  fresh := by simp [ClientState.init]
  counter := rfl
  exited := by simp [ClientState.init]

theorem ClientState.Invariant.send {st : ClientState M H} (hi : st.Invariant) (message : Option M)
    (respHandler : Option H) (writeOk : Bool) (hBound : respHandler.isSome → st.stored.length < 2 ^ 63 - 1) :
    (st.step pb (.send message respHandler writeOk)).Invariant := by
  rcases st.step_send_cases pb message respHandler writeOk with hSame | ⟨h, rfl, hOpen, hStep⟩
  · rw [hSame]
    exact hi
  · -- the next sequence is one more than every sequence given out, as long as it does not wrap
    have hLt : st.conn.reqSequence.toInt < 2 ^ 63 - 1 := by
      have hLen := hBound rfl
      rw [hi.counter]
      omega
    have hSeq := toInt_add_one_of_lt hLt
    have hFresh : st.conn.reqSequence + 1 ∉ st.stored.map Sigma.fst := by
      intro hMem
      obtain ⟨e, he, hKey⟩ := List.mem_map.mp hMem
      have hLe := hi.fresh e he
      rw [hKey, hSeq] at hLe
      omega
    rw [hStep]
    refine ⟨hi.accounted.insert hFresh, ?_, ?_, ?_, ?_⟩
    · have hCons := List.nodup_cons.mpr ⟨hFresh, hi.nodup⟩
      rw [List.map_append, List.map_singleton]
      exact (List.perm_append_singleton _ _).nodup_iff.mpr hCons
    · intro e he
      simp only [hSeq]
      rcases List.mem_append.mp he with he | he
      · have hLe := hi.fresh e he
        omega
      · rw [List.mem_singleton.mp he, hSeq]
    · simp only [hSeq, hi.counter, List.length_append, List.length_singleton]
      push_cast
      rfl
    · intro hEx
      rw [(hi.exited hEx).1] at hOpen
      cases hOpen

theorem ClientState.Invariant.read {st : ClientState M H} (hi : st.Invariant) (chunk : Bytes) :
    (st.step pb (.read chunk)).Invariant := by
  rcases st.step_read_cases pb chunk with hSame | ⟨rs, ph, -, hPh, hStep⟩
  · rw [hSame]
    exact hi
  · -- every call of the handler in the read keeps the sequence, the flag and the accounting
    have hRead := readOnce_invariant (clientConnection.handleMessage pb)
      (fun p => p.1.reqSequence = st.conn.reqSequence ∧ p.1.closed = st.conn.closed ∧ Accounted st.stored p.1 p.2)
      (fun ⟨c, answers⟩ _ _ ⟨c', answers'⟩ ⟨hSeq, hCl, hAcc⟩ hOk => by
        obtain ⟨hAcc', hSeq', hCl'⟩ := hAcc.handleMessage pb hOk
        exact ⟨hSeq'.trans hSeq, hCl'.trans hCl, hAcc'⟩)
      chunk rs (st.conn, st.answers) ⟨rfl, rfl, hi.accounted⟩
    obtain ⟨hSeq, -, hAcc⟩ := hRead
    rw [hStep]
    refine ⟨hAcc, hi.nodup, ?_, ?_, fun hEx => absurd hEx hPh⟩
    · intro e he
      rw [hSeq]
      exact hi.fresh e he
    · rw [hSeq]
      exact hi.counter

theorem ClientState.Invariant.readFails {st : ClientState M H} (hi : st.Invariant) :
    (st.step pb .readFails).Invariant := by
  rcases st.step_readFails_cases pb with hSame | ⟨rs, -, hStep⟩
  · rw [hSame]
    exact hi
  · rw [hStep]
    exact ⟨hi.accounted.closeAction, hi.nodup, hi.fresh, hi.counter, fun _ => ⟨rfl, rfl⟩⟩

theorem ClientState.Invariant.close {st : ClientState M H} (hi : st.Invariant) :
    (st.step pb .close).Invariant :=
  ⟨hi.accounted, hi.nodup, hi.fresh, hi.counter, fun hEx => ⟨rfl, (hi.exited hEx).2⟩⟩

theorem ClientState.Invariant.step {st : ClientState M H} (hi : st.Invariant) (ev : ClientEvent M H)
    (hBound : ev.storesHandler → st.stored.length < 2 ^ 63 - 1) : (st.step pb ev).Invariant := by
  cases ev with
  | send message respHandler writeOk =>
    exact hi.send pb message respHandler writeOk (fun hSome => hBound (by simpa using hSome))
  | read chunk => exact hi.read pb chunk
  | readFails => exact hi.readFails pb
  | close => exact hi.close pb

theorem ClientState.length_stored_step (st : ClientState M H) (ev : ClientEvent M H) :
    (st.step pb ev).stored.length ≤ st.stored.length + ev.storesHandler.toNat := by
  cases ev with
  | send message respHandler writeOk =>
    rcases st.step_send_cases pb message respHandler writeOk with hSame | ⟨h, rfl, -, hStep⟩
    · rw [hSame]
      omega
    · simp [hStep]
  | read chunk =>
    rcases st.step_read_cases pb chunk with hSame | ⟨rs, ph, -, -, hStep⟩
    · simp [hSame]
    · simp [hStep]
  | readFails =>
    rcases st.step_readFails_cases pb with hSame | ⟨rs, -, hStep⟩
    · simp [hSame]
    · simp [hStep]
  | close => exact Nat.le_add_right _ _

theorem ClientState.Invariant.run {st : ClientState M H} (hi : st.Invariant) :
    ∀ evs : List (ClientEvent M H), st.stored.length + (evs.filter ClientEvent.storesHandler).length ≤ 2 ^ 63 - 1 →
      (st.run pb evs).Invariant := by
  intro evs
  induction evs generalizing st with
  | nil => intro _; exact hi
  | cons ev evs ih =>
    intro hBound
    have hFilter : ((ev :: evs).filter ClientEvent.storesHandler).length =
        ev.storesHandler.toNat + (evs.filter ClientEvent.storesHandler).length := by
      cases h : ev.storesHandler <;> simp [h, Nat.add_comm]
    have hLen := st.length_stored_step pb ev
    rw [hFilter] at hBound
    have hNext := hi.step pb ev (fun hStores => by rw [hStores] at hBound; simp at hBound; omega)
    rw [ClientState.run_cons]
    exact ih hNext (by omega)

end Runs

section Answers

variable {M H : Type} (pb : ProtoBuffer M)

/-- Over every run from a fresh connection no response handler is called
twice and only stored handlers are called; once the read loop has exited,
every handler stored, whether its send went through or not, has been called
exactly once. -/
theorem ClientState.handlers_called_once (evs : List (ClientEvent M H))
    (hBound : (evs.filter ClientEvent.storesHandler).length ≤ 2 ^ 63 - 1) :
    ((ClientState.init.run pb evs).answers.map Answer.sequence).Nodup ∧
      ((ClientState.init.run pb evs).answers.map Answer.entry).Subperm (ClientState.init.run pb evs).stored ∧
      ((ClientState.init.run pb evs).reader = .exited →
        ((ClientState.init.run pb evs).answers.map Answer.entry).Perm (ClientState.init.run pb evs).stored) := by
  have hi := ClientState.invariant_init.run pb evs (by simpa [ClientState.init] using hBound)
  -- the answers are the stored handlers that left the map
  have hSub : ((ClientState.init.run pb evs).answers.map Answer.entry).Subperm
      (ClientState.init.run pb evs).stored :=
    (List.sublist_append_right _ _).subperm.trans hi.accounted.subperm
  refine ⟨?_, hSub, ?_⟩
  · obtain ⟨l, hPerm, hSubl⟩ := hSub
    have hKeys : (l.map Sigma.fst).Nodup := List.Nodup.sublist (hSubl.map Sigma.fst) hi.nodup
    have hAnswers := (hPerm.map Sigma.fst).nodup_iff.mp hKeys
    simpa [Function.comp_def, Answer.entry] using hAnswers
  · intro hEx
    have hAcc := hi.accounted
    rw [Accounted, (hi.exited hEx).2, AList.empty_entries, List.nil_append] at hAcc
    exact hAcc

/-- A send whose write fails, a send that goes through, both with a handler,
and the read that fails: the close action calls both handlers. -/
theorem ClientState.handlers_called_once_run :
    (([.send (some (.RemotingTestMessage, [])) (some ()) false, .send (some (.RemotingTestMessage, [])) (some ()) true, .readFails] : List (ClientEvent (ClusterMessageKind × Bytes) Unit)).filter ClientEvent.storesHandler).length ≤
        2 ^ 63 - 1 ∧
      ((ClientState.init.run protoBuffer [.send (some (.RemotingTestMessage, [])) (some ()) false, .send (some (.RemotingTestMessage, [])) (some ()) true, .readFails]).answers.map Answer.sequence).Nodup ∧
      ((ClientState.init.run protoBuffer [.send (some (.RemotingTestMessage, [])) (some ()) false, .send (some (.RemotingTestMessage, [])) (some ()) true, .readFails]).answers.map Answer.entry).Subperm
        (ClientState.init.run protoBuffer [.send (some (.RemotingTestMessage, [])) (some ()) false, .send (some (.RemotingTestMessage, [])) (some ()) true, .readFails]).stored ∧
      ((ClientState.init.run protoBuffer [.send (some (.RemotingTestMessage, [])) (some ()) false, .send (some (.RemotingTestMessage, [])) (some ()) true, .readFails]).reader = .exited →
        ((ClientState.init.run protoBuffer [.send (some (.RemotingTestMessage, [])) (some ()) false, .send (some (.RemotingTestMessage, [])) (some ()) true, .readFails]).answers.map Answer.entry).Perm
          (ClientState.init.run protoBuffer [.send (some (.RemotingTestMessage, [])) (some ()) false, .send (some (.RemotingTestMessage, [])) (some ()) true, .readFails]).stored) ∧
      (ClientState.init.run protoBuffer [.send (some (.RemotingTestMessage, [])) (some ()) false, .send (some (.RemotingTestMessage, [])) (some ()) true, .readFails]).answers.map (fun a => (a.sequence, a.result)) =
        [(2, .error .connectionClosed), (1, .error .connectionClosed)] := by
  obtain ⟨hNodup, hSub, hPerm⟩ := ClientState.handlers_called_once protoBuffer
    ([.send (some (.RemotingTestMessage, [])) (some ()) false, .send (some (.RemotingTestMessage, [])) (some ()) true, .readFails] : List (ClientEvent (ClusterMessageKind × Bytes) Unit)) (by decide)
  exact ⟨by decide, hNodup, hSub, hPerm, rfl⟩

end Answers

/-! ## A request and its response -/

section RoundTrip

variable {M H : Type} {pb : ProtoBuffer M}

theorem ClusterResponse.received_sequence (r : ClusterResponse M) : r.received.sequence = r.sequence := by
  unfold ClusterResponse.received
  split <;> rfl

theorem connection.result_received_response (nf : ClusterRequest M) (respMsg : Option M)
    (respErr : Option PranaError) :
    (connection.response nf respMsg respErr).received.result =
      match respErr with
      | none => .ok respMsg
      | some perr => if perr.Msg = [] then .ok none else .error (.prana ⟨perr.Code % 2 ^ 32, perr.Msg⟩) := by
  cases respErr with
  | none => simp [connection.response, ClusterResponse.received, ClusterResponse.result]
  | some perr =>
    by_cases hMsg : perr.Msg = []
    · simp [connection.response, ClusterResponse.received, ClusterResponse.result, hMsg]
    · simp [connection.response, ClusterResponse.received, ClusterResponse.result, hMsg]

theorem connection.sendResponse_eq_ok {nf : ClusterRequest M} {respMsg : Option M} {respErr : Option PranaError}
    {bytes : Bytes} (h : connection.sendResponse pb nf respMsg respErr = .ok bytes) :
    ∃ buff, (connection.response nf respMsg respErr).serialize pb [] = .ok buff ∧
      writeMessage responseMessageType buff = .ok bytes := by
  unfold connection.sendResponse at h
  split at h
  · cases h
  · exact ⟨_, ‹_›, h⟩

theorem connection.handleMessageAsync0_serialize (hL : pb.Lawful) (r : ClusterRequest M) {buf : Bytes}
    (hSer : r.serialize pb [] = .ok buf) (messageHandlers : MessageHandlers M)
    {handler : Option M → Option M × Option PranaError}
    (hHandler : messageHandlers (TypeForClusterMessage pb r.requestMessage) = some handler)
    (hWants : r.requiresResponse = true) {bytes : Bytes}
    (hBytes : connection.sendResponse pb r (handler r.requestMessage).1 (handler r.requestMessage).2 = .ok bytes) :
    connection.handleMessageAsync0 pb messageHandlers false buf = .ok (some bytes) := by
  simp only [connection.handleMessageAsync0, ClusterRequest.deserialize_serialize hL r hSer, hHandler, hWants,
    Bool.not_false, Bool.and_self, if_true, hBytes]

theorem clientConnection.handleMessage_serialize (hL : pb.Lawful) (resp : ClusterResponse M)
    (hShort : Short resp.errMsg) {buff : Bytes} (hSer : resp.serialize pb [] = .ok buff) (c : clientConnection H)
    (answers : List (Answer M H)) {h : H} (hLookup : c.respHandlers.lookup resp.sequence = some h) :
    clientConnection.handleMessage pb (c, answers) responseMessageType buff =
      .ok ({ c with respHandlers := c.respHandlers.erase resp.sequence },
        answers ++ [⟨resp.sequence, h, resp.received.result⟩]) := by
  have hSeq := ClusterResponse.received_sequence resp
  simp only [clientConnection.handleMessage, ne_eq, not_true_eq_false, if_false,
    ClusterResponse.deserialize_serialize hL resp hShort hSer]
  rw [hSeq, hLookup]

theorem clientConnection.SendRequestAsync_eq_ok {c c' : clientConnection H} {message : Option M}
    {respHandler : Option H} {writeOk : Bool} {bytes : Bytes}
    (h : c.SendRequestAsync pb message respHandler writeOk = (.ok bytes, c')) :
    c.closed = false ∧ c' = (c.register message respHandler).2 ∧
      ∃ buf, (c.register message respHandler).1.serialize pb [] = .ok buf ∧
        writeMessage requestMessageType buf = .ok bytes := by
  unfold clientConnection.SendRequestAsync at h
  split at h
  · simp at h
  · rename_i hOpen
    simp only [Bool.not_eq_true] at hOpen
    generalize c.register message respHandler = reg at h ⊢
    obtain ⟨cr, c₁⟩ := reg
    simp only at h ⊢
    split at h
    · simp at h
    · rename_i buf hSer
      split at h
      · simp at h
      · rename_i framed hFramed
        cases writeOk
        · simp at h
        · simp only [if_true, Prod.mk.injEq, Except.ok.injEq] at h
          obtain ⟨rfl, rfl⟩ := h
          exact ⟨hOpen, rfl, buf, hSer, hFramed⟩

/-- A request sent with a handler over an open connection and answered by the
server's handler for its type calls that handler when the response is read
back: with the server handler's message, or for an error with the low 32 bits
of its code and its text, and with no error at all if the text is empty. -/
theorem request_response_round_trip (hL : pb.Lawful) {c c' : clientConnection H} {message : Option M} {h : H}
    {reqBytes : Bytes} (hSend : c.SendRequestAsync pb message (some h) true = (.ok reqBytes, c'))
    (messageHandlers : MessageHandlers M) {handler : Option M → Option M × Option PranaError}
    (hHandler : messageHandlers (TypeForClusterMessage pb message) = some handler)
    (hShort : ∀ perr, (handler message).2 = some perr → Short perr.Msg) {respBytes : Bytes}
    (hResp : connection.sendResponse pb ⟨true, c.reqSequence + 1, message⟩ (handler message).1 (handler message).2 =
      .ok respBytes)
    (answers : List (Answer M H)) :
    ∃ reqPayload respPayload,
      writeMessage requestMessageType reqPayload = .ok reqBytes ∧
      connection.handleMessageAsync0 pb messageHandlers false reqPayload = .ok (some respBytes) ∧
      writeMessage responseMessageType respPayload = .ok respBytes ∧
      clientConnection.handleMessage pb (c', answers) responseMessageType respPayload =
        .ok ({ c' with respHandlers := c'.respHandlers.erase (c.reqSequence + 1) },
          answers ++ [⟨c.reqSequence + 1, h,
            match (handler message).2 with
            | none => .ok (handler message).1
            | some perr => if perr.Msg = [] then .ok none else .error (.prana ⟨perr.Code % 2 ^ 32, perr.Msg⟩)⟩]) := by
  obtain ⟨-, rfl, reqPayload, hReqSer, hReqFrame⟩ := clientConnection.SendRequestAsync_eq_ok hSend
  obtain ⟨respPayload, hRespSer, hRespFrame⟩ := connection.sendResponse_eq_ok hResp
  have hServer := connection.handleMessageAsync0_serialize hL _ hReqSer messageHandlers hHandler rfl hResp
  -- the response carries the request's sequence, under which the handler waits
  have hSeq : (connection.response ⟨true, c.reqSequence + 1, message⟩ (handler message).1
      (handler message).2).sequence = c.reqSequence + 1 := by
    cases (handler message).2 <;> rfl
  have hLookup : ((c.register message (some h)).2.respHandlers.lookup
      (connection.response ⟨true, c.reqSequence + 1, message⟩ (handler message).1 (handler message).2).sequence) =
        some h := by
    rw [hSeq]
    exact AList.lookup_insert _
  have hShortErr : Short (connection.response ⟨true, c.reqSequence + 1, message⟩ (handler message).1
      (handler message).2).errMsg := by
    cases hErr : (handler message).2 with
    | none => simp [connection.response, Short]
    | some perr => exact hShort perr hErr
  have hClient := clientConnection.handleMessage_serialize hL _ hShortErr hRespSer _ answers hLookup
  refine ⟨reqPayload, respPayload, hReqFrame, hServer, hRespFrame, ?_⟩
  rw [hClient, connection.result_received_response, hSeq]

/-- The request `RemotingTestMessage{[5]}` sent with a handler on a fresh
connection, answered once by a server handler that echoes `[6]`, and once by
one that fails with code 2^32 + 7 and the text "x". -/
theorem request_response_round_trip_echo :
    protoBuffer.Lawful ∧
      (⟨∅, 0, false⟩ : clientConnection Unit).SendRequestAsync protoBuffer (some (.RemotingTestMessage, [5]))
          (some ()) true =
        (.ok [1, 13, 0, 0, 0, 1, 1, 0, 0, 0, 0, 0, 0, 0, 13, 10, 1, 5], ⟨AList.insert 1 () ∅, 1, false⟩) ∧
      (fun _ => some fun _ => (some (.RemotingTestMessage, [6]), none) : MessageHandlers (ClusterMessageKind × Bytes))
          (TypeForClusterMessage protoBuffer (some (.RemotingTestMessage, [5]))) =
        some (fun _ => (some (.RemotingTestMessage, [6]), none)) ∧
      (∀ perr : PranaError, (none : Option PranaError) = some perr → Short perr.Msg) ∧
      connection.sendResponse protoBuffer ⟨true, 1, some (.RemotingTestMessage, [5])⟩
          (some (.RemotingTestMessage, [6])) none =
        .ok [2, 13, 0, 0, 0, 1, 1, 0, 0, 0, 0, 0, 0, 0, 13, 10, 1, 6] ∧
      (∃ reqPayload respPayload,
        writeMessage requestMessageType reqPayload = .ok [1, 13, 0, 0, 0, 1, 1, 0, 0, 0, 0, 0, 0, 0, 13, 10, 1, 5] ∧
        connection.handleMessageAsync0 protoBuffer (fun _ => some fun _ => (some (.RemotingTestMessage, [6]), none))
            false reqPayload =
          .ok (some [2, 13, 0, 0, 0, 1, 1, 0, 0, 0, 0, 0, 0, 0, 13, 10, 1, 6]) ∧
        writeMessage responseMessageType respPayload = .ok [2, 13, 0, 0, 0, 1, 1, 0, 0, 0, 0, 0, 0, 0, 13, 10, 1, 6] ∧
        clientConnection.handleMessage protoBuffer
            ((⟨AList.insert 1 () ∅, 1, false⟩ : clientConnection Unit),
              ([] : List (Answer (ClusterMessageKind × Bytes) Unit)))
            responseMessageType respPayload =
          .ok (⟨(AList.insert 1 () ∅).erase 1, 1, false⟩, [⟨1, (), .ok (some (.RemotingTestMessage, [6]))⟩])) ∧
      (fun _ => some fun _ => (none, some ⟨4294967303, [120]⟩) : MessageHandlers (ClusterMessageKind × Bytes))
          (TypeForClusterMessage protoBuffer (some (.RemotingTestMessage, [5]))) =
        some (fun _ => (none, some ⟨4294967303, [120]⟩)) ∧
      (∀ perr : PranaError, (some ⟨4294967303, [120]⟩ : Option PranaError) = some perr → Short perr.Msg) ∧
      connection.sendResponse protoBuffer ⟨true, 1, some (.RemotingTestMessage, [5])⟩ none
          (some ⟨4294967303, [120]⟩) =
        .ok [2, 18, 0, 0, 0, 0, 7, 0, 0, 0, 1, 0, 0, 0, 120, 1, 0, 0, 0, 0, 0, 0, 0] ∧
      ∃ reqPayload respPayload,
        writeMessage requestMessageType reqPayload = .ok [1, 13, 0, 0, 0, 1, 1, 0, 0, 0, 0, 0, 0, 0, 13, 10, 1, 5] ∧
        connection.handleMessageAsync0 protoBuffer (fun _ => some fun _ => (none, some ⟨4294967303, [120]⟩))
            false reqPayload =
          .ok (some [2, 18, 0, 0, 0, 0, 7, 0, 0, 0, 1, 0, 0, 0, 120, 1, 0, 0, 0, 0, 0, 0, 0]) ∧
        writeMessage responseMessageType respPayload =
          .ok [2, 18, 0, 0, 0, 0, 7, 0, 0, 0, 1, 0, 0, 0, 120, 1, 0, 0, 0, 0, 0, 0, 0] ∧
        clientConnection.handleMessage protoBuffer
            ((⟨AList.insert 1 () ∅, 1, false⟩ : clientConnection Unit),
              ([] : List (Answer (ClusterMessageKind × Bytes) Unit)))
            responseMessageType respPayload =
          .ok (⟨(AList.insert 1 () ∅).erase 1, 1, false⟩, [⟨1, (), .error (.prana ⟨7, [120]⟩)⟩]) := by
  have hSend : (⟨∅, 0, false⟩ : clientConnection Unit).SendRequestAsync protoBuffer
      (some (.RemotingTestMessage, [5])) (some ()) true =
        (.ok [1, 13, 0, 0, 0, 1, 1, 0, 0, 0, 0, 0, 0, 0, 13, 10, 1, 5], ⟨AList.insert 1 () ∅, 1, false⟩) := by
    rfl
  have hEcho : connection.sendResponse protoBuffer ⟨true, 1, some (.RemotingTestMessage, [5])⟩
      (some (.RemotingTestMessage, [6])) none = .ok [2, 13, 0, 0, 0, 1, 1, 0, 0, 0, 0, 0, 0, 0, 13, 10, 1, 6] := by
    rfl
  have hFail : connection.sendResponse protoBuffer ⟨true, 1, some (.RemotingTestMessage, [5])⟩ none
      (some ⟨4294967303, [120]⟩) = .ok [2, 18, 0, 0, 0, 0, 7, 0, 0, 0, 1, 0, 0, 0, 120, 1, 0, 0, 0, 0, 0, 0, 0] := by
    rfl
  have hNone : ∀ perr : PranaError, (none : Option PranaError) = some perr → Short perr.Msg := fun _ h => by
    cases h
  have hText : ∀ perr : PranaError, (some ⟨4294967303, [120]⟩ : Option PranaError) = some perr → Short perr.Msg := by
    rintro perr ⟨⟩
    decide
  exact ⟨protoBuffer_lawful, hSend, rfl, hNone, hEcho,
    request_response_round_trip protoBuffer_lawful hSend (fun _ => some fun _ => (some (.RemotingTestMessage, [6]), none))
      rfl hNone hEcho [],
    rfl, hText, hFail,
    request_response_round_trip protoBuffer_lawful hSend (fun _ => some fun _ => (none, some ⟨4294967303, [120]⟩))
      rfl hText hFail []⟩

end RoundTrip

end PranaDB
