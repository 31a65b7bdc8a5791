import Mathlib
import PranaDB.Lib.Chan
import PranaDB.Remoting.Connection

/-! # The remoting client (`remoting/client.go`)

`Broadcast` sends one request to every server with one `broadcastRespHandler`,
counts the sends that went through, sets that count as the responses the
handler needs, and waits on the handler's channel, of capacity one, for the
first error or for the last response. The responses come from the read loops
and close actions of the connections, in any order, also before the count is
set. Each call of the handler is an event, and so are the count being set and
the waiter's receive. A send on the full channel is `HandlerFault.blocked`:
the sender waits, holding the handler's lock, until a receive.

`sendRequestWithRetry` sends a request again on a recreated connection when
the first send fails. A send stores its handler before it writes, so a failed
write leaves the handler waiting in the old connection too.
-/

namespace PranaDB
set_option autoImplicit false

/-- A goroutine that blocks on a full channel, or panics. -/
inductive HandlerFault where
  | blocked
  | panic (msg : String)
deriving DecidableEq, Repr

/-! ## The broadcast response handler -/

/-- `broadcastRespHandler`; an error is `some`. -/
structure broadcastRespHandler (E : Type) where
  ch : GoChan.Chan (Option E)
  requiredResponses : Int
  respCount : Int
  err : Option E

/-- What happens to a broadcast's handler: a call of `HandleResponse`, the count
set by `setRequiredResponses`, and the receive of `waitForResponse`. -/
inductive BroadcastEvent (E : Type) where
  | response (err : Option E)
  | setRequired (n : Int)
  | wait

section Handler

variable {E : Type}

def newBroadcastRespHandler : broadcastRespHandler E := ⟨GoChan.Chan.empty 1, -1, 0, none⟩

def broadcastRespHandler.sendToChannel (t : broadcastRespHandler E) (x : Option E) :
    Except HandlerFault (broadcastRespHandler E) :=
  match t.ch.send x with
  | some ch => .ok { t with ch := ch }
  | none => .error .blocked

def broadcastRespHandler.checkSendToChannel (t : broadcastRespHandler E) :
    Except HandlerFault (broadcastRespHandler E) :=
  if t.requiredResponses = -1 then .ok t
  else
    match t.err with
    | some e => t.sendToChannel (some e)
    | none =>
      if t.respCount = t.requiredResponses then t.sendToChannel none
      else if t.respCount > t.requiredResponses then .error (.panic "too many responses")
      else .ok t

def broadcastRespHandler.setRequiredResponses (t : broadcastRespHandler E) (requiredResponses : Int) :
    Except HandlerFault (broadcastRespHandler E) :=
  { t with requiredResponses := requiredResponses }.checkSendToChannel

def broadcastRespHandler.HandleResponse (t : broadcastRespHandler E) (err : Option E) :
    Except HandlerFault (broadcastRespHandler E) :=
  if t.err.isSome then .ok t
  else
    match err with
    | some e => { t with err := some e }.checkSendToChannel
    | none => { t with respCount := t.respCount + 1 }.checkSendToChannel

/-- `waitForResponse`: a receive on the channel; the waiter has its value once
the channel's `received` holds it. -/
def broadcastRespHandler.waitForResponse (t : broadcastRespHandler E) : broadcastRespHandler E :=
  { t with ch := t.ch.recv }

def broadcastRespHandler.step (t : broadcastRespHandler E) : BroadcastEvent E → Except HandlerFault (broadcastRespHandler E)
  | .response err => t.HandleResponse err
  | .setRequired n => t.setRequiredResponses n
  | .wait => .ok t.waitForResponse

def broadcastRespHandler.run : List (BroadcastEvent E) → broadcastRespHandler E → Except HandlerFault (broadcastRespHandler E)
  | [], t => .ok t
  | ev :: evs, t =>
    match t.step ev with
    | .ok t' => broadcastRespHandler.run evs t'
    | .error f => .error f

def BroadcastEvent.response? : BroadcastEvent E → Option (Option E)
  | .response err => some err
  | _ => none

def BroadcastEvent.isWait : BroadcastEvent E → Bool
  | .wait => true
  | _ => false

def BroadcastEvent.responses (evs : List (BroadcastEvent E)) : List (Option E) := evs.filterMap BroadcastEvent.response?

@[simp] theorem BroadcastEvent.responses_nil : BroadcastEvent.responses ([] : List (BroadcastEvent E)) = [] := rfl

@[simp] theorem BroadcastEvent.responses_cons_response (err : Option E) (evs : List (BroadcastEvent E)) :
    BroadcastEvent.responses (.response err :: evs) = err :: BroadcastEvent.responses evs := rfl

@[simp] theorem BroadcastEvent.responses_cons_wait (evs : List (BroadcastEvent E)) :
    BroadcastEvent.responses (.wait :: evs) = BroadcastEvent.responses evs := rfl

def firstError : List (Option E) → Option E
  | [] => none
  | some e :: _ => some e
  | none :: rs => firstError rs

def okCount : List (Option E) → Nat
  | [] => 0
  | some _ :: _ => 0
  | none :: rs => okCount rs + 1

end Handler

/-! ## A broadcast answers with its first error -/

section Answer

variable {E : Type}

theorem firstError_append_singleton (acc : List (Option E)) (r : Option E) :
    firstError (acc ++ [r]) = (firstError acc).or r := by
  induction acc with
  | nil => cases r <;> rfl
  | cons a acc ih => cases a <;> simp [firstError, ih]

theorem okCount_append_of_isSome {acc : List (Option E)} (h : (firstError acc).isSome) (rs : List (Option E)) :
    okCount (acc ++ rs) = okCount acc := by
  induction acc with
  | nil => simp [firstError] at h
  | cons a acc ih =>
    cases a with
    | some e => rfl
    | none => simp [okCount, ih (by simpa [firstError] using h)]

theorem okCount_eq_length {acc : List (Option E)} (h : firstError acc = none) : okCount acc = acc.length := by
  induction acc with
  | nil => rfl
  | cons a acc ih =>
    cases a with
    | some e => simp [firstError] at h
    | none => simp [okCount, ih (by simpa [firstError] using h)]

theorem okCount_le_length (acc : List (Option E)) : okCount acc ≤ acc.length := by
  induction acc with
  | nil => exact le_rfl
  | cons a acc ih =>
    cases a with
    | some e => exact Nat.zero_le _
    | none => simp [okCount, ih]

theorem okCount_append_singleton {acc : List (Option E)} (h : firstError acc = none) (r : Option E) :
    okCount (acc ++ [r]) = okCount acc + (if r.isNone then 1 else 0) := by
  induction acc with
  | nil => cases r <;> rfl
  | cons a acc ih =>
    cases a with
    | some e => simp [firstError] at h
    | none =>
      simp only [List.cons_append, okCount, ih (by simpa [firstError] using h)]
      omega

theorem run_append (xs ys : List (BroadcastEvent E)) (t : broadcastRespHandler E) :
    broadcastRespHandler.run (xs ++ ys) t =
      match broadcastRespHandler.run xs t with
      | .ok t' => broadcastRespHandler.run ys t'
      | .error f => .error f := by
  induction xs generalizing t with
  | nil => rfl
  | cons ev xs ih =>
    simp only [List.cons_append, broadcastRespHandler.run]
    cases t.step ev with
    | ok t' => exact ih t'
    | error f => rfl

theorem run_singleton (ev : BroadcastEvent E) (t : broadcastRespHandler E) :
    broadcastRespHandler.run [ev] t = t.step ev := by
  simp only [broadcastRespHandler.run]
  cases t.step ev <;> rfl

def pendingHandler (acc : List (Option E)) : broadcastRespHandler E :=
  ⟨GoChan.Chan.empty 1, -1, okCount acc, firstError acc⟩

theorem HandleResponse_pendingHandler (acc : List (Option E)) (r : Option E) :
    (pendingHandler acc).HandleResponse r = .ok (pendingHandler (acc ++ [r])) := by
  cases hErr : firstError acc with
  | some e =>
    have hSome : (firstError acc).isSome := by simp [hErr]
    simp [broadcastRespHandler.HandleResponse, pendingHandler, hErr, okCount_append_of_isSome hSome,
      firstError_append_singleton]
  | none =>
    cases r with
    | some e =>
      simp [broadcastRespHandler.HandleResponse, broadcastRespHandler.checkSendToChannel, pendingHandler, hErr,
        okCount_append_singleton hErr, firstError_append_singleton]
    | none =>
      simp [broadcastRespHandler.HandleResponse, broadcastRespHandler.checkSendToChannel, pendingHandler, hErr,
        okCount_append_singleton hErr, firstError_append_singleton]

theorem run_pendingHandler (pre : List (BroadcastEvent E)) (hPre : ∀ ev ∈ pre, ∃ err, ev = .response err) :
    ∀ acc, broadcastRespHandler.run pre (pendingHandler acc) =
      .ok (pendingHandler (acc ++ BroadcastEvent.responses pre)) := by
  induction pre with
  | nil => intro acc; simp [broadcastRespHandler.run, BroadcastEvent.responses]
  | cons ev pre ih =>
    intro acc
    obtain ⟨r, rfl⟩ := hPre ev List.mem_cons_self
    have hRest := ih (fun ev hEv => hPre ev (List.mem_cons_of_mem _ hEv)) (acc ++ [r])
    simp only [broadcastRespHandler.run, broadcastRespHandler.step, HandleResponse_pendingHandler, hRest]
    simp [BroadcastEvent.responses, BroadcastEvent.response?]

def answered (n : Int) (acc : List (Option E)) : Prop := (firstError acc).isSome ∨ (okCount acc : Int) = n

instance (n : Int) (acc : List (Option E)) : Decidable (answered n acc) := by
  unfold answered
  infer_instance

/-- The handler once its count is set: what it counted, its channel, and whether
the waiter came. It sent its answer once it has one, and nothing before. -/
structure Counting (n : Int) (acc : List (Option E)) (waited : Bool) (t : broadcastRespHandler E) : Prop where
  required : t.requiredResponses = n
  count : t.respCount = okCount acc
  err : t.err = firstError acc
  cap : t.ch.cap = 1
  sent : t.ch.sent = if answered n acc then [firstError acc] else []
  waiting : waited = true → t.ch.buf = [] ∧ (t.ch.sent = [] → 0 < t.ch.parked)
  idle : waited = false → t.ch.parked = 0 ∧ t.ch.received = []

theorem length_sent_le {n : Int} {acc : List (Option E)} {w : Bool} {t : broadcastRespHandler E}
    (hc : Counting n acc w t) : t.ch.sent.length ≤ 1 := by
  rw [hc.sent]
  split <;> simp

theorem sendToChannel_of_send {t : broadcastRespHandler E} {x : Option E} {ch : GoChan.Chan (Option E)}
    (h : t.ch.send x = some ch) : t.sendToChannel x = .ok { t with ch := ch } := by
  simp [broadcastRespHandler.sendToChannel, h]

theorem sendToChannel_of_blocked {t : broadcastRespHandler E} {x : Option E} (h : t.ch.send x = none) :
    t.sendToChannel x = .error .blocked := by
  simp [broadcastRespHandler.sendToChannel, h]

theorem checkSendToChannel_of_err {t : broadcastRespHandler E} {e : E} (hReq : t.requiredResponses ≠ -1)
    (hErr : t.err = some e) : t.checkSendToChannel = t.sendToChannel (some e) := by
  simp [broadcastRespHandler.checkSendToChannel, hReq, hErr]

theorem checkSendToChannel_of_count {t : broadcastRespHandler E} (hReq : t.requiredResponses ≠ -1)
    (hErr : t.err = none) (hCount : t.respCount = t.requiredResponses) :
    t.checkSendToChannel = t.sendToChannel none := by
  simp [broadcastRespHandler.checkSendToChannel, hReq, hErr, hCount]

theorem checkSendToChannel_of_lt {t : broadcastRespHandler E} (hReq : t.requiredResponses ≠ -1)
    (hErr : t.err = none) (hLt : t.respCount < t.requiredResponses) : t.checkSendToChannel = .ok t := by
  simp [broadcastRespHandler.checkSendToChannel, hReq, hErr, hLt.ne, not_lt.mpr hLt.le]

theorem checkSendToChannel_of_gt {t : broadcastRespHandler E} (hReq : t.requiredResponses ≠ -1)
    (hErr : t.err = none) (hGt : t.requiredResponses < t.respCount) :
    t.checkSendToChannel = .error (.panic "too many responses") := by
  simp [broadcastRespHandler.checkSendToChannel, hReq, hErr, hGt.ne', hGt]

theorem Counting.send_answer {n : Int} {acc : List (Option E)} {w : Bool} {t : broadcastRespHandler E}
    (hc : Counting n acc w t) (hNot : ¬ answered n acc) (x : Option E) :
    ∃ ch, t.ch.send x = some ch ∧ ch.cap = 1 ∧ ch.sent = [x] ∧
      (w = true → ch.buf = [] ∧ (ch.sent = [] → 0 < ch.parked)) ∧ (w = false → ch.parked = 0 ∧ ch.received = []) := by
  have hSent : t.ch.sent = [] := by rw [hc.sent, if_neg hNot]
  obtain ⟨ch, hSend⟩ := GoChan.Chan.send_of_sent_nil (by rw [hc.cap]; omega) hSent x
  obtain ⟨hCap, hSent'⟩ := GoChan.Chan.send_eq_some hSend
  refine ⟨ch, hSend, hCap.trans hc.cap, by rw [hSent', hSent]; rfl, ?_, ?_⟩
  · intro hw
    obtain ⟨-, hParked⟩ := hc.waiting hw
    exact ⟨GoChan.Chan.buf_send_of_parked (hParked hSent) hSend, fun h => by simp [hSent', hSent] at h⟩
  · intro hw
    obtain ⟨hParked, hRec⟩ := hc.idle hw
    obtain ⟨hParked', hRec'⟩ := GoChan.Chan.send_of_parked_eq_zero hParked hSend
    exact ⟨hParked', hRec'.trans hRec⟩

theorem Counting.init (acc : List (Option E)) (n : Nat) (hLe : acc.length ≤ n) :
    ∃ t, (pendingHandler acc).setRequiredResponses n = .ok t ∧ Counting n acc false t := by
  have hReq : ((n : Int) : Int) ≠ -1 := by omega
  have hc : Counting n acc false { pendingHandler acc with requiredResponses := n } ∨ answered n acc := by
    by_cases hAns : answered n acc
    · exact .inr hAns
    · exact .inl ⟨rfl, rfl, rfl, rfl, by simp [pendingHandler, if_neg hAns], by simp, fun _ => ⟨rfl, rfl⟩⟩
  have hLen := okCount_le_length acc
  cases hErr : firstError acc with
  | some e =>
    have hAns : answered n acc := .inl (by simp [hErr])
    have hSend := GoChan.Chan.send_of_sent_nil (c := GoChan.Chan.empty 1) Nat.one_pos rfl (some e)
    obtain ⟨ch, hCh⟩ := hSend
    obtain ⟨hCap, hSent⟩ := GoChan.Chan.send_eq_some hCh
    obtain ⟨hParked, hRec⟩ := GoChan.Chan.send_of_parked_eq_zero rfl hCh
    refine ⟨{ pendingHandler acc with requiredResponses := n, ch := ch }, ?_, ?_⟩
    · rw [broadcastRespHandler.setRequiredResponses, checkSendToChannel_of_err (e := e) hReq (by simp [pendingHandler, hErr])]
      exact sendToChannel_of_send hCh
    · exact ⟨rfl, rfl, rfl, hCap, by simp [hSent, if_pos hAns, hErr], by simp, fun _ => ⟨hParked, hRec⟩⟩
  | none =>
    by_cases hFull : okCount acc = n
    · have hAns : answered n acc := .inr (by simp [hFull])
      obtain ⟨ch, hCh⟩ := GoChan.Chan.send_of_sent_nil (c := GoChan.Chan.empty 1) Nat.one_pos rfl none
      obtain ⟨hCap, hSent⟩ := GoChan.Chan.send_eq_some hCh
      obtain ⟨hParked, hRec⟩ := GoChan.Chan.send_of_parked_eq_zero rfl hCh
      refine ⟨{ pendingHandler acc with requiredResponses := n, ch := ch }, ?_, ?_⟩
      · rw [broadcastRespHandler.setRequiredResponses,
          checkSendToChannel_of_count hReq (by simp [pendingHandler, hErr]) (by simp [pendingHandler, hFull])]
        exact sendToChannel_of_send hCh
      · exact ⟨rfl, rfl, rfl, hCap, by simp [hSent, if_pos hAns, hErr], by simp, fun _ => ⟨hParked, hRec⟩⟩
    · rcases hc with hc | hAns
      · refine ⟨_, ?_, hc⟩
        rw [broadcastRespHandler.setRequiredResponses]
        exact checkSendToChannel_of_lt hReq (by simp [pendingHandler, hErr]) (by simp [pendingHandler]; omega)
      · rcases hAns with hSome | hEq
        · simp [hErr] at hSome
        · exact absurd (by exact_mod_cast hEq) hFull

theorem Counting.response {n : Int} {acc : List (Option E)} {w : Bool} {t : broadcastRespHandler E}
    (hc : Counting n acc w t) (hRoom : (acc.length : Int) < n) (r : Option E) :
    ∃ t', t.HandleResponse r = .ok t' ∧ Counting n (acc ++ [r]) w t' := by
  have hReq : t.requiredResponses ≠ -1 := by rw [hc.required]; omega
  cases hErr : firstError acc with
  | some e =>
    have hSome : (firstError acc).isSome := by simp [hErr]
    have hAns : ∀ acc', firstError acc' = some e → answered n acc' := fun _ h => .inl (by simp [h])
    have hErr' : firstError (acc ++ [r]) = some e := by simp [firstError_append_singleton, hErr]
    refine ⟨t, by simp [broadcastRespHandler.HandleResponse, hc.err, hErr], ?_⟩
    refine ⟨hc.required, by rw [hc.count, okCount_append_of_isSome hSome], by rw [hc.err, hErr, hErr'], hc.cap, ?_,
      hc.waiting, hc.idle⟩
    rw [hc.sent, if_pos (hAns acc hErr), if_pos (hAns _ hErr'), hErr, hErr']
  | none =>
    have hLen : okCount acc = acc.length := okCount_eq_length hErr
    have hNot : ¬ answered n acc := by
      rintro (hSome | hEq)
      · simp [hErr] at hSome
      · omega
    cases r with
    | some e =>
      have hErr' : firstError (acc ++ [some e]) = some e := by simp [firstError_append_singleton, hErr]
      obtain ⟨ch, hCh, hCap, hSent, hWait, hIdle⟩ := hc.send_answer hNot (some e)
      refine ⟨{ t with err := some e, ch := ch }, ?_, ?_⟩
      · rw [broadcastRespHandler.HandleResponse, if_neg (by simp [hc.err, hErr])]
        rw [checkSendToChannel_of_err (t := { t with err := some e }) hReq rfl]
        exact sendToChannel_of_send hCh
      · refine ⟨hc.required, ?_, hErr'.symm, hCap, ?_, hWait, hIdle⟩
        · rw [hc.count, okCount_append_singleton hErr]
          simp
        · rw [hSent, if_pos (.inl (by simp [hErr'])), hErr']
    | none =>
      have hErr' : firstError (acc ++ [none]) = none := by simp [firstError_append_singleton, hErr]
      have hCount' : okCount (acc ++ [none]) = okCount acc + 1 := by
        rw [okCount_append_singleton hErr]
        simp
      have hLen' : okCount (acc ++ [none]) = acc.length + 1 := by omega
      by_cases hFull : ((acc.length + 1 : Nat) : Int) = n
      · -- the last response: the handler sends its answer
        obtain ⟨ch, hCh, hCap, hSent, hWait, hIdle⟩ := hc.send_answer hNot none
        refine ⟨{ t with respCount := t.respCount + 1, ch := ch }, ?_, ?_⟩
        · rw [broadcastRespHandler.HandleResponse, if_neg (by simp [hc.err, hErr])]
          rw [checkSendToChannel_of_count (t := { t with respCount := t.respCount + 1 }) hReq
            (by simp [hc.err, hErr]) (by simp only [hc.count, hc.required, hLen]; push_cast at hFull ⊢; omega)]
          exact sendToChannel_of_send hCh
        · refine ⟨hc.required, by rw [hc.count, hCount']; push_cast; rfl, by rw [hc.err, hErr, hErr'], hCap, ?_,
            hWait, hIdle⟩
          rw [hSent, if_pos (.inr (by rw [hLen']; exact hFull)), hErr']
      · -- more responses to come: the handler only counts
        refine ⟨{ t with respCount := t.respCount + 1 }, ?_, ?_⟩
        · rw [broadcastRespHandler.HandleResponse, if_neg (by simp [hc.err, hErr])]
          exact checkSendToChannel_of_lt (t := { t with respCount := t.respCount + 1 }) hReq (by simp [hc.err, hErr])
            (by simp only [hc.count, hc.required, hLen]; push_cast at hFull hRoom ⊢; omega)
        · have hNot' : ¬ answered n (acc ++ [none]) := by
            rintro (hSome | hEq)
            · simp [hErr'] at hSome
            · rw [hLen'] at hEq
              exact hFull hEq
          refine ⟨hc.required, by rw [hc.count, hCount']; push_cast; rfl, by rw [hc.err, hErr, hErr'], hc.cap, ?_,
            hc.waiting, hc.idle⟩
          rw [hc.sent, if_neg hNot, if_neg hNot']

theorem Counting.wait {n : Int} {acc : List (Option E)} {w : Bool} {t : broadcastRespHandler E}
    (hc : Counting n acc w t) : Counting n acc true t.waitForResponse := by
  have hOne := length_sent_le hc
  refine ⟨hc.required, hc.count, hc.err, ?_, ?_, fun _ => GoChan.Chan.buf_recv_of_length_sent hOne, nofun⟩
  · simp [broadcastRespHandler.waitForResponse, hc.cap]
  · simp only [broadcastRespHandler.waitForResponse, GoChan.Chan.sent_recv]
    exact hc.sent

theorem Counting.run {n : Int} (post : List (BroadcastEvent E)) :
    ∀ {acc : List (Option E)} {w : Bool} {t : broadcastRespHandler E}, Counting n acc w t →
      (∀ ev ∈ post, (∃ err, ev = .response err) ∨ ev = .wait) →
      (acc.length : Int) + (BroadcastEvent.responses post).length ≤ n →
      ∃ t', broadcastRespHandler.run post t = .ok t' ∧
        Counting n (acc ++ BroadcastEvent.responses post) (w || post.any BroadcastEvent.isWait) t' := by
  induction post with
  | nil =>
    intro acc w t hc _ _
    exact ⟨t, rfl, by simpa [BroadcastEvent.responses] using hc⟩
  | cons ev post ih =>
    intro acc w t hc hEvs hLen
    have hRest : ∀ ev ∈ post, (∃ err, ev = .response err) ∨ ev = .wait := fun ev h => hEvs ev (.tail _ h)
    rcases hEvs ev List.mem_cons_self with ⟨r, rfl⟩ | rfl
    · have hLen₁ : ((acc ++ [r]).length : Int) + (BroadcastEvent.responses post).length ≤ n := by
        simp [BroadcastEvent.responses, BroadcastEvent.response?] at hLen ⊢
        omega
      obtain ⟨t₁, hStep, hc₁⟩ := hc.response (by simp [BroadcastEvent.responses, BroadcastEvent.response?] at hLen; omega) r
      obtain ⟨t', hRun, hc'⟩ := ih hc₁ hRest hLen₁
      refine ⟨t', by simp only [broadcastRespHandler.run, broadcastRespHandler.step, hStep]; exact hRun, ?_⟩
      simpa [BroadcastEvent.isWait] using hc'
    · obtain ⟨t', hRun, hc'⟩ := ih hc.wait hRest (by simpa using hLen)
      refine ⟨t', by simp only [broadcastRespHandler.run, broadcastRespHandler.step]; exact hRun, ?_⟩
      simpa [BroadcastEvent.isWait] using hc'

theorem run_counting (pre post : List (BroadcastEvent E)) (n : Nat) (hPre : ∀ ev ∈ pre, ∃ err, ev = .response err)
    (hPost : ∀ ev ∈ post, (∃ err, ev = .response err) ∨ ev = .wait)
    (hCount : (BroadcastEvent.responses pre).length + (BroadcastEvent.responses post).length ≤ n) :
    ∃ t, newBroadcastRespHandler.run (pre ++ .setRequired n :: post) = .ok t ∧
      Counting n (BroadcastEvent.responses pre ++ BroadcastEvent.responses post) (post.any BroadcastEvent.isWait) t := by
  have hPreRun : newBroadcastRespHandler.run pre = .ok (pendingHandler (BroadcastEvent.responses pre)) :=
    run_pendingHandler pre hPre []
  obtain ⟨t₀, hSet, hc₀⟩ := Counting.init (BroadcastEvent.responses pre) n (by omega)
  obtain ⟨t, hRun, hc⟩ := Counting.run post hc₀ hPost (by omega)
  refine ⟨t, ?_, by simpa using hc⟩
  rw [run_append, hPreRun]
  simp only [broadcastRespHandler.run, broadcastRespHandler.step, hSet]
  exact hRun

theorem answered_of_length {n : Nat} {acc : List (Option E)} (hLen : acc.length = n) : answered n acc := by
  cases hErr : firstError acc with
  | some e => exact .inl (by simp [hErr])
  | none => exact .inr (by rw [okCount_eq_length hErr, hLen])

/-- A broadcast whose every counted send is answered once, whatever the order
of the answers, the count and the waiter's receive: the handler never blocks
nor panics, and the one value it ever sends, which the waiter receives if it
waits, is the first error, or nil when every answer is ok. -/
theorem broadcast_first_error (pre post : List (BroadcastEvent E)) (n : Nat)
    (hPre : ∀ ev ∈ pre, ∃ err, ev = .response err) (hPost : ∀ ev ∈ post, (∃ err, ev = .response err) ∨ ev = .wait)
    (hCount : (BroadcastEvent.responses pre).length + (BroadcastEvent.responses post).length = n) :
    ∃ t, newBroadcastRespHandler.run (pre ++ .setRequired n :: post) = .ok t ∧
      t.ch.sent = [firstError (BroadcastEvent.responses pre ++ BroadcastEvent.responses post)] ∧
      (BroadcastEvent.wait ∈ post →
        t.ch.received = [firstError (BroadcastEvent.responses pre ++ BroadcastEvent.responses post)]) := by
  obtain ⟨t, hRun, hc⟩ := run_counting pre post n hPre hPost hCount.le
  have hAns : answered n (BroadcastEvent.responses pre ++ BroadcastEvent.responses post) :=
    answered_of_length (by rw [List.length_append, hCount])
  have hSent := hc.sent
  rw [if_pos hAns] at hSent
  refine ⟨t, hRun, hSent, fun hWait => ?_⟩
  -- the waiter came, so nothing stays in the buffer
  have hWaited : post.any BroadcastEvent.isWait = true := List.any_eq_true.mpr ⟨_, hWait, rfl⟩
  obtain ⟨hBuf, -⟩ := hc.waiting hWaited
  simpa [GoChan.Chan.sent, hBuf] using hSent

theorem broadcast_first_error_three :
    (∀ ev ∈ ([.response none] : List (BroadcastEvent String)), ∃ err, ev = .response err) ∧
      (∀ ev ∈ ([.response (some "boom"), .wait, .response none] : List (BroadcastEvent String)),
        (∃ err, ev = .response err) ∨ ev = .wait) ∧
      (BroadcastEvent.responses ([.response none] : List (BroadcastEvent String))).length +
          (BroadcastEvent.responses ([.response (some "boom"), .wait, .response none] : List (BroadcastEvent String))).length = 3 ∧
      ∃ t, newBroadcastRespHandler.run
          ([.response none] ++ .setRequired 3 :: [.response (some "boom"), .wait, .response none]) = .ok t ∧
        t.ch.sent = [firstError ([none] ++ [some "boom", none])] ∧
        (BroadcastEvent.wait ∈ ([.response (some "boom"), .wait, .response none] : List (BroadcastEvent String)) →
          t.ch.received = [firstError ([none] ++ [some "boom", none])]) := by
  have hPre : ∀ ev ∈ ([.response none] : List (BroadcastEvent String)), ∃ err, ev = .response err := by simp
  have hPost : ∀ ev ∈ ([.response (some "boom"), .wait, .response none] : List (BroadcastEvent String)),
      (∃ err, ev = .response err) ∨ ev = .wait := by simp
  have hCount : (BroadcastEvent.responses ([.response none] : List (BroadcastEvent String))).length +
      (BroadcastEvent.responses ([.response (some "boom"), .wait, .response none] : List (BroadcastEvent String))).length =
        3 := rfl
  exact ⟨hPre, hPost, hCount, broadcast_first_error _ _ 3 hPre hPost hCount⟩

theorem responses_of_ok {evs : List (BroadcastEvent E)} (h : ∀ ev ∈ evs, ev = .response none) :
    BroadcastEvent.responses evs = List.replicate evs.length none := by
  induction evs with
  | nil => rfl
  | cons ev evs ih =>
    rw [h ev List.mem_cons_self, BroadcastEvent.responses_cons_response,
      ih (fun ev' h' => h ev' (.tail _ h')), List.length_cons, List.replicate_succ]

theorem firstError_replicate_none (k : Nat) : firstError (List.replicate k (none : Option E)) = none := by
  induction k with
  | zero => rfl
  | succ k ih => simpa [List.replicate_succ, firstError] using ih

/-- An answer beyond the counted ones, after every counted send was answered ok
and before the waiter received: an error's send blocks on the full channel,
holding the handler's lock, and an ok panics. -/
theorem broadcast_extra_response (pre post : List (BroadcastEvent E)) (n : Nat)
    (hPre : ∀ ev ∈ pre, ev = .response none) (hPost : ∀ ev ∈ post, ev = .response none)
    (hCount : pre.length + post.length = n) (e : E) :
    newBroadcastRespHandler.run (pre ++ .setRequired n :: post ++ [.response (some e)]) = .error .blocked ∧
      newBroadcastRespHandler.run (pre ++ .setRequired n :: post ++ [.response none]) =
        .error (.panic "too many responses") := by
  have hAll : BroadcastEvent.responses pre ++ BroadcastEvent.responses post = List.replicate n none := by
    rw [responses_of_ok hPre, responses_of_ok hPost, List.replicate_append_replicate, hCount]
  obtain ⟨t, hRun, hc⟩ := run_counting pre post n (fun ev h => ⟨none, hPre ev h⟩)
    (fun ev h => .inl ⟨none, hPost ev h⟩) (by rw [← List.length_append, hAll, List.length_replicate])
  have hNoWait : post.any BroadcastEvent.isWait = false :=
    List.any_eq_false.mpr (fun ev h => by rw [hPost ev h]; exact Bool.false_ne_true)
  rw [hAll, hNoWait] at hc
  -- every counted send was answered ok: the answer sits in the full buffer, with no waiter
  have hErr : t.err = none := hc.err.trans (firstError_replicate_none n)
  have hCountN : t.respCount = n := by
    rw [hc.count, okCount_eq_length (firstError_replicate_none n), List.length_replicate]
  obtain ⟨hParked, hRec⟩ := hc.idle rfl
  have hBuf : t.ch.buf.length = t.ch.cap := by
    have hSent := hc.sent
    rw [if_pos (answered_of_length (List.length_replicate ..))] at hSent
    rw [GoChan.Chan.sent, hRec, List.nil_append] at hSent
    rw [hSent, hc.cap]
    rfl
  have hReq : t.requiredResponses ≠ -1 := by rw [hc.required]; omega
  have hNotErr : ¬ t.err.isSome := by simp [hErr]
  refine ⟨?_, ?_⟩
  · rw [run_append, hRun]
    show broadcastRespHandler.run [.response (some e)] t = _
    rw [run_singleton, broadcastRespHandler.step, broadcastRespHandler.HandleResponse, if_neg hNotErr]
    rw [checkSendToChannel_of_err (t := { t with err := some e }) hReq rfl]
    exact sendToChannel_of_blocked (GoChan.Chan.send_eq_none hParked hBuf _)
  · rw [run_append, hRun]
    show broadcastRespHandler.run [.response none] t = _
    rw [run_singleton, broadcastRespHandler.step, broadcastRespHandler.HandleResponse, if_neg hNotErr]
    exact checkSendToChannel_of_gt (t := { t with respCount := t.respCount + 1 }) hReq hErr
      (by simp only [hc.required, hCountN]; omega)

theorem broadcast_extra_response_one :
    (∀ ev ∈ ([.response none] : List (BroadcastEvent String)), ev = .response none) ∧
      (∀ ev ∈ ([] : List (BroadcastEvent String)), ev = .response none) ∧
      ([.response none] : List (BroadcastEvent String)).length + ([] : List (BroadcastEvent String)).length = 1 ∧
      newBroadcastRespHandler.run (([.response none] : List (BroadcastEvent String)) ++ .setRequired 1 :: [] ++
          [.response (some "connection closed")]) = .error .blocked ∧
      newBroadcastRespHandler.run (([.response none] : List (BroadcastEvent String)) ++ .setRequired 1 :: [] ++
          [.response none]) = .error (.panic "too many responses") := by
  have hPre : ∀ ev ∈ ([.response none] : List (BroadcastEvent String)), ev = .response none := by simp
  have hPost : ∀ ev ∈ ([] : List (BroadcastEvent String)), ev = .response none := by simp
  exact ⟨hPre, hPost, rfl, broadcast_extra_response _ _ 1 hPre hPost rfl "connection closed"⟩

end Answer

/-! ## Retrying a send -/

section Retry

variable {M H : Type} (pb : ProtoBuffer M)

/-- `Client.sendRequestWithRetry`: a send that fails goes again on the
connection `maybeCreateAndCacheConnection` returns, a new one or one another
goroutine made; the write of each connection goes through or not. -/
def Client.sendRequestWithRetry (conn : clientConnection H) (recreated : Except RemotingError (clientConnection H))
    (request : Option M) (rh : Option H) (writeOk retryWriteOk : Bool) :
    Except RemotingError Unit × clientConnection H × Option (clientConnection H) :=
  match conn.SendRequestAsync pb request rh writeOk with
  | (.ok _, conn') => (.ok (), conn', none)
  | (.error _, conn') =>
    match recreated with
    | .error e => (.error e, conn', none)
    | .ok fresh =>
      match fresh.SendRequestAsync pb request rh retryWriteOk with
      | (.ok _, fresh') => (.ok (), conn', some fresh')
      | (.error e, fresh') => (.error e, conn', some fresh')

theorem clientConnection.SendRequestAsync_write_fails (c : clientConnection H) (message : Option M)
    (respHandler : Option H) : ∃ e, (c.SendRequestAsync pb message respHandler false).1 = .error e := by
  unfold clientConnection.SendRequestAsync
  split
  · exact ⟨_, rfl⟩
  · generalize c.register message respHandler = reg
    obtain ⟨cr, c₁⟩ := reg
    simp only
    split
    · exact ⟨_, rfl⟩
    · split
      · exact ⟨_, rfl⟩
      · exact ⟨_, rfl⟩

theorem clientConnection.SendRequestAsync_ok (c : clientConnection H) (hOpen : c.closed = false) (message : Option M)
    (respHandler : Option H) {buf : Bytes} (hSer : (c.register message respHandler).1.serialize pb [] = .ok buf) :
    ∃ bytes, (c.SendRequestAsync pb message respHandler true).1 = .ok bytes := by
  unfold clientConnection.SendRequestAsync
  rw [if_neg (by simp [hOpen])]
  generalize hReg : c.register message respHandler = reg at hSer
  obtain ⟨cr, c₁⟩ := reg
  simp only at hSer ⊢
  rw [hSer]
  simp only
  rw [writeMessage, if_neg (by decide)]
  exact ⟨_, rfl⟩

theorem clientConnection.closeAction_calls {c : clientConnection H} {seq : Int64} {h : H}
    (hWaiting : c.respHandlers.lookup seq = some h) (answers : List (Answer M H)) :
    ⟨seq, h, .error .connectionClosed⟩ ∈ (clientConnection.closeAction (c, answers)).2 := by
  have hEntry : (⟨seq, h⟩ : Σ _ : Int64, H) ∈ c.respHandlers.entries := AList.mem_lookup_iff.mp (by simp [hWaiting])
  exact List.mem_append_right _ (List.mem_map.mpr ⟨_, hEntry, rfl⟩)

/-- A send whose first write fails on an open connection and that is retried on
a recreated open connection leaves its handler waiting in both connections,
each under its own sequence, whatever the retry returns; and the retry, which
`Broadcast` counts as one send, goes through when its request serializes and
its write does. The handler is then called twice: by the old connection's
close action with `ErrConnectionClosed`, and by the new connection, on the
response to its sequence or at its own close. -/
theorem sendRequestWithRetry_stores_twice (hL : pb.Lawful) (conn fresh : clientConnection H)
    (hOpen : conn.closed = false) (hFreshOpen : fresh.closed = false) (request : Option M) (h : H)
    (retryWriteOk : Bool) :
    ∃ r conn' fresh',
      Client.sendRequestWithRetry pb conn (.ok fresh) request (some h) false retryWriteOk = (r, conn', some fresh') ∧
      conn'.respHandlers.lookup (conn.reqSequence + 1) = some h ∧
      fresh'.respHandlers.lookup (fresh.reqSequence + 1) = some h ∧
      (retryWriteOk = true → (∃ buf, ClusterRequest.serialize pb ⟨true, fresh.reqSequence + 1, request⟩ [] = .ok buf) →
        r = .ok ()) ∧
      (∀ answers : List (Answer M H),
        ⟨conn.reqSequence + 1, h, .error .connectionClosed⟩ ∈ (clientConnection.closeAction (conn', answers)).2) ∧
      (∀ answers : List (Answer M H),
        ⟨fresh.reqSequence + 1, h, .error .connectionClosed⟩ ∈ (clientConnection.closeAction (fresh', answers)).2 ∧
        ∀ (resp : ClusterResponse M) (buff : Bytes), resp.sequence = fresh.reqSequence + 1 → Short resp.errMsg →
          resp.serialize pb [] = .ok buff →
          clientConnection.handleMessage pb (fresh', answers) responseMessageType buff =
            .ok ({ fresh' with respHandlers := fresh'.respHandlers.erase resp.sequence },
              answers ++ [⟨fresh.reqSequence + 1, h, resp.received.result⟩])) := by
  obtain ⟨e, hFirst⟩ := clientConnection.SendRequestAsync_write_fails pb conn request (some h)
  have hConn := clientConnection.SendRequestAsync_snd pb conn request (some h) false
  have hFresh := clientConnection.SendRequestAsync_snd pb fresh request (some h) retryWriteOk
  rw [if_neg (by simp [hOpen]), clientConnection.register_some] at hConn
  rw [if_neg (by simp [hFreshOpen]), clientConnection.register_some] at hFresh
  -- the handler waits in the old connection, stored before its write failed
  have hStored : ((conn.SendRequestAsync pb request (some h) false).2).respHandlers.lookup (conn.reqSequence + 1) =
      some h := by
    rw [hConn]
    exact AList.lookup_insert _
  have hStored' : ((fresh.SendRequestAsync pb request (some h) retryWriteOk).2).respHandlers.lookup
      (fresh.reqSequence + 1) = some h := by
    rw [hFresh]
    exact AList.lookup_insert _
  have hRetry : Client.sendRequestWithRetry pb conn (.ok fresh) request (some h) false retryWriteOk =
      (match (fresh.SendRequestAsync pb request (some h) retryWriteOk).1 with
        | .ok _ => .ok ()
        | .error e => .error e,
        (conn.SendRequestAsync pb request (some h) false).2,
        some (fresh.SendRequestAsync pb request (some h) retryWriteOk).2) := by
    unfold Client.sendRequestWithRetry
    rw [← Prod.mk.eta (p := conn.SendRequestAsync pb request (some h) false), hFirst]
    simp only
    rcases (fresh.SendRequestAsync pb request (some h) retryWriteOk) with ⟨r | r, fresh'⟩ <;> rfl
  refine ⟨_, _, _, hRetry, hStored, hStored', ?_, fun answers => clientConnection.closeAction_calls hStored answers,
    fun answers => ⟨clientConnection.closeAction_calls hStored' answers, ?_⟩⟩
  · rintro rfl ⟨buf, hSer⟩
    obtain ⟨bytes, hOk⟩ := clientConnection.SendRequestAsync_ok pb fresh hFreshOpen request (some h) hSer
    rw [hOk]
  · intro resp buff hSeq hShort hSer
    rw [← hSeq] at hStored' ⊢
    exact clientConnection.handleMessage_serialize hL resp hShort hSer _ answers hStored'

theorem sendRequestWithRetry_stores_twice_test :
    protoBuffer.Lawful ∧ (⟨∅, 0, false⟩ : clientConnection Unit).closed = false ∧
      (⟨∅, 4, false⟩ : clientConnection Unit).closed = false ∧
      ∃ r conn' fresh',
        Client.sendRequestWithRetry protoBuffer ⟨∅, 0, false⟩ (.ok ⟨∅, 4, false⟩) (some (.RemotingTestMessage, [5]))
            (some ()) false true = (r, conn', some fresh') ∧
        conn'.respHandlers.lookup ((⟨∅, 0, false⟩ : clientConnection Unit).reqSequence + 1) = some () ∧
        fresh'.respHandlers.lookup ((⟨∅, 4, false⟩ : clientConnection Unit).reqSequence + 1) = some () ∧
        (true = true → (∃ buf, ClusterRequest.serialize protoBuffer
            ⟨true, (⟨∅, 4, false⟩ : clientConnection Unit).reqSequence + 1, some (.RemotingTestMessage, [5])⟩ [] =
              .ok buf) → r = .ok ()) ∧
        (∀ answers : List (Answer (ClusterMessageKind × Bytes) Unit),
          ⟨(⟨∅, 0, false⟩ : clientConnection Unit).reqSequence + 1, (), .error .connectionClosed⟩ ∈
            (clientConnection.closeAction (conn', answers)).2) ∧
        (∀ answers : List (Answer (ClusterMessageKind × Bytes) Unit),
          ⟨(⟨∅, 4, false⟩ : clientConnection Unit).reqSequence + 1, (), .error .connectionClosed⟩ ∈
            (clientConnection.closeAction (fresh', answers)).2 ∧
          ∀ (resp : ClusterResponse (ClusterMessageKind × Bytes)) (buff : Bytes),
            resp.sequence = (⟨∅, 4, false⟩ : clientConnection Unit).reqSequence + 1 → Short resp.errMsg →
            resp.serialize protoBuffer [] = .ok buff →
            clientConnection.handleMessage protoBuffer (fresh', answers) responseMessageType buff =
              .ok ({ fresh' with respHandlers := fresh'.respHandlers.erase resp.sequence },
                answers ++ [⟨(⟨∅, 4, false⟩ : clientConnection Unit).reqSequence + 1, (), resp.received.result⟩])) :=
  ⟨protoBuffer_lawful, rfl, rfl, sendRequestWithRetry_stores_twice protoBuffer protoBuffer_lawful ⟨∅, 0, false⟩
    ⟨∅, 4, false⟩ rfl rfl (some (.RemotingTestMessage, [5])) () true⟩

end Retry

end PranaDB
