import Mathlib

/-! # A buffered channel

A channel of capacity `cap` as Go runs it: a send hands its value to a
receiver parked on the channel, or puts it in the buffer if there is room, and
otherwise blocks; a receive takes the head of the buffer, or parks. Receivers
only park on an empty buffer, and the buffer never holds more than `cap`
values; both are fields of the structure. What the channel took in is what
was received followed by what is buffered, in the order of the sends
(`send_eq_some`, `sent_recv`).
-/

namespace GoChan
set_option autoImplicit false

variable {α : Type}

structure Chan (α : Type) where
  cap : Nat
  buf : List α
  parked : Nat
  received : List α
  buf_le : buf.length ≤ cap
  parked_empty : 0 < parked → buf = []

namespace Chan

def empty (cap : Nat) : Chan α := ⟨cap, [], 0, [], by simp, fun _ => rfl⟩

def sent (c : Chan α) : List α := c.received ++ c.buf

def send (c : Chan α) (x : α) : Option (Chan α) :=
  if hParked : 0 < c.parked then
    some ⟨c.cap, c.buf, c.parked - 1, c.received ++ [x], c.buf_le, fun _ => c.parked_empty hParked⟩
  else if hRoom : c.buf.length < c.cap then
    some ⟨c.cap, c.buf ++ [x], c.parked, c.received, by simp; omega, fun h => absurd h hParked⟩
  else none

def recv (c : Chan α) : Chan α :=
  match hBuf : c.buf with
  | x :: rest =>
    ⟨c.cap, rest, c.parked, c.received ++ [x],
      by have hLe := c.buf_le; rw [hBuf] at hLe; simp at hLe; omega,
      fun hParked => absurd (c.parked_empty hParked) (by simp [hBuf])⟩
  | [] => ⟨c.cap, [], c.parked + 1, c.received, by simp, fun _ => rfl⟩

@[simp] theorem sent_empty (cap : Nat) : (empty cap : Chan α).sent = [] := rfl

@[simp] theorem cap_recv (c : Chan α) : c.recv.cap = c.cap := by
  unfold recv
  split <;> rfl

theorem send_eq_some {c c' : Chan α} {x : α} (h : c.send x = some c') :
    c'.cap = c.cap ∧ c'.sent = c.sent ++ [x] := by
  unfold send at h
  split at h
  · cases h
    have hBuf := c.parked_empty ‹_›
    simp [sent, hBuf]
  · split at h
    · cases h
      simp [sent]
    · cases h

theorem sent_recv (c : Chan α) : c.recv.sent = c.sent := by
  unfold recv
  split
  · rename_i x rest hBuf
    simp [sent, hBuf]
  · rename_i hBuf
    simp [sent, hBuf]

theorem send_of_sent_nil {c : Chan α} (hCap : 0 < c.cap) (hSent : c.sent = []) (x : α) :
    ∃ c', c.send x = some c' := by
  have hBuf : c.buf = [] := (List.append_eq_nil_iff.mp hSent).2
  unfold send
  split
  · exact ⟨_, rfl⟩
  · rw [dif_pos (by simp [hBuf]; omega)]
    exact ⟨_, rfl⟩

theorem send_eq_none {c : Chan α} (hParked : c.parked = 0) (hFull : c.buf.length = c.cap) (x : α) :
    c.send x = none := by
  unfold send
  rw [dif_neg (by omega), dif_neg (by omega)]

theorem buf_recv_of_length_sent {c : Chan α} (hOne : c.sent.length ≤ 1) :
    c.recv.buf = [] ∧ (c.recv.sent = [] → 0 < c.recv.parked) := by
  unfold recv
  split
  · rename_i x rest hBuf
    have hLen : (c.received ++ x :: rest).length ≤ 1 := by rw [← hBuf]; exact hOne
    simp only [List.length_append, List.length_cons] at hLen
    refine ⟨?_, fun hNil => ?_⟩
    · show rest = []
      exact List.eq_nil_of_length_eq_zero (by omega)
    · simp [sent] at hNil
  · exact ⟨rfl, fun _ => Nat.succ_pos _⟩

theorem send_of_parked_eq_zero {c c' : Chan α} {x : α} (hParked : c.parked = 0) (h : c.send x = some c') :
    c'.parked = 0 ∧ c'.received = c.received := by
  unfold send at h
  rw [dif_neg (by omega)] at h
  split at h
  · cases h
    exact ⟨hParked, rfl⟩
  · cases h

theorem buf_send_of_parked {c c' : Chan α} {x : α} (hParked : 0 < c.parked) (h : c.send x = some c') :
    c'.buf = [] := by
  unfold send at h
  rw [dif_pos hParked] at h
  cases h
  exact c.parked_empty hParked

end Chan

end GoChan
