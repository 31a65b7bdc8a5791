import Mathlib

/-! # Reassembling frames from a stream read in chunks

A frame format writes each value as a block of symbols (`encode`) and takes one
whole frame off the front of a buffer (`peel`), finding none in a buffer that
only begins a frame. A reader that appends each chunk it gets to what it kept
and peels the whole frames off sees the frames of the stream in order, however
the stream is cut: any prefix of a stream of frames is some whole frames
followed by the beginning of the next one (`prefix_split`), and peeling such a
buffer gives back exactly those frames (`peelAll_frames`). The frames go to a
handler one by one (`deliverAll`), which may stop the reader.
-/

namespace Reassembly
set_option autoImplicit false

variable {β α σ ε : Type}

/-- A frame format over symbols `β` for values `α`. -/
structure Format (β α : Type) where
  encode : α → List β
  peel : List β → Option (α × List β)
  encode_ne_nil : ∀ a, encode a ≠ []
  peel_encode : ∀ a rest, peel (encode a ++ rest) = some (a, rest)
  peel_nil : peel [] = none
  peel_prefix : ∀ a x y, x ++ y = encode a → y ≠ [] → peel x = none

/-- Handing values to a handler one after the other; the first failure stops
the run with the state the handler failed in. -/
def deliverAll (handler : σ → α → Except ε σ) : List α → σ → Except (ε × σ) σ
  | [], s => .ok s
  | a :: as, s =>
    match handler s a with
    | .ok s' => deliverAll handler as s'
    | .error e => .error (e, s)

theorem deliverAll_append (handler : σ → α → Except ε σ) (as bs : List α) (s : σ) :
    deliverAll handler (as ++ bs) s =
      match deliverAll handler as s with
      | .ok s' => deliverAll handler bs s'
      | .error e => .error e := by
  induction as generalizing s with
  | nil => rfl
  | cons a as ih =>
    simp only [List.cons_append, deliverAll]
    cases handler s a with
    | ok s' => exact ih s'
    | error e => rfl

theorem deliverAll_congr {handler handler' : σ → α → Except ε σ} :
    ∀ {as : List α}, (∀ a ∈ as, ∀ s, handler s a = handler' s a) →
      ∀ s, deliverAll handler as s = deliverAll handler' as s
  | [], _, _ => rfl
  | a :: as, h, s => by
    simp only [deliverAll, h a List.mem_cons_self s]
    cases handler' s a with
    | ok s' => exact deliverAll_congr (fun b hb => h b (List.mem_cons_of_mem a hb)) s'
    | error e => rfl

namespace Format

variable (F : Format β α)

def stream (as : List α) : List β := (as.map F.encode).flatten

/-- What a reader keeps between two chunks of the stream of `as`: nothing, or
the beginning of the first frame. -/
def Pending (x : List β) (as : List α) : Prop :=
  x = [] ∨ ∃ a as' y, as = a :: as' ∧ x ++ y = F.encode a ∧ y ≠ []

def peelAll : Nat → List β → List α × List β
  | 0, buf => ([], buf)
  | fuel + 1, buf =>
    match F.peel buf with
    | none => ([], buf)
    | some (a, rest) => (a :: (peelAll fuel rest).1, (peelAll fuel rest).2)

@[simp] theorem stream_nil : F.stream [] = [] := rfl

@[simp] theorem stream_cons (a : α) (as : List α) :
    F.stream (a :: as) = F.encode a ++ F.stream as := rfl

theorem stream_append (as bs : List α) : F.stream (as ++ bs) = F.stream as ++ F.stream bs := by
  simp [stream]

theorem length_le_length_stream (as : List α) : as.length ≤ (F.stream as).length := by
  induction as with
  | nil => simp
  | cons a as ih =>
    have hPos : 0 < (F.encode a).length := List.length_pos_iff.mpr (F.encode_ne_nil a)
    simp only [stream_cons, List.length_append, List.length_cons]
    omega

theorem peel_of_pending {x : List β} {as : List α} (h : F.Pending x as) : F.peel x = none := by
  rcases h with rfl | ⟨a, as', y, -, hxy, hy⟩
  · exact F.peel_nil
  · exact F.peel_prefix a x y hxy hy

theorem pending_nil_right {x : List β} (h : F.Pending x []) : x = [] := by
  rcases h with rfl | ⟨a, as', y, hNil, -, -⟩
  · rfl
  · cases hNil

theorem eq_nil_of_pending_stream {as : List α} (h : F.Pending (F.stream as) as) : as = [] := by
  rcases h with hNil | ⟨a, as', y, rfl, hxy, hy⟩
  · have hLen := F.length_le_length_stream as
    rw [hNil] at hLen
    exact List.eq_nil_of_length_eq_zero (Nat.le_zero.mp hLen)
  · -- the frame would be shorter than what was kept of it
    have hLen := congrArg List.length hxy
    have hy' : 0 < y.length := List.length_pos_iff.mpr hy
    simp only [stream_cons, List.length_append] at hLen
    omega

theorem peelAll_frames (as : List α) (x : List β) (hx : F.peel x = none) :
    ∀ fuel, as.length ≤ fuel → F.peelAll fuel (F.stream as ++ x) = (as, x) := by
  induction as with
  | nil =>
    intro fuel _
    cases fuel with
    | zero => rfl
    | succ fuel => simp [peelAll, hx]
  | cons a as ih =>
    intro fuel hFuel
    obtain ⟨fuel, rfl⟩ : ∃ n, fuel = n + 1 := ⟨fuel - 1, by simp at hFuel; omega⟩
    have hRest := ih fuel (by simpa using hFuel)
    rw [stream_cons, List.append_assoc, peelAll, F.peel_encode]
    simp only [hRest]

theorem prefix_split (as : List α) :
    ∀ {p u : List β}, p ++ u = F.stream as →
      ∃ j x, p = F.stream (as.take j) ++ x ∧ F.Pending x (as.drop j) := by
  induction as with
  | nil =>
    intro p u h
    have hp : p = [] := (List.append_eq_nil_iff.mp h).1
    exact ⟨0, [], by simp [hp], .inl rfl⟩
  | cons a as ih =>
    intro p u h
    rw [stream_cons] at h
    rcases List.append_eq_append_iff.mp h with ⟨c, hEnc, -⟩ | ⟨c, hp, hRest⟩
    · by_cases hc : c = []
      · -- the prefix ends where the first frame does
        refine ⟨1, [], ?_, .inl rfl⟩
        simp [hEnc, hc]
      · exact ⟨0, p, by simp, .inr ⟨a, as, c, rfl, hEnc.symm, hc⟩⟩
    · obtain ⟨j, x, hc, hPending⟩ := ih hRest.symm
      refine ⟨j + 1, x, ?_, by simpa using hPending⟩
      rw [hp, hc, List.take_succ_cons, stream_cons, List.append_assoc]

end Format

end Reassembly
