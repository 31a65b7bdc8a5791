import Mathlib
import PranaDB.Remoting.ClusterMessage
import PranaDB.Lib.Reassembly

/-! # The frames of a remoting connection

`writeMessage` writes a message as a frame: its type byte, its length in four
little-endian bytes and its bytes. The frames form a `Reassembly.Format`, and
the inner loop of `readMessage` is the format's `peelAll` followed by the
handler over the frames peeled, all with the type byte read before the loop
(`handleBufferedMessages_eq`). Between two reads the length `readMessage`
keeps is the one in the header of what it kept, if it holds a header.

Over a connection whose frames all have one type, as each direction of a
connection has (requests from the client, responses from the server), any
cutting of the stream into non-empty reads hands the handler every message
once and in order (`readMessage_frames`). Two messages of different types in
one read are all handed the first one's type (`readMessage_single_read`).
-/

namespace PranaDB
set_option autoImplicit false

/-- A message as `writeMessage` frames it: its type and its bytes, of a length
a `uint32` holds. -/
@[ext] structure Frame where
  msgType : UInt8
  msg : Bytes
  short : Short msg

def Frame.bytes (f : Frame) : Bytes :=
  AppendUint32ToBufferLE [f.msgType] (UInt32.ofNat f.msg.length) ++ f.msg

/-- The length in the header of a buffer, once the buffer holds a header: the
`msgLen` of `readMessage`. -/
def headerLen (buf : Bytes) : Option Nat := (ReadUint32FromBufferLE buf 1).map fun r => r.1.toNat

def peelFrame (buf : Bytes) : Option (Frame × Bytes) :=
  match buf.head?, ReadUint32FromBufferLE buf 1 with
  | some t, some (u, _) =>
    if messageHeaderSize + u.toNat ≤ buf.length then
      some (⟨t, (buf.drop messageHeaderSize).take u.toNat,
          Nat.lt_of_le_of_lt (List.length_take_le _ _) u.toNat_lt⟩,
        buf.drop (messageHeaderSize + u.toNat))
    else none
  | _, _ => none

def ReadEnd.ofDeliver {σ : Type} : Except (RemotingError × σ) σ → ReadEnd σ
  | .ok s => .closed s
  | .error (.error e, s) => .stopped s e
  | .error (.panic p, _) => .panicked p

def readResultState {ρ ε σ : Type} : Except (ε × σ) (ρ × σ) → σ
  | .ok (_, s) => s
  | .error (_, s) => s

theorem length_bytes (f : Frame) : f.bytes.length = messageHeaderSize + f.msg.length := by
  simp [Frame.bytes, AppendUint32ToBufferLE, messageHeaderSize]
  omega

/-! ## Reading a header -/

theorem ReadUint32FromBufferLE_append_left {x : Bytes} (y : Bytes) {offset : Nat}
    (h : offset + 4 ≤ x.length) :
    ReadUint32FromBufferLE (x ++ y) offset = ReadUint32FromBufferLE x offset := by
  have hLen : offset + 4 ≤ (x ++ y).length := by simp; omega
  rw [ReadUint32FromBufferLE, ReadUint32FromBufferLE, if_pos hLen, if_pos h,
    List.drop_append_of_le_length (by omega), List.take_append_of_le_length (by simp; omega)]

theorem exists_ReadUint32FromBufferLE {buf : Bytes} (h : messageHeaderSize ≤ buf.length) :
    ∃ u, ReadUint32FromBufferLE buf 1 = some (u, 5) := by
  rw [ReadUint32FromBufferLE, if_pos (by simp [messageHeaderSize] at h; omega)]
  exact ⟨_, rfl⟩

theorem ReadUint32FromBufferLE_short {buf : Bytes} (h : ¬ messageHeaderSize ≤ buf.length) :
    ReadUint32FromBufferLE buf 1 = none := by
  rw [ReadUint32FromBufferLE, if_neg (by simp [messageHeaderSize] at h; omega)]

theorem headerLen_append {x : Bytes} (y : Bytes) {l : Nat} (h : headerLen x = some l) :
    headerLen (x ++ y) = some l := by
  have hLen : 1 + 4 ≤ x.length := by
    by_contra hShort
    rw [headerLen, ReadUint32FromBufferLE, if_neg hShort] at h
    cases h
  rw [headerLen, ReadUint32FromBufferLE_append_left y hLen]
  exact h

theorem ReadUint32FromBufferLE_bytes (f : Frame) (rest : Bytes) :
    ReadUint32FromBufferLE (f.bytes ++ rest) 1 = some (UInt32.ofNat f.msg.length, 5) := by
  rw [Frame.bytes, List.append_assoc]
  exact ReadUint32FromBufferLE_append [f.msgType] _ _

theorem toNat_ofNat_length (f : Frame) : (UInt32.ofNat f.msg.length).toNat = f.msg.length := by
  rw [UInt32.toNat_ofNat']
  exact Nat.mod_eq_of_lt f.short

/-! ## The frame format -/

theorem peelFrame_bytes (f : Frame) (rest : Bytes) : peelFrame (f.bytes ++ rest) = some (f, rest) := by
  have hHead : (f.bytes ++ rest).head? = some f.msgType := rfl
  have hFits : messageHeaderSize + f.msg.length ≤ (f.bytes ++ rest).length := by
    simp [length_bytes]
  have hDrop : (f.bytes ++ rest).drop messageHeaderSize = f.msg ++ rest := by
    rw [List.drop_append_of_le_length (by simp [length_bytes])]
    simp [Frame.bytes, AppendUint32ToBufferLE, messageHeaderSize]
  have hMsg : ((f.bytes ++ rest).drop messageHeaderSize).take f.msg.length = f.msg := by
    rw [hDrop, List.take_left]
  have hRest : (f.bytes ++ rest).drop (messageHeaderSize + f.msg.length) = rest := by
    rw [← List.drop_drop, hDrop, List.drop_left]
  rw [peelFrame, hHead, ReadUint32FromBufferLE_bytes]
  simp only [toNat_ofNat_length, if_pos hFits, hRest, Option.some.injEq, Prod.mk.injEq, and_true]
  exact Frame.ext rfl hMsg

theorem peelFrame_prefix (f : Frame) (x y : Bytes) (hxy : x ++ y = f.bytes) (hy : y ≠ []) :
    peelFrame x = none := by
  by_cases hHdr : messageHeaderSize ≤ x.length
  · -- the header is whole in `x` and says more bytes than `x` holds
    have hRead : ReadUint32FromBufferLE x 1 = some (UInt32.ofNat f.msg.length, 5) := by
      have h := ReadUint32FromBufferLE_bytes f []
      rw [List.append_nil, ← hxy, ReadUint32FromBufferLE_append_left y
        (by simp [messageHeaderSize] at hHdr; omega)] at h
      exact h
    have hShort : ¬ messageHeaderSize + f.msg.length ≤ x.length := by
      have hLen := congrArg List.length hxy
      have hy' : 0 < y.length := List.length_pos_iff.mpr hy
      rw [List.length_append, length_bytes] at hLen
      omega
    cases x with
    | nil => rfl
    | cons t rest =>
      simp only [peelFrame, List.head?_cons, hRead, toNat_ofNat_length, if_neg hShort]
  · simp only [peelFrame, ReadUint32FromBufferLE_short hHdr]
    cases x.head? <;> rfl

def frameFormat : Reassembly.Format UInt8 Frame where
  encode := Frame.bytes
  peel := peelFrame
  encode_ne_nil f := by simp [Frame.bytes, AppendUint32ToBufferLE]
  peel_encode := peelFrame_bytes
  peel_nil := rfl
  peel_prefix := peelFrame_prefix

/-! ## The loop of one read -/

section Read

variable {σ : Type} (handler : σ → UInt8 → Bytes → Except RemotingError σ)

theorem handleBufferedMessages_eq (msgType : UInt8) :
    ∀ (fuel : Nat) (buf : Bytes) (ml : Option Nat) (s : σ), buf.length ≤ fuel →
      (ml = none ∨ ml = headerLen buf) →
      handleBufferedMessages handler msgType fuel ⟨buf, ml⟩ s =
        (Reassembly.deliverAll (fun s (f : Frame) => handler s msgType f.msg)
          (frameFormat.peelAll fuel buf).1 s).map
          fun s' => (⟨(frameFormat.peelAll fuel buf).2, headerLen (frameFormat.peelAll fuel buf).2⟩, s') := by
  intro fuel
  induction fuel with
  | zero =>
    intro buf ml s hFuel hMl
    obtain rfl : buf = [] := List.eq_nil_of_length_eq_zero (Nat.le_zero.mp hFuel)
    obtain rfl : ml = none := by rcases hMl with h | h <;> exact h
    rfl
  | succ fuel ih =>
    intro buf ml s hFuel hMl
    by_cases hHdr : messageHeaderSize ≤ buf.length
    · obtain ⟨u, hRead⟩ := exists_ReadUint32FromBufferLE hHdr
      have hHeader : headerLen buf = some u.toNat := by simp [headerLen, hRead]
      have hCached : handleBufferedMessages handler msgType (fuel + 1) ⟨buf, ml⟩ s =
          handleBufferedMessages handler msgType (fuel + 1) ⟨buf, none⟩ s := by
        rcases hMl with rfl | rfl
        · rfl
        · simp only [handleBufferedMessages, hHeader, if_pos hHdr, hRead, Option.map_some]
      rw [hCached]
      obtain ⟨t, rest, rfl⟩ : ∃ t rest, buf = t :: rest :=
        List.exists_cons_of_ne_nil (by rintro rfl; simp [messageHeaderSize] at hHdr)
      by_cases hWhole : messageHeaderSize + u.toNat ≤ (t :: rest).length
      · have hPeel : frameFormat.peel (t :: rest) = some (⟨t, ((t :: rest).drop messageHeaderSize).take u.toNat,
            Nat.lt_of_le_of_lt (List.length_take_le _ _) u.toNat_lt⟩,
            (t :: rest).drop (messageHeaderSize + u.toNat)) := by
          simp only [frameFormat, peelFrame, List.head?_cons, hRead, if_pos hWhole]
        have hRest := ih ((t :: rest).drop (messageHeaderSize + u.toNat)) none
        simp only [handleBufferedMessages, if_pos hHdr, hRead, Option.map_some, if_pos hWhole, Reassembly.Format.peelAll, hPeel,
          Reassembly.deliverAll]
        cases handler s msgType (((t :: rest).drop messageHeaderSize).take u.toNat) with
        | error e => rfl
        | ok s' =>
          exact hRest s' (by simp [messageHeaderSize] at hFuel ⊢; omega) (.inl rfl)
      · have hPeel : frameFormat.peel (t :: rest) = none := by
          simp only [frameFormat, peelFrame, List.head?_cons, hRead, if_neg hWhole]
        simp only [handleBufferedMessages, if_pos hHdr, hRead, Option.map_some, if_neg hWhole, Reassembly.Format.peelAll, hPeel]
        rw [hHeader]
        rfl
    · have hNone : headerLen buf = none := by simp [headerLen, ReadUint32FromBufferLE_short hHdr]
      have hPeel : frameFormat.peel buf = none := by
        simp only [frameFormat, peelFrame, ReadUint32FromBufferLE_short hHdr]
        cases buf.head? <;> rfl
      obtain rfl : ml = none := by rcases hMl with h | h <;> simp [h, hNone]
      simp only [handleBufferedMessages, if_neg hHdr, Reassembly.Format.peelAll, hPeel]
      rw [hNone]
      rfl

theorem readMessage_stream (t : UInt8) :
    ∀ (chunks : List Bytes) (pend : Bytes) (fs : List Frame) (s : σ),
      (∀ c ∈ chunks, c ≠ []) → (∀ f ∈ fs, f.msgType = t) →
      pend ++ chunks.flatten = frameFormat.stream fs → frameFormat.Pending pend fs →
      readMessage handler chunks ⟨pend, headerLen pend⟩ s =
        ReadEnd.ofDeliver (Reassembly.deliverAll (fun s (f : Frame) => handler s t f.msg) fs s) := by
  intro chunks
  induction chunks with
  | nil =>
    intro pend fs s _ _ hStream hPending
    rw [List.flatten_nil, List.append_nil] at hStream
    rw [hStream] at hPending
    obtain rfl := frameFormat.eq_nil_of_pending_stream hPending
    rfl
  | cons c cs ih =>
    intro pend fs s hChunks hType hStream hPending
    have hc : c ≠ [] := hChunks c List.mem_cons_self
    have hBuf : (pend ++ c) ++ cs.flatten = frameFormat.stream fs := by
      rw [List.append_assoc, ← List.flatten_cons]
      exact hStream
    obtain ⟨j, x, hSplit, hPendingX⟩ := frameFormat.prefix_split fs hBuf
    have hRest : x ++ cs.flatten = frameFormat.stream (fs.drop j) := by
      have hFs : frameFormat.stream fs = frameFormat.stream (fs.take j) ++ frameFormat.stream (fs.drop j) := by
        rw [← frameFormat.stream_append, List.take_append_drop]
      rw [hSplit, List.append_assoc, hFs] at hBuf
      exact List.append_cancel_left hBuf
    have hCache : headerLen pend = none ∨ headerLen pend = headerLen (pend ++ c) := by
      cases h : headerLen pend with
      | none => exact .inl rfl
      | some l => exact .inr (headerLen_append c h).symm
    have hLoop := handleBufferedMessages_eq handler
    have hPeel : frameFormat.peelAll (pend ++ c).length (pend ++ c) = (fs.take j, x) := by
      have hLen : (fs.take j).length ≤ (pend ++ c).length := by
        rw [hSplit, List.length_append]
        exact le_trans (frameFormat.length_le_length_stream _) (Nat.le_add_right _ _)
      rw [hSplit] at hLen ⊢
      exact frameFormat.peelAll_frames _ x (frameFormat.peel_of_pending hPendingX) _ hLen
    obtain ⟨b, bs, hb⟩ : ∃ b bs, pend ++ c = b :: bs := List.exists_cons_of_ne_nil (by simp [hc])
    have hDeliver : Reassembly.deliverAll (fun s (f : Frame) => handler s b f.msg) (fs.take j) s =
        Reassembly.deliverAll (fun s (f : Frame) => handler s t f.msg) (fs.take j) s := by
      cases hTake : fs.take j with
      | nil => rfl
      | cons f fs' =>
        have hbf : b = f.msgType := by
          have hHead := congrArg List.head? hSplit
          rw [hb, hTake, Reassembly.Format.stream_cons, List.append_assoc] at hHead
          exact Option.some.inj hHead
        have hft : f.msgType = t := hType f (List.mem_of_mem_take (hTake ▸ List.mem_cons_self))
        rw [hbf, hft]
    rw [readMessage, readOnce]
    simp only [hb]
    rw [← hb, hLoop b _ _ _ _ le_rfl hCache, hPeel, hDeliver]
    conv_rhs => rw [← List.take_append_drop j fs, Reassembly.deliverAll_append]
    cases hD : Reassembly.deliverAll (fun s (f : Frame) => handler s t f.msg) (fs.take j) s with
    | ok s' =>
      exact ih x (fs.drop j) s' (fun c' hc' => hChunks c' (List.mem_cons_of_mem c hc'))
        (fun f hf => hType f (List.mem_of_mem_drop hf)) hRest hPendingX
    | error e =>
      obtain ⟨e, s'⟩ := e
      cases e <;> rfl

/-- Reading a stream of frames of one type, cut into non-empty reads in any way,
hands every message to the handler once and in order, with its type: the
reader ends as the handler's run over the messages does. -/
theorem readMessage_frames (t : UInt8) (fs : List Frame) (hType : ∀ f ∈ fs, f.msgType = t)
    (chunks : List Bytes) (hChunks : ∀ c ∈ chunks, c ≠ []) (hStream : chunks.flatten = frameFormat.stream fs)
    (s : σ) :
    readMessage handler chunks ⟨[], none⟩ s =
      ReadEnd.ofDeliver (Reassembly.deliverAll (fun s (f : Frame) => handler s f.msgType f.msg) fs s) := by
  -- nothing is kept before the first read, and no length either
  have hRun : readMessage handler chunks ⟨[], none⟩ s =
      ReadEnd.ofDeliver (Reassembly.deliverAll (fun s (f : Frame) => handler s t f.msg) fs s) :=
    readMessage_stream handler t chunks [] fs s hChunks hType (by simpa using hStream) (.inl rfl)
  have hTypes : Reassembly.deliverAll (fun s (f : Frame) => handler s t f.msg) fs s =
      Reassembly.deliverAll (fun s (f : Frame) => handler s f.msgType f.msg) fs s :=
    Reassembly.deliverAll_congr (fun f hf s => by rw [hType f hf]) s
  rw [hRun, hTypes]

theorem readMessage_frames_split :
    (∀ f ∈ [(⟨2, [7], by decide⟩ : Frame), ⟨2, [8, 9], by decide⟩], f.msgType = 2) ∧
      (∀ c ∈ [[2, 1], [0, 0, 0, 7, 2, 2], [0, 0, 0, 8, 9]], c ≠ ([] : Bytes)) ∧
      [[2, 1], [0, 0, 0, 7, 2, 2], [0, 0, 0, 8, 9]].flatten =
        frameFormat.stream [(⟨2, [7], by decide⟩ : Frame), ⟨2, [8, 9], by decide⟩] ∧
      readMessage (fun (s : List (UInt8 × Bytes)) t msg => (.ok (s ++ [(t, msg)]) : Except RemotingError _))
          [[2, 1], [0, 0, 0, 7, 2, 2], [0, 0, 0, 8, 9]] ⟨[], none⟩ [] =
        ReadEnd.ofDeliver (Reassembly.deliverAll (fun s (f : Frame) => .ok (s ++ [(f.msgType, f.msg)]))
          [(⟨2, [7], by decide⟩ : Frame), ⟨2, [8, 9], by decide⟩] []) := by
  have hType : ∀ f ∈ [(⟨2, [7], by decide⟩ : Frame), ⟨2, [8, 9], by decide⟩], f.msgType = 2 := by decide
  have hChunks : ∀ c ∈ [[2, 1], [0, 0, 0, 7, 2, 2], [0, 0, 0, 8, 9]], c ≠ ([] : Bytes) := by decide
  have hStream : [[2, 1], [0, 0, 0, 7, 2, 2], [0, 0, 0, 8, 9]].flatten =
      frameFormat.stream [(⟨2, [7], by decide⟩ : Frame), ⟨2, [8, 9], by decide⟩] := rfl
  exact ⟨hType, hChunks, hStream,
    readMessage_frames (fun (s : List (UInt8 × Bytes)) t msg => (.ok (s ++ [(t, msg)]) : Except RemotingError _))
      2 _ hType _ hChunks hStream []⟩

/-- The type byte is read once a read: frames of any types that come in one
read all go to the handler with the type of the first. -/
theorem readMessage_single_read (f : Frame) (fs : List Frame) (s : σ) :
    readMessage handler [frameFormat.stream (f :: fs)] ⟨[], none⟩ s =
      ReadEnd.ofDeliver (Reassembly.deliverAll (fun s (g : Frame) => handler s f.msgType g.msg) (f :: fs) s) := by
  have hLen : (f :: fs).length ≤ (frameFormat.stream (f :: fs)).length :=
    frameFormat.length_le_length_stream _
  have hPeel : frameFormat.peelAll (frameFormat.stream (f :: fs)).length (frameFormat.stream (f :: fs)) =
      (f :: fs, []) := by
    have h := frameFormat.peelAll_frames (f :: fs) [] frameFormat.peel_nil _ hLen
    rwa [List.append_nil] at h
  obtain ⟨rest, hBytes⟩ : ∃ rest, frameFormat.stream (f :: fs) = f.msgType :: rest :=
    ⟨_, rfl⟩
  rw [readMessage, readOnce, List.nil_append]
  simp only [hBytes]
  rw [← hBytes, handleBufferedMessages_eq handler f.msgType _ _ _ _ le_rfl (.inl rfl), hPeel]
  cases Reassembly.deliverAll (fun s (g : Frame) => handler s f.msgType g.msg) (f :: fs) s with
  | ok s' => rfl
  | error e =>
    obtain ⟨e, s'⟩ := e
    cases e <;> rfl

theorem handleBufferedMessages_invariant (P : σ → Prop)
    (hStep : ∀ s t msg s', P s → handler s t msg = .ok s' → P s') (msgType : UInt8) :
    ∀ (fuel : Nat) (rs : ReadState) (s : σ), P s →
      P (readResultState (handleBufferedMessages handler msgType fuel rs s)) := by
  intro fuel
  induction fuel with
  | zero => intro rs s hs; exact hs
  | succ fuel ih =>
    intro rs s hs
    simp only [handleBufferedMessages]
    split
    · split
      · exact hs
      · split
        · split
          · exact hs
          · exact ih _ _ (hStep _ _ _ _ hs ‹_›)
        · exact hs
    · exact hs

theorem readOnce_invariant (P : σ → Prop)
    (hStep : ∀ s t msg s', P s → handler s t msg = .ok s' → P s') (chunk : Bytes) (rs : ReadState) (s : σ)
    (hs : P s) : P (readResultState (readOnce handler chunk rs s)) := by
  simp only [readOnce]
  split
  · exact hs
  · exact handleBufferedMessages_invariant handler P hStep _ _ _ _ hs

end Read

end PranaDB
