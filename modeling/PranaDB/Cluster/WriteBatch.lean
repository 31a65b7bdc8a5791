import PranaDB.Common.Encoding
import PranaDB.Lib.KVStore

/-! # Write batches (`cluster/write_batch.go`)

A `WriteBatch` keeps each group of writes as one buffer of byte strings, each
preceded by its length as a little-endian `uint32`, with a count per group.
`AddPut`, `AddDelete` and `AddDeleteRange` append to the buffers and the
`ForEach*` loops read them back.

`WriteBatch.Holds wb b` says that the buffers of `wb` are the encodings of the
groups of the abstract batch `b`; the `Add*` operations keep it, and under it
each `ForEach*` loop is a left fold of its receiver over the group. This is the
bridge from the buffers the engines read to the batch semantics of `KVStore`.
-/

namespace PranaDB
set_option autoImplicit false

structure WriteBatch where
  ShardID : UInt64
  BatchID : Option Bytes
  Puts : Bytes
  Deletes : Bytes
  DeleteRanges : Bytes
  NumPuts : Nat
  NumDeletes : Nat
  NumDeleteRanges : Nat
deriving DecidableEq, Repr

/-- The errors of the cluster's local writes: a Go panic, and the error of the
fake cluster's `deleteInternal`, `"didn't find key to delete %v"`. -/
inductive ClusterError where
  | panic (msg : String)
  | keyNotFound (key : Bytes)
deriving DecidableEq, Repr

def NewWriteBatch (shardID : UInt64) : WriteBatch := ⟨shardID, none, [], [], [], 0, 0, 0⟩

def appendBytesWithLength (buff bytes : Bytes) : Bytes :=
  AppendUint32ToBufferLE buff (UInt32.ofNat bytes.length) ++ bytes

def WriteBatch.AddPut (wb : WriteBatch) (k v : Bytes) : WriteBatch :=
  { wb with Puts := appendBytesWithLength (appendBytesWithLength wb.Puts k) v,
            NumPuts := wb.NumPuts + 1 }

def WriteBatch.AddDelete (wb : WriteBatch) (k : Bytes) : WriteBatch :=
  { wb with Deletes := appendBytesWithLength wb.Deletes k, NumDeletes := wb.NumDeletes + 1 }

def WriteBatch.AddDeleteRange (wb : WriteBatch) (k v : Bytes) : WriteBatch :=
  { wb with DeleteRanges := appendBytesWithLength (appendBytesWithLength wb.DeleteRanges k) v,
            NumDeleteRanges := wb.NumDeleteRanges + 1 }

/-- `WriteBatch.SetBatchID`: an id of other than 16 bytes is a panic. -/
def WriteBatch.SetBatchID (wb : WriteBatch) (id : Bytes) : Except ClusterError WriteBatch :=
  if id.length ≠ 16 then .error (.panic "id wrong length") else .ok { wb with BatchID := some id }

/-- `WriteBatch.Serialize`: the three counts as `uint32`, the three buffers,
and a flag byte followed by the batch id when there is one. -/
def WriteBatch.Serialize (wb : WriteBatch) (buff : Bytes) : Bytes :=
  let buff := AppendUint32ToBufferLE buff (UInt32.ofNat wb.NumPuts)
  let buff := AppendUint32ToBufferLE buff (UInt32.ofNat wb.NumDeletes)
  let buff := AppendUint32ToBufferLE buff (UInt32.ofNat wb.NumDeleteRanges)
  let buff := buff ++ wb.Puts ++ wb.Deletes ++ wb.DeleteRanges
  match wb.BatchID with
  | none => buff ++ [0]
  | some id => buff ++ [1] ++ id

/-! ## The loops that read a batch -/

def sliceBoundsOutOfRange : ClusterError := .panic "slice bounds out of range"

/-- `common.ReadUint32FromBufferLE` and then the slice `buff[offset : offset+int(l)]`:
one length-prefixed byte string and the offset after it, `none` where Go panics. -/
def readBytesWithLength (buff : Bytes) (offset : Nat) : Option (Bytes × Nat) :=
  match ReadUint32FromBufferLE buff offset with
  | none => none
  | some (l, offset) =>
    if offset + l.toNat ≤ buff.length then some ((buff.drop offset).take l.toNat, offset + l.toNat)
    else none

/-- The loop of `ForEachPut` and `ForEachDeleteRange`: `for offset < len(buff)`,
read a key and a value and hand them to the receiver, stopping at its first
error. Every pass reads at least eight bytes, so the length of the buffer is
enough fuel. -/
def forEachKV {σ : Type} (buff : Bytes) (kvReceiver : Bytes → Bytes → σ → Except ClusterError σ) :
    Nat → Nat → σ → Except ClusterError σ
  | 0, _, s => .ok s
  | fuel + 1, offset, s =>
    if offset < buff.length then
      match readBytesWithLength buff offset with
      | none => .error sliceBoundsOutOfRange
      | some (k, offset) =>
        match readBytesWithLength buff offset with
        | none => .error sliceBoundsOutOfRange
        | some (v, offset) =>
          match kvReceiver k v s with
          | .error e => .error e
          | .ok s => forEachKV buff kvReceiver fuel offset s
    else .ok s

def forEachK {σ : Type} (buff : Bytes) (kReceiver : Bytes → σ → Except ClusterError σ) :
    Nat → Nat → σ → Except ClusterError σ
  | 0, _, s => .ok s
  | fuel + 1, offset, s =>
    if offset < buff.length then
      match readBytesWithLength buff offset with
      | none => .error sliceBoundsOutOfRange
      | some (k, offset) =>
        match kReceiver k s with
        | .error e => .error e
        | .ok s => forEachK buff kReceiver fuel offset s
    else .ok s

def WriteBatch.ForEachPut {σ : Type} (wb : WriteBatch)
    (kvReceiver : Bytes → Bytes → σ → Except ClusterError σ) (s : σ) : Except ClusterError σ :=
  forEachKV wb.Puts kvReceiver wb.Puts.length 0 s

def WriteBatch.ForEachDelete {σ : Type} (wb : WriteBatch)
    (kReceiver : Bytes → σ → Except ClusterError σ) (s : σ) : Except ClusterError σ :=
  forEachK wb.Deletes kReceiver wb.Deletes.length 0 s

def WriteBatch.ForEachDeleteRange {σ : Type} (wb : WriteBatch)
    (kvReceiver : Bytes → Bytes → σ → Except ClusterError σ) (s : σ) : Except ClusterError σ :=
  forEachKV wb.DeleteRanges kvReceiver wb.DeleteRanges.length 0 s

/-! ## The encoding of a group of writes -/

def lengthPrefixed (bytes : Bytes) : Bytes := appendBytesWithLength [] bytes

def encodePairs (ps : List (Bytes × Bytes)) : Bytes :=
  ps.flatMap fun p => lengthPrefixed p.1 ++ lengthPrefixed p.2

def encodeKeys (ks : List Bytes) : Bytes := ks.flatMap lengthPrefixed

def Short (bytes : Bytes) : Prop := bytes.length < 2 ^ 32

instance (bytes : Bytes) : Decidable (Short bytes) := inferInstanceAs (Decidable (_ < _))

theorem appendBytesWithLength_eq (buff bytes : Bytes) :
    appendBytesWithLength buff bytes = buff ++ lengthPrefixed bytes := by
  simp [lengthPrefixed, appendBytesWithLength, AppendUint32ToBufferLE]

@[simp] theorem length_lengthPrefixed (bytes : Bytes) :
    (lengthPrefixed bytes).length = bytes.length + 4 := by
  simp [lengthPrefixed, appendBytesWithLength, AppendUint32ToBufferLE]

@[simp] theorem encodePairs_nil : encodePairs [] = [] := rfl

@[simp] theorem encodePairs_cons (p : Bytes × Bytes) (ps : List (Bytes × Bytes)) :
    encodePairs (p :: ps) = lengthPrefixed p.1 ++ lengthPrefixed p.2 ++ encodePairs ps := by
  simp [encodePairs]

theorem encodePairs_append (ps qs : List (Bytes × Bytes)) :
    encodePairs (ps ++ qs) = encodePairs ps ++ encodePairs qs := by
  simp [encodePairs]

@[simp] theorem encodeKeys_nil : encodeKeys [] = [] := rfl

@[simp] theorem encodeKeys_cons (k : Bytes) (ks : List Bytes) :
    encodeKeys (k :: ks) = lengthPrefixed k ++ encodeKeys ks := by
  simp [encodeKeys]

theorem encodeKeys_append (ks ls : List Bytes) :
    encodeKeys (ks ++ ls) = encodeKeys ks ++ encodeKeys ls := by
  simp [encodeKeys]

theorem length_le_length_encodePairs (ps : List (Bytes × Bytes)) :
    ps.length ≤ (encodePairs ps).length := by
  induction ps with
  | nil => simp
  | cons p ps ih => simp; omega

theorem length_le_length_encodeKeys (ks : List Bytes) : ks.length ≤ (encodeKeys ks).length := by
  induction ks with
  | nil => simp
  | cons k ks ih => simp; omega

theorem readBytesWithLength_append (pre bytes suf : Bytes) (hShort : Short bytes) :
    readBytesWithLength (pre ++ lengthPrefixed bytes ++ suf) pre.length =
      some (bytes, (pre ++ lengthPrefixed bytes).length) := by
  have hBuff : pre ++ lengthPrefixed bytes ++ suf =
      AppendUint32ToBufferLE pre (UInt32.ofNat bytes.length) ++ (bytes ++ suf) := by
    simp [lengthPrefixed, appendBytesWithLength, AppendUint32ToBufferLE]
  have hLen : (UInt32.ofNat bytes.length).toNat = bytes.length := by
    rw [UInt32.toNat_ofNat']
    exact Nat.mod_eq_of_lt hShort
  have hPre : (AppendUint32ToBufferLE pre (UInt32.ofNat bytes.length)).length = pre.length + 4 := by
    simp [AppendUint32ToBufferLE]
  rw [readBytesWithLength, hBuff, ReadUint32FromBufferLE_append]
  simp only [hLen, List.length_append, hPre, length_lengthPrefixed]
  rw [if_pos (by omega), ← hPre, List.drop_left, List.take_left]
  congr 2
  omega

section Loops

variable {σ : Type}

theorem forEachKV_encodePairs (kvReceiver : Bytes → Bytes → σ → Except ClusterError σ)
    (ps : List (Bytes × Bytes)) (hShort : ∀ p ∈ ps, Short p.1 ∧ Short p.2) :
    ∀ (pre : Bytes) (fuel : Nat), ps.length ≤ fuel → ∀ s : σ,
      forEachKV (pre ++ encodePairs ps) kvReceiver fuel pre.length s =
        ps.foldlM (fun s p => kvReceiver p.1 p.2 s) s := by
  induction ps with
  | nil =>
    intro pre fuel _ s
    cases fuel with
    | zero => rfl
    | succ fuel => simp [forEachKV, pure, Except.pure]
  | cons p ps ih =>
    intro pre fuel hFuel s
    obtain ⟨fuel, rfl⟩ : ∃ f, fuel = f + 1 := ⟨fuel - 1, by simp at hFuel; omega⟩
    obtain ⟨hk, hv⟩ := hShort p List.mem_cons_self
    have hRest := ih (fun q hq => hShort q (List.mem_cons_of_mem p hq))
    have hBuffK : pre ++ encodePairs (p :: ps) =
        pre ++ lengthPrefixed p.1 ++ (lengthPrefixed p.2 ++ encodePairs ps) := by simp
    have hBuffV : pre ++ encodePairs (p :: ps) =
        (pre ++ lengthPrefixed p.1) ++ lengthPrefixed p.2 ++ encodePairs ps := by simp
    have hBuffS : pre ++ encodePairs (p :: ps) =
        (pre ++ lengthPrefixed p.1 ++ lengthPrefixed p.2) ++ encodePairs ps := by simp
    have hLt : pre.length < (pre ++ encodePairs (p :: ps)).length := by simp
    rw [forEachKV, if_pos hLt, hBuffK, readBytesWithLength_append _ _ _ hk]
    simp only
    rw [← hBuffK, hBuffV, readBytesWithLength_append _ _ _ hv]
    simp only [List.foldlM_cons]
    cases kvReceiver p.1 p.2 s with
    | error e => rfl
    | ok s' =>
      simp only
      rw [← hBuffV, hBuffS, hRest _ fuel (by simp at hFuel; omega) s']
      rfl

theorem forEachK_encodeKeys (kReceiver : Bytes → σ → Except ClusterError σ)
    (ks : List Bytes) (hShort : ∀ k ∈ ks, Short k) :
    ∀ (pre : Bytes) (fuel : Nat), ks.length ≤ fuel → ∀ s : σ,
      forEachK (pre ++ encodeKeys ks) kReceiver fuel pre.length s =
        ks.foldlM (fun s k => kReceiver k s) s := by
  induction ks with
  | nil =>
    intro pre fuel _ s
    cases fuel with
    | zero => rfl
    | succ fuel => simp [forEachK, pure, Except.pure]
  | cons k ks ih =>
    intro pre fuel hFuel s
    obtain ⟨fuel, rfl⟩ : ∃ f, fuel = f + 1 := ⟨fuel - 1, by simp at hFuel; omega⟩
    have hRest := ih (fun l hl => hShort l (List.mem_cons_of_mem k hl))
    have hBuffK : pre ++ encodeKeys (k :: ks) = pre ++ lengthPrefixed k ++ encodeKeys ks := by simp
    have hLt : pre.length < (pre ++ encodeKeys (k :: ks)).length := by simp
    rw [forEachK, if_pos hLt, hBuffK, readBytesWithLength_append _ _ _ (hShort k List.mem_cons_self)]
    simp only [List.foldlM_cons]
    cases kReceiver k s with
    | error e => rfl
    | ok s' =>
      simp only
      rw [hRest _ fuel (by simp at hFuel; omega) s']
      rfl

end Loops

/-! ## A batch and the writes it holds -/

/-- The buffers of `wb` encode the groups of `b`, and every byte string of `b`
is short enough for its length prefix. -/
structure WriteBatch.Holds (wb : WriteBatch) (b : KVStore.Batch Bytes Bytes) : Prop where
  puts_eq : wb.Puts = encodePairs b.puts
  deletes_eq : wb.Deletes = encodeKeys b.deletes
  deleteRanges_eq : wb.DeleteRanges = encodePairs b.deleteRanges
  puts_short : ∀ p ∈ b.puts, Short p.1 ∧ Short p.2
  deletes_short : ∀ k ∈ b.deletes, Short k
  deleteRanges_short : ∀ r ∈ b.deleteRanges, Short r.1 ∧ Short r.2

namespace WriteBatch.Holds

variable {wb : WriteBatch} {b : KVStore.Batch Bytes Bytes}

theorem newWriteBatch (shardID : UInt64) : (NewWriteBatch shardID).Holds ⟨[], [], []⟩ where
  puts_eq := rfl
  deletes_eq := rfl
  deleteRanges_eq := rfl
  puts_short := by simp
  deletes_short := by simp
  deleteRanges_short := by simp

theorem addPut (h : wb.Holds b) {k v : Bytes} (hk : Short k) (hv : Short v) :
    (wb.AddPut k v).Holds { b with puts := b.puts ++ [(k, v)] } where
  puts_eq := by simp [WriteBatch.AddPut, appendBytesWithLength_eq, encodePairs_append, h.puts_eq]
  deletes_eq := h.deletes_eq
  deleteRanges_eq := h.deleteRanges_eq
  puts_short := by
    intro p hp
    rcases List.mem_append.mp hp with hp | hp
    · exact h.puts_short p hp
    · simp only [List.mem_singleton] at hp
      subst hp
      exact ⟨hk, hv⟩
  deletes_short := h.deletes_short
  deleteRanges_short := h.deleteRanges_short

theorem addDelete (h : wb.Holds b) {k : Bytes} (hk : Short k) :
    (wb.AddDelete k).Holds { b with deletes := b.deletes ++ [k] } where
  puts_eq := h.puts_eq
  deletes_eq := by simp [WriteBatch.AddDelete, appendBytesWithLength_eq, encodeKeys_append, h.deletes_eq]
  deleteRanges_eq := h.deleteRanges_eq
  puts_short := h.puts_short
  deletes_short := by
    intro l hl
    rcases List.mem_append.mp hl with hl | hl
    · exact h.deletes_short l hl
    · simp only [List.mem_singleton] at hl
      exact hl ▸ hk
  deleteRanges_short := h.deleteRanges_short

theorem addDeleteRange (h : wb.Holds b) {k v : Bytes} (hk : Short k) (hv : Short v) :
    (wb.AddDeleteRange k v).Holds { b with deleteRanges := b.deleteRanges ++ [(k, v)] } where
  puts_eq := h.puts_eq
  deletes_eq := h.deletes_eq
  deleteRanges_eq := by
    simp [WriteBatch.AddDeleteRange, appendBytesWithLength_eq, encodePairs_append, h.deleteRanges_eq]
  puts_short := h.puts_short
  deletes_short := h.deletes_short
  deleteRanges_short := by
    intro r hr
    rcases List.mem_append.mp hr with hr | hr
    · exact h.deleteRanges_short r hr
    · simp only [List.mem_singleton] at hr
      subst hr
      exact ⟨hk, hv⟩

theorem setBatchID (h : wb.Holds b) {id : Bytes} {wb' : WriteBatch} (hSet : wb.SetBatchID id = .ok wb') :
    wb'.Holds b := by
  rw [WriteBatch.SetBatchID] at hSet
  by_cases hLen : id.length ≠ 16
  · rw [if_pos hLen] at hSet
    cases hSet
  · rw [if_neg hLen, Except.ok.injEq] at hSet
    subst hSet
    exact ⟨h.puts_eq, h.deletes_eq, h.deleteRanges_eq, h.puts_short, h.deletes_short, h.deleteRanges_short⟩

end WriteBatch.Holds

section Folds

variable {σ : Type} {wb : WriteBatch} {b : KVStore.Batch Bytes Bytes}

theorem WriteBatch.ForEachPut_eq (h : wb.Holds b) (kvReceiver : Bytes → Bytes → σ → Except ClusterError σ)
    (s : σ) : wb.ForEachPut kvReceiver s = b.puts.foldlM (fun s p => kvReceiver p.1 p.2 s) s := by
  have hFuel := length_le_length_encodePairs b.puts
  rw [WriteBatch.ForEachPut, h.puts_eq]
  simpa using forEachKV_encodePairs kvReceiver b.puts h.puts_short [] _ hFuel s

theorem WriteBatch.ForEachDelete_eq (h : wb.Holds b) (kReceiver : Bytes → σ → Except ClusterError σ)
    (s : σ) : wb.ForEachDelete kReceiver s = b.deletes.foldlM (fun s k => kReceiver k s) s := by
  have hFuel := length_le_length_encodeKeys b.deletes
  rw [WriteBatch.ForEachDelete, h.deletes_eq]
  simpa using forEachK_encodeKeys kReceiver b.deletes h.deletes_short [] _ hFuel s

theorem WriteBatch.ForEachDeleteRange_eq (h : wb.Holds b)
    (kvReceiver : Bytes → Bytes → σ → Except ClusterError σ) (s : σ) :
    wb.ForEachDeleteRange kvReceiver s = b.deleteRanges.foldlM (fun s r => kvReceiver r.1 r.2 s) s := by
  have hFuel := length_le_length_encodePairs b.deleteRanges
  rw [WriteBatch.ForEachDeleteRange, h.deleteRanges_eq]
  simpa using forEachKV_encodePairs kvReceiver b.deleteRanges h.deleteRanges_short [] _ hFuel s

end Folds

/-! ## The counts a batch is serialized with -/

/-- The counts of `wb` are the sizes of the groups of `b` and fit the `uint32`
that `Serialize` writes them as; a batch id is the 16 bytes `SetBatchID` allows. -/
structure WriteBatch.Counted (wb : WriteBatch) (b : KVStore.Batch Bytes Bytes) : Prop where
  numPuts_eq : wb.NumPuts = b.puts.length
  numDeletes_eq : wb.NumDeletes = b.deletes.length
  numDeleteRanges_eq : wb.NumDeleteRanges = b.deleteRanges.length
  numPuts_lt : b.puts.length < 2 ^ 32
  numDeletes_lt : b.deletes.length < 2 ^ 32
  numDeleteRanges_lt : b.deleteRanges.length < 2 ^ 32
  batchID_length : ∀ id, wb.BatchID = some id → id.length = 16

namespace WriteBatch.Counted

variable {wb : WriteBatch} {b : KVStore.Batch Bytes Bytes}

theorem newWriteBatch (shardID : UInt64) : (NewWriteBatch shardID).Counted ⟨[], [], []⟩ where
  numPuts_eq := rfl
  numDeletes_eq := rfl
  numDeleteRanges_eq := rfl
  numPuts_lt := by decide
  numDeletes_lt := by decide
  numDeleteRanges_lt := by decide
  batchID_length := by simp [NewWriteBatch]

theorem addPut (h : wb.Counted b) {k v : Bytes} (hRoom : b.puts.length + 1 < 2 ^ 32) :
    (wb.AddPut k v).Counted { b with puts := b.puts ++ [(k, v)] } where
  numPuts_eq := by simp [WriteBatch.AddPut, h.numPuts_eq]
  numDeletes_eq := h.numDeletes_eq
  numDeleteRanges_eq := h.numDeleteRanges_eq
  numPuts_lt := by simpa using hRoom
  numDeletes_lt := h.numDeletes_lt
  numDeleteRanges_lt := h.numDeleteRanges_lt
  batchID_length := h.batchID_length

theorem addDelete (h : wb.Counted b) {k : Bytes} (hRoom : b.deletes.length + 1 < 2 ^ 32) :
    (wb.AddDelete k).Counted { b with deletes := b.deletes ++ [k] } where
  numPuts_eq := h.numPuts_eq
  numDeletes_eq := by simp [WriteBatch.AddDelete, h.numDeletes_eq]
  numDeleteRanges_eq := h.numDeleteRanges_eq
  numPuts_lt := h.numPuts_lt
  numDeletes_lt := by simpa using hRoom
  numDeleteRanges_lt := h.numDeleteRanges_lt
  batchID_length := h.batchID_length

theorem addDeleteRange (h : wb.Counted b) {k v : Bytes} (hRoom : b.deleteRanges.length + 1 < 2 ^ 32) :
    (wb.AddDeleteRange k v).Counted { b with deleteRanges := b.deleteRanges ++ [(k, v)] } where
  numPuts_eq := h.numPuts_eq
  numDeletes_eq := h.numDeletes_eq
  numDeleteRanges_eq := by simp [WriteBatch.AddDeleteRange, h.numDeleteRanges_eq]
  numPuts_lt := h.numPuts_lt
  numDeletes_lt := h.numDeletes_lt
  numDeleteRanges_lt := by simpa using hRoom
  batchID_length := h.batchID_length

theorem setBatchID (h : wb.Counted b) {id : Bytes} {wb' : WriteBatch} (hSet : wb.SetBatchID id = .ok wb') :
    wb'.Counted b := by
  rw [WriteBatch.SetBatchID] at hSet
  by_cases hLen : id.length ≠ 16
  · rw [if_pos hLen] at hSet
    cases hSet
  · rw [if_neg hLen, Except.ok.injEq] at hSet
    subst hSet
    refine ⟨h.numPuts_eq, h.numDeletes_eq, h.numDeleteRanges_eq, h.numPuts_lt, h.numDeletes_lt,
      h.numDeleteRanges_lt, ?_⟩
    intro id' hId
    cases hId
    exact not_not.mp hLen

end WriteBatch.Counted

/-- A batch built by `NewWriteBatch` and calls of `AddPut`, `AddDelete`,
`AddDeleteRange` and `SetBatchID` that do not panic, with the groups it holds.
Every byte string is shorter than the 2^32 bytes its `uint32` length counts,
and no group reaches 2^32 entries. -/
inductive WriteBatch.Built : WriteBatch → KVStore.Batch Bytes Bytes → Prop where
  | new (shardID : UInt64) : Built (NewWriteBatch shardID) ⟨[], [], []⟩
  | addPut {wb : WriteBatch} {b : KVStore.Batch Bytes Bytes} (k v : Bytes) : Built wb b → Short k → Short v →
      b.puts.length + 1 < 2 ^ 32 → Built (wb.AddPut k v) { b with puts := b.puts ++ [(k, v)] }
  | addDelete {wb : WriteBatch} {b : KVStore.Batch Bytes Bytes} (k : Bytes) : Built wb b → Short k →
      b.deletes.length + 1 < 2 ^ 32 → Built (wb.AddDelete k) { b with deletes := b.deletes ++ [k] }
  | addDeleteRange {wb : WriteBatch} {b : KVStore.Batch Bytes Bytes} (k v : Bytes) : Built wb b → Short k →
      Short v → b.deleteRanges.length + 1 < 2 ^ 32 →
      Built (wb.AddDeleteRange k v) { b with deleteRanges := b.deleteRanges ++ [(k, v)] }
  | setBatchID {wb wb' : WriteBatch} {b : KVStore.Batch Bytes Bytes} (id : Bytes) : Built wb b →
      wb.SetBatchID id = .ok wb' → Built wb' b

theorem WriteBatch.Built.holds_counted {wb : WriteBatch} {b : KVStore.Batch Bytes Bytes} (h : wb.Built b) :
    wb.Holds b ∧ wb.Counted b := by
  induction h with
  | new shardID => exact ⟨.newWriteBatch shardID, .newWriteBatch shardID⟩
  | addPut k v _ hk hv hRoom ih => exact ⟨ih.1.addPut hk hv, ih.2.addPut hRoom⟩
  | addDelete k _ hk hRoom ih => exact ⟨ih.1.addDelete hk, ih.2.addDelete hRoom⟩
  | addDeleteRange k v _ hk hv hRoom ih => exact ⟨ih.1.addDeleteRange hk hv, ih.2.addDeleteRange hRoom⟩
  | setBatchID id _ hSet ih => exact ⟨ih.1.setBatchID hSet, ih.2.setBatchID hSet⟩

theorem WriteBatch.Serialize_eq (wb : WriteBatch) (buff : Bytes) :
    wb.Serialize buff = buff ++ wb.Serialize [] := by
  cases h : wb.BatchID <;> simp [WriteBatch.Serialize, h, AppendUint32ToBufferLE]

end PranaDB
