import Mathlib
import PranaDB.Cluster.Locks
import PranaDB.Lib.ExceptRun

/-! # The remoting wire format (`remoting/cluster_message.go`)

A cluster message travels as a varint of its `ClusterMessageType` followed by
its protobuf body. A request adds a byte for `requiresResponse` and the
sequence number in front; a response adds its ok byte, for an error the error
code and text, and the sequence. `writeMessage` frames a serialized request or
response with a type byte and a little-endian length; `readMessage` appends
every network read to a buffer and hands each whole frame to a handler.

The protobuf runtime is not part of the repository: `ProtoBuffer` stands for
the calls the codecs make on it (the varint of `proto.Buffer` and the
marshalling of a body), over message values `M` whose Go type is one of the
clustermsgs structs or another. A slice read past the end of a buffer, where
Go panics, is a panic; so is the unchecked read of `ReadUint64FromBufferLE`,
which in Go may read past the end of the slice.
-/

namespace PranaDB
set_option autoImplicit false

/-- The message structs of clustermsgs.proto that `TypeForClusterMessage` knows. -/
inductive ClusterMessageKind where
  | DDLStatementInfo
  | DDLCancelMessage
  | ReloadProtobuf
  | ClusterProposeRequest
  | ClusterReadRequest
  | ClusterProposeResponse
  | ClusterReadResponse
  | ClusterForwardWriteRequest
  | ClusterForwardWriteResponse
  | SourceSetMaxIngestRate
  | LeaderInfosMessage
  | RemotingTestMessage
deriving DecidableEq, Repr

/-- `ClusterMessageType`, an `int32`. -/
abbrev ClusterMessageType := Int32

def ClusterMessageTypeUnknown : ClusterMessageType := 1
def ClusterMessageDDLStatement : ClusterMessageType := 2
def ClusterMessageDDLCancel : ClusterMessageType := 3
def ClusterMessageReloadProtobuf : ClusterMessageType := 4
def ClusterMessageClusterProposeRequest : ClusterMessageType := 5
def ClusterMessageClusterProposeResponse : ClusterMessageType := 6
def ClusterMessageClusterReadRequest : ClusterMessageType := 7
def ClusterMessageClusterReadResponse : ClusterMessageType := 8
def ClusterMessageForwardWriteRequest : ClusterMessageType := 9
def ClusterMessageForwardWriteResponse : ClusterMessageType := 10
def ClusterMessageSourceSetMaxRate : ClusterMessageType := 11
def ClusterMessageLeaderInfos : ClusterMessageType := 12
def ClusterMessageRemotingTestMessage : ClusterMessageType := 13

/-- The calls of the protobuf runtime the codecs make. -/
structure ProtoBuffer (M : Type) where
  /-- The Go type of a message among the clustermsgs structs, `none` for any other. -/
  kindOf : M → Option ClusterMessageKind
  EncodeVarint : UInt64 → Bytes
  /-- The value read and the number of bytes it took. -/
  DecodeVarint : Bytes → Except String (UInt64 × Nat)
  Marshal : M → Except String Bytes
  /-- Unmarshalling a body into a fresh struct of the given kind. -/
  Unmarshal : ClusterMessageKind → Bytes → Except String M

/-- What the codecs need of the protobuf runtime: a varint reads back what was
written, whatever follows it, and is never empty; a body unmarshals into its
own struct as the message it was marshalled from. -/
structure ProtoBuffer.Lawful {M : Type} (pb : ProtoBuffer M) : Prop where
  decodeVarint_encode : ∀ v rest, pb.DecodeVarint (pb.EncodeVarint v ++ rest) = .ok (v, (pb.EncodeVarint v).length)
  encodeVarint_ne_nil : ∀ v, pb.EncodeVarint v ≠ []
  unmarshal_marshal : ∀ m k bytes, pb.kindOf m = some k → pb.Marshal m = .ok bytes → pb.Unmarshal k bytes = .ok m

/-! ## A protobuf runtime to run the codecs on

Varints as `proto.EncodeVarint` and `proto.DecodeVarint` write and read them,
seven bits a byte with the low bits first and the high bit set on all bytes
but the last, in at most `maxVarintBytes` bytes. A message is the kind of its
struct with one bytes field, field 1, which proto3 leaves out when it is empty
and otherwise writes as its tag, its length and its bytes. -/

def maxVarintBytes : Nat := 10

/-- `proto.EncodeVarint`, with `fuel` bytes of its buffer left. -/
def encodeVarintBytes : Nat → Nat → Bytes
  | 0, _ => []
  | fuel + 1, x => if x < 128 then [x.toUInt8] else (x % 128 + 128).toUInt8 :: encodeVarintBytes fuel (x / 128)

/-- `proto.DecodeVarint`: the value and the number of bytes it took, `none`
where Go returns `0, 0`. -/
def decodeVarintBytes : Nat → Bytes → Option (Nat × Nat)
  | 0, _ => none
  | _ + 1, [] => none
  | fuel + 1, b :: rest =>
    if b < 128 then some (b.toNat, 1)
    else (decodeVarintBytes fuel rest).map fun r => (b.toNat % 128 + 128 * r.1, r.2 + 1)

def marshalBytesField (field : Bytes) : Except String Bytes :=
  if field = [] then .ok []
  else if field.length < 2 ^ 64 then .ok (10 :: encodeVarintBytes maxVarintBytes field.length ++ field)
  else .error "proto: field too long"

def unmarshalBytesField : Bytes → Except String Bytes
  | [] => .ok []
  | tag :: rest =>
    if tag = 10 then
      match decodeVarintBytes maxVarintBytes rest with
      | some (n, w) => if w + n = rest.length then .ok (rest.drop w) else .error "unexpected EOF"
      | none => .error "unexpected EOF"
    else .error "proto: illegal tag"

def protoBuffer : ProtoBuffer (ClusterMessageKind × Bytes) where
  kindOf m := some m.1
  EncodeVarint v := encodeVarintBytes maxVarintBytes v.toNat
  DecodeVarint buf :=
    match decodeVarintBytes maxVarintBytes buf with
    | some (x, n) => .ok (UInt64.ofNat x, n)
    | none => .error "unexpected EOF"
  Marshal m := marshalBytesField m.2
  Unmarshal k body := (k, ·) <$> unmarshalBytesField body

theorem toNat_toUInt8_of_lt {x : Nat} (h : x < 256) : x.toUInt8.toNat = x := by
  rw [Nat.toUInt8_eq, UInt8.toNat_ofNat_of_lt' h]

theorem lt_128_iff (b : UInt8) : b < 128 ↔ b.toNat < 128 := UInt8.lt_iff_toNat_lt

theorem encodeVarintBytes_ne_nil (fuel x : Nat) : encodeVarintBytes (fuel + 1) x ≠ [] := by
  rw [encodeVarintBytes]
  split <;> simp

theorem decodeVarintBytes_encode : ∀ (fuel x : Nat) (rest : Bytes), x < 128 ^ (fuel + 1) →
    decodeVarintBytes (fuel + 1) (encodeVarintBytes (fuel + 1) x ++ rest) =
      some (x, (encodeVarintBytes (fuel + 1) x).length) := by
  intro fuel
  have hLast : ∀ fuel x (rest : Bytes), x < 128 → decodeVarintBytes (fuel + 1)
      (encodeVarintBytes (fuel + 1) x ++ rest) = some (x, (encodeVarintBytes (fuel + 1) x).length) := by
    intro fuel x rest hx
    have hb := toNat_toUInt8_of_lt (show x < 256 by omega)
    have hLt : x.toUInt8 < 128 := by rw [lt_128_iff, hb]; exact hx
    simp only [encodeVarintBytes, hx, if_true, List.singleton_append, decodeVarintBytes, hLt, hb,
      List.length_singleton]
  induction fuel with
  | zero => exact fun x rest h => hLast 0 x rest (by simpa using h)
  | succ fuel ih =>
    intro x rest h
    by_cases hx : x < 128
    · exact hLast _ x rest hx
    · have hb := toNat_toUInt8_of_lt (show x % 128 + 128 < 256 by omega)
      have hNotLt : ¬ (x % 128 + 128).toUInt8 < 128 := by rw [lt_128_iff, hb]; omega
      have hlt : x / 128 < 128 ^ (fuel + 1) := by rw [pow_succ _ (fuel + 1)] at h; omega
      rw [encodeVarintBytes, if_neg hx, List.cons_append, decodeVarintBytes, if_neg hNotLt, ih _ rest hlt,
        Option.map_some, hb, List.length_cons]
      congr 2
      omega

theorem decodeVarintBytes_encode_max {x : Nat} (hx : x < 2 ^ 64) (rest : Bytes) :
    decodeVarintBytes maxVarintBytes (encodeVarintBytes maxVarintBytes x ++ rest) =
      some (x, (encodeVarintBytes maxVarintBytes x).length) :=
  decodeVarintBytes_encode 9 x rest (by omega)

theorem unmarshalBytesField_marshal {field bytes : Bytes} (h : marshalBytesField field = .ok bytes) :
    unmarshalBytesField bytes = .ok field := by
  unfold marshalBytesField at h
  split at h
  · rename_i hNil
    cases h
    rw [hNil]
    rfl
  · split at h
    · rename_i hLen
      cases h
      have hLength : (encodeVarintBytes maxVarintBytes field.length).length + field.length =
          (encodeVarintBytes maxVarintBytes field.length ++ field).length := by
        rw [List.length_append]
      rw [List.cons_append, unmarshalBytesField.eq_2, if_pos rfl, decodeVarintBytes_encode_max hLen]
      dsimp only
      rw [if_pos hLength, List.drop_left]
    · cases h

theorem protoBuffer_lawful : protoBuffer.Lawful where
  decodeVarint_encode v rest := by
    simp only [protoBuffer, decodeVarintBytes_encode_max v.toNat_lt, UInt64.ofNat_toNat]
  encodeVarint_ne_nil v := encodeVarintBytes_ne_nil 9 v.toNat
  unmarshal_marshal m k bytes hKind hBody := by
    simp only [protoBuffer, Option.some.injEq] at hKind hBody ⊢
    rw [unmarshalBytesField_marshal hBody, ← hKind]
    rfl

/-- How the remoting code fails: a Go panic, or an error value with its text. -/
inductive RemotingError where
  | panic (msg : String)
  | error (msg : String)
deriving DecidableEq, Repr

def orIndexPanic {α : Type} : Option α → Except RemotingError α
  | some a => .ok a
  | none => .error (.panic "index out of range")

section Codec

variable {M : Type} (pb : ProtoBuffer M)

def typeOfKind : ClusterMessageKind → ClusterMessageType
  | .DDLStatementInfo => ClusterMessageDDLStatement
  | .DDLCancelMessage => ClusterMessageDDLCancel
  | .ReloadProtobuf => ClusterMessageReloadProtobuf
  | .ClusterProposeRequest => ClusterMessageClusterProposeRequest
  | .ClusterReadRequest => ClusterMessageClusterReadRequest
  | .ClusterProposeResponse => ClusterMessageClusterProposeResponse
  | .ClusterReadResponse => ClusterMessageClusterReadResponse
  | .ClusterForwardWriteRequest => ClusterMessageForwardWriteRequest
  | .ClusterForwardWriteResponse => ClusterMessageForwardWriteResponse
  | .SourceSetMaxIngestRate => ClusterMessageSourceSetMaxRate
  | .LeaderInfosMessage => ClusterMessageLeaderInfos
  | .RemotingTestMessage => ClusterMessageRemotingTestMessage

/-- `TypeForClusterMessage`; a nil message and a struct of another type are `Unknown`. -/
def TypeForClusterMessage (clusterMessage : Option M) : ClusterMessageType :=
  match clusterMessage.bind pb.kindOf with
  | some k => typeOfKind k
  | none => ClusterMessageTypeUnknown

def kindOfType (nt : ClusterMessageType) : Option ClusterMessageKind :=
  if nt = ClusterMessageClusterProposeRequest then some .ClusterProposeRequest
  else if nt = ClusterMessageClusterReadRequest then some .ClusterReadRequest
  else if nt = ClusterMessageClusterProposeResponse then some .ClusterProposeResponse
  else if nt = ClusterMessageClusterReadResponse then some .ClusterReadResponse
  else if nt = ClusterMessageForwardWriteRequest then some .ClusterForwardWriteRequest
  else if nt = ClusterMessageForwardWriteResponse then some .ClusterForwardWriteResponse
  else if nt = ClusterMessageDDLStatement then some .DDLStatementInfo
  else if nt = ClusterMessageDDLCancel then some .DDLCancelMessage
  else if nt = ClusterMessageReloadProtobuf then some .ReloadProtobuf
  else if nt = ClusterMessageSourceSetMaxRate then some .SourceSetMaxIngestRate
  else if nt = ClusterMessageLeaderInfos then some .LeaderInfosMessage
  else if nt = ClusterMessageRemotingTestMessage then some .RemotingTestMessage
  else none

/-- `DeserializeClusterMessage`: empty data is a nil message. The varint is
converted to the `int32` type by `ClusterMessageType(nt)`, keeping its low 32 bits. -/
def DeserializeClusterMessage (data : Bytes) : Except String (Option M) :=
  if data.length = 0 then .ok none
  else
    match pb.DecodeVarint data with
    | .error e => .error e
    | .ok (nt, n) =>
      match kindOfType nt.toUInt32.toInt32 with
      | none => .error s!"invalid notification type {nt}"
      | some k => some <$> pb.Unmarshal k (data.drop n)

/-- `serializeClusterMessage`: the varint of the type, `uint64(nt)`, then the body. -/
def serializeClusterMessage (clusterMessage : Option M) : Except String Bytes :=
  let nt := TypeForClusterMessage pb clusterMessage
  if nt = ClusterMessageTypeUnknown then .error s!"invalid cluster message type {nt}"
  else
    -- a nil message has the unknown type, so only a typed message is marshalled
    match clusterMessage with
    | none => .error "proto: Marshal called with nil"
    | some m => (pb.EncodeVarint nt.toInt64.toUInt64 ++ ·) <$> pb.Marshal m

end Codec

structure ClusterRequest (M : Type) where
  requiresResponse : Bool
  sequence : Int64
  requestMessage : Option M

/-- `ClusterResponse`; Go's `int` error code is an integer. -/
structure ClusterResponse (M : Type) where
  sequence : Int64
  ok : Bool
  errCode : Int
  errMsg : Bytes
  responseMessage : Option M

section Messages

variable {M : Type} (pb : ProtoBuffer M)

def ClusterRequest.serialize (n : ClusterRequest M) (buff : Bytes) : Except String Bytes :=
  let rrb : UInt8 := if n.requiresResponse then 1 else 0
  let buff := AppendUint64ToBufferLE (buff ++ [rrb]) n.sequence.toUInt64
  (buff ++ ·) <$> serializeClusterMessage pb n.requestMessage

/-- `ClusterRequest.deserialize`, into a fresh request. -/
def ClusterRequest.deserialize (buff : Bytes) : Except RemotingError (ClusterRequest M) := do
  let rrb ← orIndexPanic buff.head?
  let requiresResponse ←
    if rrb = 1 then pure true
    else if rrb = 0 then pure false
    else throw (.panic "invalid requires response byte")
  let (seq, offset) ← orIndexPanic (ReadUint64FromBufferLE buff 1)
  let requestMessage ← (DeserializeClusterMessage pb (buff.drop offset)).mapError .error
  pure ⟨requiresResponse, seq.toInt64, requestMessage⟩

/-- `ClusterResponse.serialize`: `uint32(n.errCode)` keeps the low 32 bits of the code. -/
def ClusterResponse.serialize (n : ClusterResponse M) (buff : Bytes) : Except String Bytes :=
  let bok : UInt8 := if n.ok then 1 else 0
  let buff := buff ++ [bok]
  let buff :=
    if !n.ok then AppendStringToBufferLE (AppendUint32ToBufferLE buff (UInt32.ofInt n.errCode)) n.errMsg
    else buff
  let buff := AppendUint64ToBufferLE buff n.sequence.toUInt64
  match n.ok, n.responseMessage with
  | true, some m => (buff ++ ·) <$> serializeClusterMessage pb (some m)
  | _, _ => .ok buff

/-- `ClusterResponse.deserialize`, into a fresh response: the error code and
text of an ok response keep their zero values. -/
def ClusterResponse.deserialize (buff : Bytes) : Except RemotingError (ClusterResponse M) := do
  let bok ← orIndexPanic buff.head?
  let ok ←
    if bok = 1 then pure true
    else if bok = 0 then pure false
    else throw (.panic s!"invalid ok {bok}")
  let (errCode, errMsg, offset) ←
    if !ok then do
      let (code, offset) ← orIndexPanic (ReadUint32FromBufferLE buff 1)
      let (errMsg, offset) ← orIndexPanic (ReadStringFromBufferLE buff offset)
      pure (((code.toNat : Nat) : Int), errMsg, offset)
    else pure (0, [], 1)
  let (seq, offset) ← orIndexPanic (ReadUint64FromBufferLE buff offset)
  let responseMessage ← (DeserializeClusterMessage pb (buff.drop offset)).mapError .error
  pure ⟨seq.toInt64, ok, errCode, errMsg, responseMessage⟩

/-- What a response reads back as: an ok response with the zero error, an
error with the low 32 bits of its code and without a message. -/
def ClusterResponse.received (r : ClusterResponse M) : ClusterResponse M :=
  if r.ok then { r with errCode := 0, errMsg := [] }
  else { r with errCode := r.errCode % 2 ^ 32, responseMessage := none }

end Messages

/-! ## The codecs read back what they write -/

section RoundTrip

variable {M : Type} {pb : ProtoBuffer M}
open ExceptRun

theorem kindOfType_typeOfKind (k : ClusterMessageKind) :
    kindOfType (typeOfKind k).toInt64.toUInt64.toUInt32.toInt32 = some k := by
  cases k <;> decide

theorem typeOfKind_ne_unknown (k : ClusterMessageKind) : typeOfKind k ≠ ClusterMessageTypeUnknown := by
  cases k <;> decide

theorem serializeClusterMessage_eq_ok {clusterMessage : Option M} {bytes : Bytes}
    (h : serializeClusterMessage pb clusterMessage = .ok bytes) :
    ∃ m k body, clusterMessage = some m ∧ pb.kindOf m = some k ∧ pb.Marshal m = .ok body ∧
      bytes = pb.EncodeVarint (typeOfKind k).toInt64.toUInt64 ++ body := by
  cases clusterMessage with
  | none => simp [serializeClusterMessage, TypeForClusterMessage] at h
  | some m =>
    cases hKind : pb.kindOf m with
    | none => simp [serializeClusterMessage, TypeForClusterMessage, hKind] at h
    | some k =>
      simp only [serializeClusterMessage, TypeForClusterMessage, Option.bind_some, hKind,
        if_neg (typeOfKind_ne_unknown k), map_eq_ok] at h
      obtain ⟨body, hBody, rfl⟩ := h
      exact ⟨m, k, body, rfl, hKind, hBody, rfl⟩

theorem DeserializeClusterMessage_serialize (hL : pb.Lawful) {clusterMessage : Option M} {bytes : Bytes}
    (h : serializeClusterMessage pb clusterMessage = .ok bytes) :
    DeserializeClusterMessage pb bytes = .ok clusterMessage := by
  obtain ⟨m, k, body, rfl, hKind, hBody, rfl⟩ := serializeClusterMessage_eq_ok h
  have hLen : (pb.EncodeVarint (typeOfKind k).toInt64.toUInt64 ++ body).length ≠ 0 := by
    simp [hL.encodeVarint_ne_nil]
  rw [DeserializeClusterMessage, if_neg hLen, hL.decodeVarint_encode]
  simp only [kindOfType_typeOfKind, List.drop_left, hL.unmarshal_marshal m k body hKind hBody]
  rfl

theorem DeserializeClusterMessage_nil : DeserializeClusterMessage pb [] = .ok none := rfl

theorem ClusterRequest.deserialize_serialize (hL : pb.Lawful) (r : ClusterRequest M) {bytes : Bytes}
    (h : r.serialize pb [] = .ok bytes) : ClusterRequest.deserialize pb bytes = .ok r := by
  simp only [ClusterRequest.serialize, List.nil_append, map_eq_ok] at h
  obtain ⟨nBytes, hMsg, rfl⟩ := h
  obtain ⟨requiresResponse, sequence, requestMessage⟩ := r
  have hRead := ReadUint64FromBufferLE_append [if requiresResponse then 1 else 0] nBytes sequence.toUInt64
  have hDrop : (AppendUint64ToBufferLE [if requiresResponse then 1 else 0] sequence.toUInt64 ++ nBytes).drop 9 =
      nBytes := List.drop_left' (by simp [AppendUint64ToBufferLE])
  have hHead : (AppendUint64ToBufferLE [if requiresResponse then 1 else 0] sequence.toUInt64 ++ nBytes).head? =
      some (if requiresResponse then 1 else 0) := rfl
  simp only [List.length_singleton] at hRead
  simp only [ClusterRequest.deserialize, hHead, orIndexPanic, ok_bind, hRead, hDrop,
    DeserializeClusterMessage_serialize hL hMsg, Int64.toInt64_toUInt64]
  cases requiresResponse <;> rfl

theorem toNat_ofInt_emod (x : Int) : (((UInt32.ofInt x).toNat : Nat) : Int) = x % 2 ^ 32 := by
  simp only [UInt32.ofInt, UInt32.toNat_ofNat']
  omega

theorem ClusterResponse.serialize_eq_ok (hL : pb.Lawful) {r : ClusterResponse M} {bytes : Bytes}
    (h : r.serialize pb [] = .ok bytes) :
    ∃ tail, DeserializeClusterMessage pb tail = .ok (if r.ok then r.responseMessage else none) ∧
      bytes = (if r.ok then AppendUint64ToBufferLE [1] r.sequence.toUInt64
        else AppendUint64ToBufferLE
          (AppendStringToBufferLE (AppendUint32ToBufferLE [0] (UInt32.ofInt r.errCode)) r.errMsg)
          r.sequence.toUInt64) ++ tail := by
  obtain ⟨sequence, ok, errCode, errMsg, responseMessage⟩ := r
  cases ok with
  | false =>
    simp only [ClusterResponse.serialize, List.nil_append, Bool.not_false, if_true,
      Except.ok.injEq] at h
    exact ⟨[], DeserializeClusterMessage_nil, by simp [← h]⟩
  | true =>
    cases responseMessage with
    | none =>
      simp only [ClusterResponse.serialize, List.nil_append, Except.ok.injEq] at h
      exact ⟨[], DeserializeClusterMessage_nil, by simp [← h]⟩
    | some m =>
      simp only [ClusterResponse.serialize, List.nil_append, map_eq_ok] at h
      obtain ⟨nBytes, hMsg, rfl⟩ := h
      exact ⟨nBytes, DeserializeClusterMessage_serialize hL hMsg, by simp⟩

theorem ClusterResponse.deserialize_serialize (hL : pb.Lawful) (r : ClusterResponse M) (hShort : Short r.errMsg)
    {bytes : Bytes} (h : r.serialize pb [] = .ok bytes) :
    ClusterResponse.deserialize pb bytes = .ok r.received := by
  obtain ⟨tail, hTail, rfl⟩ := ClusterResponse.serialize_eq_ok hL h
  obtain ⟨sequence, ok, errCode, errMsg, responseMessage⟩ := r
  cases ok with
  | true =>
    have hRead := ReadUint64FromBufferLE_append [1] tail sequence.toUInt64
    have hDrop : (AppendUint64ToBufferLE [1] sequence.toUInt64 ++ tail).drop 9 = tail :=
      List.drop_left' (by simp [AppendUint64ToBufferLE])
    have hHead : (AppendUint64ToBufferLE [1] sequence.toUInt64 ++ tail).head? = some 1 := rfl
    simp only [List.length_singleton] at hRead
    simp only [if_true] at hTail ⊢
    simp only [ClusterResponse.deserialize, hHead, orIndexPanic, ok_bind, ↓reduceIte, pure_bind,
      Bool.not_true, Bool.false_eq_true, hRead, hDrop, hTail, Int64.toInt64_toUInt64]
    rfl
  | false =>
    set pre := AppendUint32ToBufferLE [0] (UInt32.ofInt errCode) with hPre
    have hPreLen : pre.length = 5 := by simp [hPre, AppendUint32ToBufferLE]
    have hStr : AppendStringToBufferLE pre errMsg = pre ++ lengthPrefixed errMsg :=
      appendBytesWithLength_eq pre errMsg
    have hHead : (AppendUint64ToBufferLE (AppendStringToBufferLE pre errMsg) sequence.toUInt64 ++ tail).head? =
        some 0 := rfl
    have hBuf : AppendUint64ToBufferLE (AppendStringToBufferLE pre errMsg) sequence.toUInt64 ++ tail =
        pre ++ lengthPrefixed errMsg ++ (AppendUint64ToBufferLE [] sequence.toUInt64 ++ tail) := by
      simp [hStr, AppendUint64ToBufferLE]
    have hCode : ReadUint32FromBufferLE
        (AppendUint64ToBufferLE (AppendStringToBufferLE pre errMsg) sequence.toUInt64 ++ tail) 1 =
          some (UInt32.ofInt errCode, 5) := by
      rw [hBuf, hPre, List.append_assoc]
      exact ReadUint32FromBufferLE_append [0] _ _
    have hText : ReadStringFromBufferLE
        (AppendUint64ToBufferLE (AppendStringToBufferLE pre errMsg) sequence.toUInt64 ++ tail) 5 =
          some (errMsg, (pre ++ lengthPrefixed errMsg).length) := by
      rw [hBuf, ← hPreLen]
      exact readBytesWithLength_append pre errMsg _ hShort
    have hRead := ReadUint64FromBufferLE_append (pre ++ lengthPrefixed errMsg) tail sequence.toUInt64
    have hDrop : (AppendUint64ToBufferLE (pre ++ lengthPrefixed errMsg) sequence.toUInt64 ++ tail).drop
        ((pre ++ lengthPrefixed errMsg).length + 8) = tail :=
      List.drop_left' (by simp [AppendUint64ToBufferLE]; omega)
    simp only [Bool.false_eq_true, if_false] at hTail ⊢
    rw [hStr] at hHead hCode hText ⊢
    simp only [ClusterResponse.deserialize, hHead, orIndexPanic, ok_bind, ↓reduceIte, pure_bind,
      Bool.not_false, hCode, hText, hRead, hDrop, hTail, Int64.toInt64_toUInt64, toNat_ofInt_emod]
    rfl

end RoundTrip

/-! ## Framing -/

/-- `messageHeaderSize`: one byte of message type and four of length. -/
def messageHeaderSize : Nat := 5

def requestMessageType : UInt8 := 1

def responseMessageType : UInt8 := 2

/-- `writeMessage`: the bytes it hands to `conn.Write`. -/
def writeMessage (msgType : UInt8) (msg : Bytes) : Except RemotingError Bytes :=
  if msgType = 0 then .error (.panic "message type written is zero")
  else .ok (AppendUint32ToBufferLE [msgType] (UInt32.ofNat msg.length) ++ msg)

/-- What `readMessage` keeps from one network read to the next: the bytes of
messages not yet whole and the length of the first, once its header is in
(`msgLen`, with `-1` as `none`). -/
structure ReadState where
  msgBuf : Bytes
  msgLen : Option Nat
deriving DecidableEq, Repr

/-- How `readMessage` ends: the connection's read failed and `closeAction`
ran; the handler returned an error, which is logged, and the loop returned
without `closeAction`; or a panic, after which `common.PanicHandler` exits
the process. -/
inductive ReadEnd (σ : Type) where
  | closed (s : σ)
  | stopped (s : σ) (err : String)
  | panicked (msg : String)

section Read

variable {σ : Type} (handler : σ → UInt8 → Bytes → Except RemotingError σ)

/-- The inner loop of `readMessage` over the buffer of one read: every whole
message goes to the handler with the message type read from the front of the
buffer before the loop. Each pass takes at least the header off the buffer,
so its length is enough fuel. -/
def handleBufferedMessages (msgType : UInt8) :
    Nat → ReadState → σ → Except (RemotingError × σ) (ReadState × σ)
  | 0, rs, s => .ok (rs, s)
  | fuel + 1, rs, s =>
    if messageHeaderSize ≤ rs.msgBuf.length then
      let msgLen : Option Nat :=
        match rs.msgLen with
        | some l => some l
        | none => (ReadUint32FromBufferLE rs.msgBuf 1).map fun r => r.1.toNat
      match msgLen with
      | none => .error (.panic "index out of range", s)
      | some msgLen =>
        if messageHeaderSize + msgLen ≤ rs.msgBuf.length then
          let msg := (rs.msgBuf.drop messageHeaderSize).take msgLen
          match handler s msgType msg with
          | .error e => .error (e, s)
          | .ok s' =>
            handleBufferedMessages msgType fuel ⟨rs.msgBuf.drop (messageHeaderSize + msgLen), none⟩ s'
        else .ok (⟨rs.msgBuf, some msgLen⟩, s)
    else .ok (rs, s)

/-- One pass of the outer loop of `readMessage`: the bytes of one `conn.Read`
appended to the buffer, whose first byte is the message type of the pass. -/
def readOnce (chunk : Bytes) (rs : ReadState) (s : σ) : Except (RemotingError × σ) (ReadState × σ) :=
  let msgBuf := rs.msgBuf ++ chunk
  match msgBuf with
  | [] => .error (.panic "index out of range", s)
  | msgType :: _ => handleBufferedMessages handler msgType msgBuf.length ⟨msgBuf, rs.msgLen⟩ s

/-- `readMessage` over the reads of a connection, each the bytes one
`conn.Read` returned, until the read that fails. -/
def readMessage : List Bytes → ReadState → σ → ReadEnd σ
  | [], _, s => .closed s
  | chunk :: chunks, rs, s =>
    match readOnce handler chunk rs s with
    | .ok (rs', s') => readMessage chunks rs' s'
    | .error (.error e, s') => .stopped s' e
    | .error (.panic p, _) => .panicked p

end Read

end PranaDB
