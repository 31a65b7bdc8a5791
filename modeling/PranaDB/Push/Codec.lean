import PranaDB.Common.Encoding

/-! # The Kafka binary codecs (`push/codec/codec.go`)

`KafkaCodec` turns the bytes of a Kafka key, value or header into a Go value
and back, in one of the fixed encodings. `Decode` reads a fixed-width
big-endian word from the front of the bytes; Go panics when there are fewer
bytes than the width, which is `none` here. `Encode` of an integer checks the
value against the upper bound of the width only, and then truncates it.

`Encode` is modelled on the values the sink hands it: a Go `int64`, which
`CoerceInt64` passes through, for the integer encodings, and a Go string for
`StringBytes`. A Go string is its bytes.
-/

namespace PranaDB
set_option autoImplicit false

/-- The encodings a `KafkaCodec` is made for. -/
inductive KafkaEncoding where
  | float32BE
  | float64BE
  | int32BE
  | int64BE
  | int16BE
  | stringBytes
deriving DecidableEq, Repr

/-- The Go values `KafkaCodec.Decode` returns; a float is its IEEE bits. -/
inductive KafkaValue where
  | nil
  | float32 (bits : UInt32)
  | float64 (bits : UInt64)
  | int32 (v : Int32)
  | int64 (v : Int64)
  | int16 (v : Int16)
  | string (s : Bytes)
deriving DecidableEq, Repr

def KafkaEncoding.width : KafkaEncoding → Nat
  | .float32BE => 4
  | .float64BE => 8
  | .int32BE => 4
  | .int64BE => 8
  | .int16BE => 2
  | .stringBytes => 0

/-- `KafkaCodec.Decode`; `none` is the panic of a read past the end. -/
def KafkaCodec.Decode (encoding : KafkaEncoding) (bytes : Bytes) : Option KafkaValue :=
  if bytes.length = 0 then some .nil
  else
    match encoding with
    | .float32BE => (ReadUint32FromBufferBE bytes 0).map fun r => .float32 r.1
    | .float64BE => (ReadUint64FromBufferBE bytes 0).map fun r => .float64 r.1
    | .int32BE => (ReadUint32FromBufferBE bytes 0).map fun r => .int32 r.1.toInt32
    | .int64BE => (ReadUint64FromBufferBE bytes 0).map fun r => .int64 r.1.toInt64
    | .int16BE => (ReadUint16FromBufferBE bytes 0).map fun r => .int16 r.1.toInt16
    | .stringBytes => some (.string bytes)

def KafkaCodec.encodeInt32BE (i : Int64) : Except String Bytes :=
  if i > 2147483647 then .error ("value " ++ toString i.toInt ++ " is too large to be converted to int32")
  else .ok (AppendUint32ToBufferBE [] i.toInt32.toUInt32)

def KafkaCodec.encodeInt64BE (i : Int64) : Bytes :=
  AppendUint64ToBufferBE [] i.toUInt64

def KafkaCodec.encodeInt16BE (i : Int64) : Except String Bytes :=
  if i > 32767 then .error ("value " ++ toString i.toInt ++ " is too large to be converted to int16")
  else
    let v := i.toInt16.toUInt16
    .ok [(v >>> 8).toUInt8, v.toUInt8]

def KafkaCodec.encodeStringBytes (s : Bytes) : Bytes := s

/-! ## Decoding -/

theorem Decode_eq_none_iff (encoding : KafkaEncoding) (bytes : Bytes) :
    KafkaCodec.Decode encoding bytes = none ↔ 0 < bytes.length ∧ bytes.length < encoding.width := by
  unfold KafkaCodec.Decode
  by_cases hEmpty : bytes.length = 0
  · simp [hEmpty]
  · rw [if_neg hEmpty]
    cases encoding <;>
      simp [KafkaEncoding.width, ReadUint16FromBufferBE, ReadUint32FromBufferBE, ReadUint64FromBufferBE] <;>
      omega

theorem Decode_stringBytes (bytes : Bytes) :
    KafkaCodec.Decode .stringBytes bytes = some (if bytes = [] then .nil else .string bytes) := by
  cases bytes <;> rfl

/-! ## Integers through the codec -/

theorem toInt_toInt16_eq_iff (i : Int64) : i.toInt16.toInt = i.toInt ↔ -2 ^ 15 ≤ i.toInt ∧ i.toInt < 2 ^ 15 := by
  have hLo := i.le_toInt
  have hHi := i.toInt_lt
  rw [Int64.toInt_toInt16, Int.bmod_def]
  push_cast
  split <;> omega

theorem toInt_toInt32_eq_iff (i : Int64) : i.toInt32.toInt = i.toInt ↔ -2 ^ 31 ≤ i.toInt ∧ i.toInt < 2 ^ 31 := by
  have hLo := i.le_toInt
  have hHi := i.toInt_lt
  rw [Int64.toInt_toInt32, Int.bmod_def]
  push_cast
  split <;> omega

theorem encodeInt16BE_ok_iff (i : Int64) : (∃ b, KafkaCodec.encodeInt16BE i = .ok b) ↔ i.toInt ≤ 32767 := by
  unfold KafkaCodec.encodeInt16BE
  by_cases h : i > 32767
  · have hInt : 32767 < i.toInt := Int64.lt_iff_toInt_lt.mp h
    simp only [if_pos h, reduceCtorEq, exists_false, false_iff, not_le]
    exact hInt
  · have hInt : ¬ (32767 : Int64).toInt < i.toInt := fun hlt => h (Int64.lt_iff_toInt_lt.mpr hlt)
    simp only [if_neg h, Except.ok.injEq, exists_eq', true_iff]
    exact Int.not_lt.mp hInt

theorem encodeInt32BE_ok_iff (i : Int64) : (∃ b, KafkaCodec.encodeInt32BE i = .ok b) ↔ i.toInt ≤ 2147483647 := by
  unfold KafkaCodec.encodeInt32BE
  by_cases h : i > 2147483647
  · have hInt : 2147483647 < i.toInt := Int64.lt_iff_toInt_lt.mp h
    simp only [if_pos h, reduceCtorEq, exists_false, false_iff, not_le]
    exact hInt
  · have hInt : ¬ (2147483647 : Int64).toInt < i.toInt := fun hlt => h (Int64.lt_iff_toInt_lt.mpr hlt)
    simp only [if_neg h, Except.ok.injEq, exists_eq', true_iff]
    exact Int.not_lt.mp hInt

theorem Decode_encodeInt16BE {i : Int64} {bytes : Bytes} (h : KafkaCodec.encodeInt16BE i = .ok bytes) :
    KafkaCodec.Decode .int16BE bytes = some (.int16 i.toInt16) := by
  unfold KafkaCodec.encodeInt16BE at h
  split at h
  · cases h
  · cases h
    rw [shift_bytes_eq, KafkaCodec.Decode, if_neg (by simp [BigEndian.length_encode])]
    simp only [ReadUint16FromBufferBE_encode, Option.map_some, Int16.toInt16_toUInt16]

theorem Decode_encodeInt32BE {i : Int64} {bytes : Bytes} (h : KafkaCodec.encodeInt32BE i = .ok bytes) :
    KafkaCodec.Decode .int32BE bytes = some (.int32 i.toInt32) := by
  unfold KafkaCodec.encodeInt32BE at h
  split at h
  · cases h
  · cases h
    rw [AppendUint32ToBufferBE_eq, List.nil_append, KafkaCodec.Decode, if_neg (by simp [BigEndian.length_encode])]
    simp only [ReadUint32FromBufferBE_encode, Option.map_some, Int32.toInt32_toUInt32]

theorem Decode_encodeInt64BE (i : Int64) :
    KafkaCodec.Decode .int64BE (KafkaCodec.encodeInt64BE i) = some (.int64 i) := by
  rw [KafkaCodec.encodeInt64BE, AppendUint64ToBufferBE_eq, List.nil_append, KafkaCodec.Decode,
    if_neg (by simp [BigEndian.length_encode])]
  simp only [ReadUint64FromBufferBE_encode, Option.map_some, Int64.toInt64_toUInt64]

theorem Decode_encodeInt16BE_of_range {i : Int64} (hLo : -2 ^ 15 ≤ i.toInt) (hHi : i.toInt < 2 ^ 15) :
    ∃ bytes, KafkaCodec.encodeInt16BE i = .ok bytes ∧
      KafkaCodec.Decode .int16BE bytes = some (.int16 i.toInt16) ∧ i.toInt16.toInt = i.toInt := by
  obtain ⟨bytes, hEnc⟩ := (encodeInt16BE_ok_iff i).mpr (by omega)
  exact ⟨bytes, hEnc, Decode_encodeInt16BE hEnc, (toInt_toInt16_eq_iff i).mpr ⟨hLo, hHi⟩⟩

theorem Decode_encodeInt32BE_of_range {i : Int64} (hLo : -2 ^ 31 ≤ i.toInt) (hHi : i.toInt < 2 ^ 31) :
    ∃ bytes, KafkaCodec.encodeInt32BE i = .ok bytes ∧
      KafkaCodec.Decode .int32BE bytes = some (.int32 i.toInt32) ∧ i.toInt32.toInt = i.toInt := by
  obtain ⟨bytes, hEnc⟩ := (encodeInt32BE_ok_iff i).mpr (by omega)
  exact ⟨bytes, hEnc, Decode_encodeInt32BE hEnc, (toInt_toInt32_eq_iff i).mpr ⟨hLo, hHi⟩⟩

/-- What `Encode` writes, `Decode` reads back as the value it was given: every
`int64`, an `int16` or `int32` within its range, and a non-empty string. -/
theorem KafkaCodec_round_trip :
    (∀ i : Int64, KafkaCodec.Decode .int64BE (KafkaCodec.encodeInt64BE i) = some (.int64 i)) ∧
    (∀ i : Int64, -2 ^ 15 ≤ i.toInt → i.toInt < 2 ^ 15 → ∃ bytes, KafkaCodec.encodeInt16BE i = .ok bytes ∧
      KafkaCodec.Decode .int16BE bytes = some (.int16 i.toInt16) ∧ i.toInt16.toInt = i.toInt) ∧
    (∀ i : Int64, -2 ^ 31 ≤ i.toInt → i.toInt < 2 ^ 31 → ∃ bytes, KafkaCodec.encodeInt32BE i = .ok bytes ∧
      KafkaCodec.Decode .int32BE bytes = some (.int32 i.toInt32) ∧ i.toInt32.toInt = i.toInt) ∧
    (∀ s : Bytes, s ≠ [] → KafkaCodec.Decode .stringBytes (KafkaCodec.encodeStringBytes s) = some (.string s)) := by
  refine ⟨Decode_encodeInt64BE, fun i hLo hHi => Decode_encodeInt16BE_of_range hLo hHi,
    fun i hLo hHi => Decode_encodeInt32BE_of_range hLo hHi, ?_⟩
  intro s hs
  rw [KafkaCodec.encodeStringBytes, Decode_stringBytes, if_neg hs]

theorem KafkaCodec_round_trip_minus_five :
    KafkaCodec.Decode .int64BE (KafkaCodec.encodeInt64BE (-5)) = some (.int64 (-5)) ∧
    (-2 ^ 15 ≤ (-5 : Int64).toInt ∧ (-5 : Int64).toInt < 2 ^ 15 ∧ ∃ bytes, KafkaCodec.encodeInt16BE (-5) = .ok bytes ∧
      KafkaCodec.Decode .int16BE bytes = some (.int16 (-5 : Int64).toInt16) ∧
        (-5 : Int64).toInt16.toInt = (-5 : Int64).toInt) ∧
    (-2 ^ 31 ≤ (-5 : Int64).toInt ∧ (-5 : Int64).toInt < 2 ^ 31 ∧ ∃ bytes, KafkaCodec.encodeInt32BE (-5) = .ok bytes ∧
      KafkaCodec.Decode .int32BE bytes = some (.int32 (-5 : Int64).toInt32) ∧
        (-5 : Int64).toInt32.toInt = (-5 : Int64).toInt) ∧
    ([104, 105] : Bytes) ≠ [] ∧
      KafkaCodec.Decode .stringBytes (KafkaCodec.encodeStringBytes [104, 105]) = some (.string [104, 105]) :=
  ⟨KafkaCodec_round_trip.1 (-5),
    ⟨by decide, by decide, KafkaCodec_round_trip.2.1 (-5) (by decide) (by decide)⟩,
    ⟨by decide, by decide, KafkaCodec_round_trip.2.2.1 (-5) (by decide) (by decide)⟩,
    ⟨by decide, KafkaCodec_round_trip.2.2.2 [104, 105] (by decide)⟩⟩

/-- Below the `int16` and `int32` ranges `Encode` succeeds and the value read
back is another one; short inputs make `Decode` panic; the empty string comes
back as `nil`. -/
theorem KafkaCodec_Encode_Decode_diverge :
    (∀ i : Int64, i.toInt < -2 ^ 15 → ∃ bytes, KafkaCodec.encodeInt16BE i = .ok bytes ∧
      KafkaCodec.Decode .int16BE bytes = some (.int16 i.toInt16) ∧ i.toInt16.toInt ≠ i.toInt) ∧
    (∀ i : Int64, i.toInt < -2 ^ 31 → ∃ bytes, KafkaCodec.encodeInt32BE i = .ok bytes ∧
      KafkaCodec.Decode .int32BE bytes = some (.int32 i.toInt32) ∧ i.toInt32.toInt ≠ i.toInt) ∧
    (∀ (encoding : KafkaEncoding) (bytes : Bytes),
      KafkaCodec.Decode encoding bytes = none ↔ 0 < bytes.length ∧ bytes.length < encoding.width) ∧
    KafkaCodec.Decode .stringBytes (KafkaCodec.encodeStringBytes []) = some .nil := by
  refine ⟨?_, ?_, Decode_eq_none_iff, rfl⟩
  · intro i hLow
    obtain ⟨bytes, hEnc⟩ := (encodeInt16BE_ok_iff i).mpr (by omega)
    refine ⟨bytes, hEnc, Decode_encodeInt16BE hEnc, ?_⟩
    rintro hEq
    have := ((toInt_toInt16_eq_iff i).mp hEq).1
    omega
  · intro i hLow
    obtain ⟨bytes, hEnc⟩ := (encodeInt32BE_ok_iff i).mpr (by omega)
    refine ⟨bytes, hEnc, Decode_encodeInt32BE hEnc, ?_⟩
    rintro hEq
    have := ((toInt_toInt32_eq_iff i).mp hEq).1
    omega

/-- -32769 is written as the bytes of 32767, and one byte is too short for
an `int16`. -/
theorem KafkaCodec_Encode_Decode_diverge_minus_32769 :
    KafkaCodec.encodeInt16BE (-32769) = .ok [127, 255] ∧ KafkaCodec.Decode .int16BE [127, 255] = some (.int16 32767) ∧
      (32767 : Int16).toInt ≠ (-32769 : Int64).toInt ∧ KafkaCodec.Decode .int16BE [1] = none := by
  obtain ⟨bytes, hEnc, hDec, hNe⟩ := KafkaCodec_Encode_Decode_diverge.1 (-32769) (by decide)
  have hBytes : KafkaCodec.encodeInt16BE (-32769) = .ok [127, 255] := by decide
  rw [hBytes, Except.ok.injEq] at hEnc
  subst hEnc
  have hWrapped : (-32769 : Int64).toInt16 = 32767 := by decide
  rw [hWrapped] at hDec hNe
  exact ⟨hBytes, hDec, hNe, (KafkaCodec_Encode_Decode_diverge.2.2.1 .int16BE [1]).mpr ⟨by decide, by decide⟩⟩

end PranaDB
