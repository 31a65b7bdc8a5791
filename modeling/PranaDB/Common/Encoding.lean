import PranaDB.Common.Types

/-! # Fixed-width integers in byte buffers

The helpers of `common/encoding.go`, written byte by byte as the source writes
them, and their agreement with the fixed-width encodings of the library.
A read past the end of the buffer, where Go panics, is `none`.
-/

namespace PranaDB
set_option autoImplicit false

def AppendUint64ToBufferBE (buffer : Bytes) (v : UInt64) : Bytes :=
  buffer ++ [(v >>> 56).toUInt8, (v >>> 48).toUInt8, (v >>> 40).toUInt8, (v >>> 32).toUInt8,
    (v >>> 24).toUInt8, (v >>> 16).toUInt8, (v >>> 8).toUInt8, v.toUInt8]

def AppendUint64ToBufferLE (buffer : Bytes) (v : UInt64) : Bytes :=
  buffer ++ [v.toUInt8, (v >>> 8).toUInt8, (v >>> 16).toUInt8, (v >>> 24).toUInt8,
    (v >>> 32).toUInt8, (v >>> 40).toUInt8, (v >>> 48).toUInt8, (v >>> 56).toUInt8]

def AppendUint32ToBufferLE (buffer : Bytes) (v : UInt32) : Bytes :=
  buffer ++ [v.toUInt8, (v >>> 8).toUInt8, (v >>> 16).toUInt8, (v >>> 24).toUInt8]

def AppendUint32ToBufferBE (buffer : Bytes) (v : UInt32) : Bytes :=
  buffer ++ [(v >>> 24).toUInt8, (v >>> 16).toUInt8, (v >>> 8).toUInt8, v.toUInt8]

/-- `ReadUint16FromBufferBE`: `binary.BigEndian.Uint16(buffer[offset:])`. -/
def ReadUint16FromBufferBE (buffer : Bytes) (offset : Nat) : Option (UInt16 × Nat) :=
  if offset + 2 ≤ buffer.length then
    some (UInt16.ofNat (BigEndian.decode ((buffer.drop offset).take 2)), offset + 2)
  else none

/-- `ReadUint32FromBufferBE`: `binary.BigEndian.Uint32(buffer[offset:])`. -/
def ReadUint32FromBufferBE (buffer : Bytes) (offset : Nat) : Option (UInt32 × Nat) :=
  if offset + 4 ≤ buffer.length then
    some (UInt32.ofNat (BigEndian.decode ((buffer.drop offset).take 4)), offset + 4)
  else none

/-- `ReadUint64FromBufferBE`: `binary.BigEndian.Uint64(buffer[offset:])`. -/
def ReadUint64FromBufferBE (buffer : Bytes) (offset : Nat) : Option (UInt64 × Nat) :=
  if offset + 8 ≤ buffer.length then
    some (UInt64.ofNat (BigEndian.decode ((buffer.drop offset).take 8)), offset + 8)
  else none

/-- `ReadUint64FromBufferLE`: `binary.LittleEndian.Uint64(buffer[offset:])`. -/
def ReadUint64FromBufferLE (buffer : Bytes) (offset : Nat) : Option (UInt64 × Nat) :=
  if offset + 8 ≤ buffer.length then
    some (UInt64.ofNat (BigEndian.decode ((buffer.drop offset).take 8).reverse), offset + 8)
  else none

/-- `ReadUint32FromBufferLE`: `binary.LittleEndian.Uint32(buffer[offset:])`. -/
def ReadUint32FromBufferLE (buffer : Bytes) (offset : Nat) : Option (UInt32 × Nat) :=
  if offset + 4 ≤ buffer.length then
    some (UInt32.ofNat (BigEndian.decode ((buffer.drop offset).take 4).reverse), offset + 4)
  else none

theorem byte_of_shiftRight (v : UInt64) (s : Nat) (hs : s < 64) :
    (v >>> UInt64.ofNat s).toUInt8 = UInt8.ofNat (v.toNat / 2 ^ s) := by
  apply UInt8.toNat_inj.mp
  simp [Nat.shiftRight_eq_div_pow, Nat.mod_eq_of_lt hs]

theorem byte_of_shiftRight32 (v : UInt32) (s : Nat) (hs : s < 32) :
    (v >>> UInt32.ofNat s).toUInt8 = UInt8.ofNat (v.toNat / 2 ^ s) := by
  apply UInt8.toNat_inj.mp
  simp [Nat.shiftRight_eq_div_pow, Nat.mod_eq_of_lt hs]

theorem byte_of_shiftRight16 (v : UInt16) (s : Nat) (hs : s < 16) :
    (v >>> UInt16.ofNat s).toUInt8 = UInt8.ofNat (v.toNat / 2 ^ s) := by
  apply UInt8.toNat_inj.mp
  simp [Nat.shiftRight_eq_div_pow, Nat.mod_eq_of_lt hs]

theorem encode_two (n : Nat) : BigEndian.encode 2 n = [UInt8.ofNat (n / 2 ^ 8), UInt8.ofNat n] := by
  simp only [BigEndian.encode_succ, BigEndian.encode_zero, List.nil_append, List.cons_append,
    Nat.div_div_eq_div_mul, List.cons.injEq]
  refine ⟨?_, ?_, trivial⟩ <;> apply UInt8.toNat_inj.mp <;> simp only [UInt8.toNat_ofNat'] <;> omega

theorem encode_eight (n : Nat) : BigEndian.encode 8 n =
    [UInt8.ofNat (n / 2 ^ 56), UInt8.ofNat (n / 2 ^ 48), UInt8.ofNat (n / 2 ^ 40),
      UInt8.ofNat (n / 2 ^ 32), UInt8.ofNat (n / 2 ^ 24), UInt8.ofNat (n / 2 ^ 16),
      UInt8.ofNat (n / 2 ^ 8), UInt8.ofNat n] := by
  simp only [BigEndian.encode_succ, BigEndian.encode_zero, List.nil_append, List.cons_append,
    Nat.div_div_eq_div_mul, List.cons.injEq]
  refine ⟨?_, ?_, ?_, ?_, ?_, ?_, ?_, ?_, trivial⟩ <;> apply UInt8.toNat_inj.mp <;>
    simp only [UInt8.toNat_ofNat'] <;> omega

theorem encode_four (n : Nat) : BigEndian.encode 4 n =
    [UInt8.ofNat (n / 2 ^ 24), UInt8.ofNat (n / 2 ^ 16), UInt8.ofNat (n / 2 ^ 8),
      UInt8.ofNat n] := by
  simp only [BigEndian.encode_succ, BigEndian.encode_zero, List.nil_append, List.cons_append,
    Nat.div_div_eq_div_mul, List.cons.injEq]
  refine ⟨?_, ?_, ?_, ?_, trivial⟩ <;> apply UInt8.toNat_inj.mp <;>
    simp only [UInt8.toNat_ofNat'] <;> omega

theorem AppendUint64ToBufferBE_eq (buffer : Bytes) (v : UInt64) :
    AppendUint64ToBufferBE buffer v = buffer ++ BigEndian.encode 8 v.toNat := by
  rw [encode_eight, AppendUint64ToBufferBE]
  simp only [← byte_of_shiftRight v _ (by decide : 56 < 64), ← byte_of_shiftRight v _ (by decide : 48 < 64),
    ← byte_of_shiftRight v _ (by decide : 40 < 64), ← byte_of_shiftRight v _ (by decide : 32 < 64),
    ← byte_of_shiftRight v _ (by decide : 24 < 64), ← byte_of_shiftRight v _ (by decide : 16 < 64),
    ← byte_of_shiftRight v _ (by decide : 8 < 64)]
  rfl

theorem AppendUint64ToBufferLE_eq (buffer : Bytes) (v : UInt64) :
    AppendUint64ToBufferLE buffer v = buffer ++ (BigEndian.encode 8 v.toNat).reverse := by
  rw [encode_eight, AppendUint64ToBufferLE]
  simp only [← byte_of_shiftRight v _ (by decide : 56 < 64), ← byte_of_shiftRight v _ (by decide : 48 < 64),
    ← byte_of_shiftRight v _ (by decide : 40 < 64), ← byte_of_shiftRight v _ (by decide : 32 < 64),
    ← byte_of_shiftRight v _ (by decide : 24 < 64), ← byte_of_shiftRight v _ (by decide : 16 < 64),
    ← byte_of_shiftRight v _ (by decide : 8 < 64)]
  rfl

theorem AppendUint32ToBufferLE_eq (buffer : Bytes) (v : UInt32) :
    AppendUint32ToBufferLE buffer v = buffer ++ (BigEndian.encode 4 v.toNat).reverse := by
  rw [encode_four, AppendUint32ToBufferLE]
  simp only [← byte_of_shiftRight32 v _ (by decide : 24 < 32),
    ← byte_of_shiftRight32 v _ (by decide : 16 < 32), ← byte_of_shiftRight32 v _ (by decide : 8 < 32)]
  rfl

theorem AppendUint32ToBufferBE_eq (buffer : Bytes) (v : UInt32) :
    AppendUint32ToBufferBE buffer v = buffer ++ BigEndian.encode 4 v.toNat := by
  rw [encode_four, AppendUint32ToBufferBE]
  simp only [← byte_of_shiftRight32 v _ (by decide : 24 < 32),
    ← byte_of_shiftRight32 v _ (by decide : 16 < 32), ← byte_of_shiftRight32 v _ (by decide : 8 < 32)]
  rfl

theorem shift_bytes_eq (v : UInt16) : [(v >>> 8).toUInt8, v.toUInt8] = BigEndian.encode 2 v.toNat := by
  rw [encode_two, ← byte_of_shiftRight16 v _ (by decide : 8 < 16)]
  rfl

@[simp] theorem length_AppendUint64ToBufferBE (buffer : Bytes) (v : UInt64) :
    (AppendUint64ToBufferBE buffer v).length = buffer.length + 8 := by
  simp [AppendUint64ToBufferBE]

theorem ReadUint64FromBufferBE_append (pre suf : Bytes) (v : UInt64) :
    ReadUint64FromBufferBE (AppendUint64ToBufferBE pre v ++ suf) pre.length =
      some (v, pre.length + 8) := by
  have hLen : (BigEndian.encode 8 v.toNat).length = 8 := BigEndian.length_encode 8 v.toNat
  have hDrop : ((AppendUint64ToBufferBE pre v ++ suf).drop pre.length).take 8 =
      BigEndian.encode 8 v.toNat := by
    rw [AppendUint64ToBufferBE_eq, List.append_assoc, List.drop_left,
      List.take_left' hLen]
  rw [ReadUint64FromBufferBE, if_pos (by simp [AppendUint64ToBufferBE]), hDrop,
    BigEndian.decode_encode_of_lt v.toNat_lt, UInt64.ofNat_toNat]

theorem ReadUint16FromBufferBE_encode (v : UInt16) :
    ReadUint16FromBufferBE (BigEndian.encode 2 v.toNat) 0 = some (v, 2) := by
  rw [ReadUint16FromBufferBE, if_pos (by simp [BigEndian.length_encode]), List.drop_zero,
    List.take_of_length_le (by simp [BigEndian.length_encode]), BigEndian.decode_encode_of_lt v.toNat_lt,
    UInt16.ofNat_toNat]

theorem ReadUint32FromBufferBE_encode (v : UInt32) :
    ReadUint32FromBufferBE (BigEndian.encode 4 v.toNat) 0 = some (v, 4) := by
  rw [ReadUint32FromBufferBE, if_pos (by simp [BigEndian.length_encode]), List.drop_zero,
    List.take_of_length_le (by simp [BigEndian.length_encode]), BigEndian.decode_encode_of_lt v.toNat_lt,
    UInt32.ofNat_toNat]

theorem ReadUint64FromBufferBE_encode (v : UInt64) :
    ReadUint64FromBufferBE (BigEndian.encode 8 v.toNat) 0 = some (v, 8) := by
  rw [ReadUint64FromBufferBE, if_pos (by simp [BigEndian.length_encode]), List.drop_zero,
    List.take_of_length_le (by simp [BigEndian.length_encode]), BigEndian.decode_encode_of_lt v.toNat_lt,
    UInt64.ofNat_toNat]

theorem ReadUint32FromBufferLE_append (pre suf : Bytes) (v : UInt32) :
    ReadUint32FromBufferLE (AppendUint32ToBufferLE pre v ++ suf) pre.length =
      some (v, pre.length + 4) := by
  have hLen : (BigEndian.encode 4 v.toNat).reverse.length = 4 := by simp
  have hDrop : ((AppendUint32ToBufferLE pre v ++ suf).drop pre.length).take 4 =
      (BigEndian.encode 4 v.toNat).reverse := by
    rw [AppendUint32ToBufferLE_eq, List.append_assoc, List.drop_left, List.take_left' hLen]
  rw [ReadUint32FromBufferLE, if_pos (by simp [AppendUint32ToBufferLE]), hDrop, List.reverse_reverse,
    BigEndian.decode_encode_of_lt v.toNat_lt, UInt32.ofNat_toNat]

theorem ReadUint64FromBufferLE_append (pre suf : Bytes) (v : UInt64) :
    ReadUint64FromBufferLE (AppendUint64ToBufferLE pre v ++ suf) pre.length =
      some (v, pre.length + 8) := by
  have hLen : (BigEndian.encode 8 v.toNat).reverse.length = 8 := by simp
  have hDrop : ((AppendUint64ToBufferLE pre v ++ suf).drop pre.length).take 8 =
      (BigEndian.encode 8 v.toNat).reverse := by
    rw [AppendUint64ToBufferLE_eq, List.append_assoc, List.drop_left, List.take_left' hLen]
  rw [ReadUint64FromBufferLE, if_pos (by simp [AppendUint64ToBufferLE]), hDrop, List.reverse_reverse,
    BigEndian.decode_encode_of_lt v.toNat_lt, UInt64.ofNat_toNat]

end PranaDB
