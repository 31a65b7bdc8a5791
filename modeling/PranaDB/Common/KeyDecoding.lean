import PranaDB.Common.KeyOrder

/-! # Decoding key columns undoes encoding them

`DecodeIndexOrPKCols` reads back the key columns `EncodeKeyCols` and
`EncodeIndexKeyCols` wrote, wherever the key sits in the buffer and whatever
follows it: one lemma per column type for the value, one for the null marker
of an index column, and a run lemma that chains the offsets along the key.
The string decoder fails on every buffer that does not hold a group encoding
at the offset and otherwise returns the encoded string.
-/

namespace PranaDB
set_option autoImplicit false

/-! ## One value -/

theorem KeyDecodeInt64_KeyEncodeInt64 (pre suf : Bytes) (v : Int64) :
    KeyDecodeInt64 (KeyEncodeInt64 pre v ++ suf) pre.length = some (v, pre.length + 8) := by
  rw [KeyDecodeInt64, KeyEncodeInt64, ReadUint64FromBufferBE_append]
  simp only [UInt64.xor_assoc, UInt64.xor_self, UInt64.xor_zero, Int64.toInt64_toUInt64]

theorem KeyDecodeTimestamp_KeyEncodeTimestamp (pre suf : Bytes) (ts : Timestamp)
    (hValid : ts.coreTime.Valid) :
    KeyDecodeTimestamp (KeyEncodeTimestamp pre ts ++ suf) pre.length ts.fsp =
      some (ts, pre.length + 8) := by
  rw [KeyDecodeTimestamp, KeyEncodeTimestamp, ReadUint64FromBufferBE_append]
  simp only [CoreTime.FromPackedUint_ToPackedUint hValid]

theorem append_keyBytes_int64 {t : ColumnType} (v : Int64) (hType : (Datum.int64 v).hasType t = true)
    (pre : Bytes) : pre ++ keyBytes t (.int64 v) = KeyEncodeInt64 pre v := by
  rw [keyBytes_int64 v hType, KeyEncodeInt64, AppendUint64ToBufferBE_eq]

theorem decodeKeyValue_keyBytes {t : ColumnType} {v : Datum} (hOk : keyOk t v) (pre suf : Bytes) :
    decodeKeyValue (pre ++ keyBytes t v ++ suf) pre.length t =
      .ok (v, pre.length + (keyBytes t v).length) := by
  obtain ⟨hOrd, hType⟩ := hOk
  cases t with
  | double | decimal _ _ => simp [ColumnType.keyOrdered] at hOrd
  | varchar =>
    obtain ⟨s, rfl⟩ := Datum.eq_string_of_hasType hType
    rw [keyBytes_string]
    show decodeKeyValue (KeyEncodeString pre s ++ suf) pre.length .varchar = _
    simp only [decodeKeyValue, KeyDecodeString_KeyEncodeString]
    rfl
  | timestamp fsp =>
    obtain ⟨ts, rfl, rfl, hValid⟩ := Datum.eq_timestamp_of_hasType hType
    have hBuf : pre ++ keyBytes (.timestamp ts.fsp) (.timestamp ts) = KeyEncodeTimestamp pre ts := by
      rw [keyBytes_timestamp, KeyEncodeTimestamp, AppendUint64ToBufferBE_eq]
    rw [hBuf]
    simp only [decodeKeyValue, KeyDecodeTimestamp_KeyEncodeTimestamp pre suf ts hValid, orOutOfRange,
      keyBytes_timestamp, BigEndian.length_encode]
    rfl
  | tinyInt | int | bigInt =>
    obtain ⟨x, rfl⟩ := Datum.eq_int64_of_hasType (by simp) hType
    rw [append_keyBytes_int64 x hType, keyBytes_int64 x hType, BigEndian.length_encode]
    simp only [decodeKeyValue, KeyDecodeInt64_KeyEncodeInt64, orOutOfRange]
    rfl

theorem DecodeIndexOrPKCol_keyBytes {t : ColumnType} {v : Datum} (hOk : keyOk t v)
    (pre suf : Bytes) (outputColIndex : Int) (rows : Rows) :
    DecodeIndexOrPKCol (pre ++ keyBytes t v ++ suf) pre.length t outputColIndex true rows =
      .ok (pre.length + (keyBytes t v).length, appendToColumn rows outputColIndex (some v)) := by
  simp only [DecodeIndexOrPKCol, if_true, pure_bind, Bool.false_eq_true, if_false,
    decodeKeyValue_keyBytes hOk]
  rfl

theorem DecodeIndexOrPKCol_indexKeyBytes {t : ColumnType} {c : Option Datum} (hOk : indexKeyOk t c)
    (pre suf : Bytes) (outputColIndex : Int) (rows : Rows) :
    DecodeIndexOrPKCol (pre ++ indexKeyBytes t c ++ suf) pre.length t outputColIndex false rows =
      .ok (pre.length + (indexKeyBytes t c).length, appendToColumn rows outputColIndex c) := by
  cases c with
  | none =>
    have hMarker : (pre ++ indexKeyBytes t none ++ suf)[pre.length]? = some 0 := by
      simp [indexKeyBytes]
    simp only [DecodeIndexOrPKCol, Bool.false_eq_true, if_false, hMarker, orOutOfRange]
    rfl
  | some v =>
    have hMarker : (pre ++ indexKeyBytes t (some v) ++ suf)[pre.length]? = some 1 := by
      simp [indexKeyBytes]
    have hBuf : pre ++ indexKeyBytes t (some v) ++ suf = pre ++ [1] ++ keyBytes t v ++ suf := by
      simp [indexKeyBytes]
    have hValue := decodeKeyValue_keyBytes ⟨hOk.1, hOk.2 v rfl⟩ (pre ++ [1]) suf
    rw [List.length_append, List.length_singleton, ← hBuf] at hValue
    have hLen : pre.length + 1 + (keyBytes t v).length = pre.length + (indexKeyBytes t (some v)).length := by
      simp only [indexKeyBytes, List.length_cons]
      omega
    simp only [DecodeIndexOrPKCol, Bool.false_eq_true, if_false, hMarker, orOutOfRange]
    rw [← hLen]
    simp only [bind, Except.bind, pure, Except.pure, hValue]
    rfl

/-! ## A whole key -/

theorem appendToColumn_append_filter (rows : Rows) (outputColIndex : Int) (c : Option Datum)
    (rest : List (Int × Option Datum)) :
    appendToColumn rows outputColIndex c ++ rest.filter (·.1 != -1) =
      rows ++ ((outputColIndex, c) :: rest).filter (·.1 != -1) := by
  unfold appendToColumn
  by_cases h : outputColIndex = -1 <;> simp [h]

section Run

variable {β : Type} {enc : ColumnType → β → Bytes} {ok : ColumnType → β → Prop}
  {cell : β → Option Datum} {pk : Bool}

theorem DecodeIndexOrPKCols_encodeAll
    (hCol : ∀ t x pre suf outputColIndex rows, ok t x →
      DecodeIndexOrPKCol (pre ++ enc t x ++ suf) pre.length t outputColIndex pk rows =
        .ok (pre.length + (enc t x).length, appendToColumn rows outputColIndex (cell x)))
    {ts : List ColumnType} {xs : List β} (hx : List.Forall₂ ok ts xs) :
    ∀ (outputCols : List Int), outputCols.length = ts.length → ∀ (pre suf : Bytes) (rows : Rows),
      DecodeIndexOrPKCols (pre ++ ListOrder.encodeAll enc ts xs ++ suf) pre.length pk ts outputCols
          rows =
        .ok (pre.length + (ListOrder.encodeAll enc ts xs).length,
          rows ++ (outputCols.zip (xs.map cell)).filter (·.1 != -1)) := by
  induction hx with
  | nil =>
    intro outputCols hLen pre suf rows
    rw [List.length_eq_zero_iff.mp hLen]
    simp [DecodeIndexOrPKCols]
  | @cons t x ts xs hOk _ ih =>
    intro outputCols hLen pre suf rows
    obtain ⟨outputCol, outputCols, rfl⟩ := List.exists_cons_of_length_eq_add_one hLen
    have hBuf : pre ++ ListOrder.encodeAll enc (t :: ts) (x :: xs) ++ suf =
        pre ++ enc t x ++ (ListOrder.encodeAll enc ts xs ++ suf) := by
      simp
    have hRest := ih outputCols (by simpa using hLen) (pre ++ enc t x) suf
      (appendToColumn rows outputCol (cell x))
    rw [List.append_assoc (pre ++ enc t x), ← hBuf, List.length_append,
      appendToColumn_append_filter] at hRest
    rw [hBuf]
    simp only [DecodeIndexOrPKCols, hCol t x pre _ outputCol rows hOk, bind, Except.bind]
    rw [← hBuf, hRest]
    simp [Nat.add_assoc]

end Run

theorem length_keyTypes {colTypes : List ColumnType} {colIndexes : List Nat}
    (hSome : ∀ i ∈ colIndexes, ∃ t, colTypes[i]? = some t) :
    (keyTypes colTypes colIndexes).length = colIndexes.length := by
  induction colIndexes with
  | nil => rfl
  | cons i colIndexes ih =>
    obtain ⟨t, hT⟩ := hSome i (List.mem_cons_self ..)
    rw [keyTypes_cons hT, List.length_cons, List.length_cons,
      ih (fun j hj => hSome j (List.mem_cons_of_mem i hj))]

theorem map_some_keyValues {colTypes : List ColumnType} {colIndexes : List Nat} {row : Row}
    (hTyped : ∀ i ∈ colIndexes, pkCellTyped colTypes row i = true) :
    (keyValues row colIndexes).map some = keyCells row colIndexes := by
  induction colIndexes with
  | nil => rfl
  | cons i colIndexes ih =>
    obtain ⟨t, v, -, hV, -⟩ := pkCellTyped_iff.mp (hTyped i (List.mem_cons_self ..))
    rw [keyValues_cons hV, List.map_cons, keyCells_cons, hV, Option.join_some,
      ih (fun j hj => hTyped j (List.mem_cons_of_mem i hj))]

/-! ## The string decoder accepts exactly the group encodings -/

theorem encodeGroups_ne_nil (s : Bytes) : encodeGroups s ≠ [] := by
  intro h
  have := nine_le_length_encodeGroups s
  rw [h, List.length_nil] at this
  omega

theorem KeyDecodeString_eq_ok_iff (buffer : Bytes) (offset : Nat) (s : Bytes) (offset' : Nat) :
    KeyDecodeString buffer offset = .ok (s, offset') ↔
      encodeGroups s <+: buffer.drop offset ∧ offset' = offset + (encodeGroups s).length := by
  constructor
  · intro h
    obtain ⟨-, hOffset, hPrefix⟩ := KeyDecodeString_sound h
    exact ⟨hPrefix, hOffset⟩
  · rintro ⟨⟨rest, hRest⟩, rfl⟩
    have hInside : offset ≤ buffer.length := by
      by_contra hOut
      rw [List.drop_eq_nil_of_le (by omega)] at hRest
      exact encodeGroups_ne_nil s (List.append_eq_nil_iff.mp hRest).1
    have hBuf : buffer = KeyEncodeString (buffer.take offset) s ++ rest := by
      rw [KeyEncodeString, List.append_assoc, hRest, List.take_append_drop]
    have hLen : (buffer.take offset).length = offset := by
      rw [List.length_take]
      omega
    have h := KeyDecodeString_KeyEncodeString (buffer.take offset) s rest
    rwa [← hBuf, hLen] at h

/-- Decoding the key columns of an encoded primary key or index key gives back
the key's cells in the output columns and the offset just after the key;
the string decoder never returns a value that is not encoded at the offset. -/
theorem DecodeIndexOrPKCols_EncodeKeyCols_EncodeIndexKeyCols (colTypes : List ColumnType)
    (colIndexes : List Nat) (hOrdered : ∀ t ∈ keyTypes colTypes colIndexes, t.keyOrdered = true)
    (outputCols : List Int) (hLen : outputCols.length = colIndexes.length) (row : Row)
    (pre suf : Bytes) (rows : Rows) :
    ((∀ i ∈ colIndexes, pkCellTyped colTypes row i = true) →
      ∃ key, EncodeKeyCols row colIndexes colTypes pre = some key ∧
        DecodeIndexOrPKCols (key ++ suf) pre.length true (keyTypes colTypes colIndexes) outputCols
            rows =
          .ok (key.length, rows ++ (outputCols.zip (keyCells row colIndexes)).filter (·.1 != -1))) ∧
    ((∀ i ∈ colIndexes, indexCellTyped colTypes row i = true) →
      ∃ key, EncodeIndexKeyCols row colIndexes colTypes pre = some key ∧
        DecodeIndexOrPKCols (key ++ suf) pre.length false (keyTypes colTypes colIndexes) outputCols
            rows =
          .ok (key.length, rows ++ (outputCols.zip (keyCells row colIndexes)).filter (·.1 != -1))) ∧
    (∀ (buffer : Bytes) (offset : Nat) (s : Bytes) (offset' : Nat),
      KeyDecodeString buffer offset = .ok (s, offset') ↔
        encodeGroups s <+: buffer.drop offset ∧ offset' = offset + (encodeGroups s).length) ∧
    (∀ (buffer : Bytes) (offset : Nat), (∀ s, ¬ encodeGroups s <+: buffer.drop offset) →
      ∃ e, KeyDecodeString buffer offset = .error e) := by
  refine ⟨?_, ?_, KeyDecodeString_eq_ok_iff, ?_⟩
  · intro hTyped
    have hKeyLen : outputCols.length = (keyTypes colTypes colIndexes).length := by
      rw [hLen, length_keyTypes fun i hi => by
        obtain ⟨t, -, hT, -⟩ := pkCellTyped_iff.mp (hTyped i hi)
        exact ⟨t, hT⟩]
    have h := @DecodeIndexOrPKCols_encodeAll Datum keyBytes keyOk some true
      (fun _ _ pre suf oc rows hOk => DecodeIndexOrPKCol_keyBytes hOk pre suf oc rows) _ _
      (forall₂_keyOk hOrdered hTyped) outputCols hKeyLen pre suf rows
    refine ⟨_, EncodeKeyCols_eq row colTypes colIndexes hTyped pre, ?_⟩
    rw [h, map_some_keyValues hTyped, List.length_append]
  · intro hTyped
    have hKeyLen : outputCols.length = (keyTypes colTypes colIndexes).length := by
      rw [hLen, length_keyTypes fun i hi => by
        obtain ⟨t, -, hT, -⟩ := indexCellTyped_iff.mp (hTyped i hi)
        exact ⟨t, hT⟩]
    have h := @DecodeIndexOrPKCols_encodeAll (Option Datum) indexKeyBytes indexKeyOk id false
      (fun _ _ pre suf oc rows hOk => DecodeIndexOrPKCol_indexKeyBytes hOk pre suf oc rows) _ _
      (forall₂_indexKeyOk hOrdered hTyped) outputCols hKeyLen pre suf rows
    refine ⟨_, EncodeIndexKeyCols_eq row colTypes colIndexes hTyped pre, ?_⟩
    rw [h, List.map_id, List.length_append]
  · intro buffer offset hNone
    cases hDecode : KeyDecodeString buffer offset with
    | error e => exact ⟨e, rfl⟩
    | ok result =>
      obtain ⟨s, offset'⟩ := result
      exact absurd ((KeyDecodeString_eq_ok_iff buffer offset s offset').mp hDecode).1 (hNone s)

/-- A VARCHAR and a BIGINT key column stored in the other order, behind a
one-byte prefix and followed by one more byte; the second column is decoded
but not output. -/
theorem DecodeIndexOrPKCols_EncodeKeyCols_EncodeIndexKeyCols_varchar_bigInt :
    (∀ t ∈ keyTypes [.varchar, .bigInt] [1, 0], t.keyOrdered = true) ∧
    ([0, -1] : List Int).length = [1, 0].length ∧
    ∃ key, EncodeKeyCols [some (.string [0]), some (.int64 5)] [1, 0] [.varchar, .bigInt] [7] =
        some key ∧
      DecodeIndexOrPKCols (key ++ [9]) 1 true (keyTypes [.varchar, .bigInt] [1, 0]) [0, -1] [] =
        .ok (key.length, (([0, -1] : List Int).zip
          (keyCells [some (.string [0]), some (.int64 5)] [1, 0])).filter (·.1 != -1)) :=
  ⟨by decide, rfl,
    (DecodeIndexOrPKCols_EncodeKeyCols_EncodeIndexKeyCols [.varchar, .bigInt] [1, 0] (by decide)
      [0, -1] rfl [some (.string [0]), some (.int64 5)] [7] [9] []).1 (by decide)⟩

end PranaDB
