import PranaDB.Common.TimePacking
import PranaDB.Cluster.Locks

/-! # Row values (`common/row_encoding.go`, `push/util/util.go`)

`EncodeRow` writes each cell of a row as a null marker and, for a non-null
cell, its value in little-endian order; `DecodeRowWithIgnoredCols` reads them
back and appends the cells of the included columns. A row sent between shards
is framed with the row before and after the change, each behind its uint32
length; `Engine.processReceiveBatch` splits the frame and takes an empty part
for an absent row.

The appended cells of `DecodeRowWithIgnoredCols` are the list of cells it
adds to the last row of `rows`. A double is its IEEE bits, a decimal the
bytes of `WriteBin` for the column's precision and scale.
-/

namespace PranaDB
set_option autoImplicit false

/-- `AppendFloat64ToBufferLE`, on the bits of the value. -/
def AppendFloat64ToBufferLE (buffer : Bytes) (bits : UInt64) : Bytes := AppendUint64ToBufferLE buffer bits

def AppendTimestampToBuffer (buffer : Bytes) (ts : Timestamp) : Bytes :=
  AppendUint64ToBufferLE buffer ts.coreTime.ToPackedUint

/-- `encodeRowCol`; `none` where `Decimal.Encode` fails, and where the cell is
not of its column's type, which a Go row, whose columns have their types,
cannot hold. -/
def encodeRowCol (cell : Option Datum) (colType : ColumnType) (buffer : Bytes) : Option Bytes :=
  match cell with
  | none => some (buffer ++ [0])
  | some value =>
    let buffer := buffer ++ [1]
    match colType, value with
    | .tinyInt, .int64 v | .int, .int64 v | .bigInt, .int64 v => some (AppendUint64ToBufferLE buffer v.toUInt64)
    | .double, .float64 bits => some (AppendFloat64ToBufferLE buffer bits)
    | .varchar, .string s => some (AppendStringToBufferLE buffer s)
    | .timestamp _, .timestamp ts => some (AppendTimestampToBuffer buffer ts)
    | .decimal precision scale, .decimal d => (Decimal.Encode d buffer precision scale).bind Except.toOption
    | _, _ => none

/-- `EncodeRow`: the cells of the row, one per column type; a row with fewer
cells than columns is Go's index panic. -/
def EncodeRow : Row → List ColumnType → Bytes → Option Bytes
  | _, [], buffer => some buffer
  | cell :: row, colType :: colTypes, buffer => do
    let buffer ← encodeRowCol cell colType buffer
    EncodeRow row colTypes buffer
  | [], _ :: _, _ => none

/-- The switch of `DecodeRowWithIgnoredCols` on the column type: one non-null
value and the offset after it; `none` where `ReadDecimalFromBuffer` fails. -/
def decodeRowCol (buffer : Bytes) (offset : Nat) : ColumnType → Option (Datum × Nat)
  | .tinyInt | .int | .bigInt => (ReadUint64FromBufferLE buffer offset).map fun r => (.int64 r.1.toInt64, r.2)
  | .double => (ReadUint64FromBufferLE buffer offset).map fun r => (.float64 r.1, r.2)
  | .varchar => (ReadStringFromBufferLE buffer offset).map fun r => (.string r.1, r.2)
  | .timestamp fsp =>
    (ReadUint64FromBufferLE buffer offset).map fun r => (.timestamp ⟨CoreTime.FromPackedUint r.1, fsp⟩, r.2)
  | .decimal precision scale =>
    ((ReadDecimalFromBuffer buffer offset precision scale).bind Except.toOption).map fun r => (.decimal r.1, r.2)

/-- One cell of `DecodeRowWithIgnoredCols` at `offset`: the null marker and,
after a marker other than zero, the value. -/
def readCell (buffer : Bytes) (offset : Nat) (colType : ColumnType) : Option (Option Datum × Nat) := do
  let marker ← buffer[offset]?
  if marker = 0 then some (none, offset + 1)
  else (decodeRowCol buffer (offset + 1) colType).map fun r => (some r.1, r.2)

def isIncluded (includeCol : Option (List Bool)) (i : Nat) : Option Bool :=
  match includeCol with
  | none => some true
  | some includeCol => includeCol[i]?

/-- The loop of `DecodeRowWithIgnoredCols` over the column types from the
`i`-th, at `offset`; `none` where Go panics. -/
def decodeRowLoop (buffer : Bytes) (includeCol : Option (List Bool)) :
    Nat → Nat → List ColumnType → List (Option Datum) → Option (List (Option Datum))
  | _, _, [], rows => some rows
  | i, offset, colType :: colTypes, rows => do
    let included ← isIncluded includeCol i
    let (cell, offset) ← readCell buffer offset colType
    decodeRowLoop buffer includeCol (i + 1) offset colTypes (if included then rows ++ [cell] else rows)

/-- `DecodeRowWithIgnoredCols`: `rows` with the included cells appended. -/
def DecodeRowWithIgnoredCols (buffer : Bytes) (colTypes : List ColumnType) (includeCol : Option (List Bool))
    (rows : List (Option Datum)) : Option (List (Option Datum)) :=
  decodeRowLoop buffer includeCol 0 0 colTypes rows

def DecodeRow (buffer : Bytes) (colTypes : List ColumnType) (rows : List (Option Datum)) :
    Option (List (Option Datum)) :=
  DecodeRowWithIgnoredCols buffer colTypes none rows

def EncodePrevAndCurrentRow (prevValueBuff currValueBuff : Bytes) : Bytes :=
  AppendUint32ToBufferLE (AppendUint32ToBufferLE [] (UInt32.ofNat prevValueBuff.length) ++ prevValueBuff)
    (UInt32.ofNat currValueBuff.length) ++ currValueBuff

def subslice (buffer : Bytes) (lo hi : Nat) : Option Bytes :=
  if lo ≤ hi ∧ hi ≤ buffer.length then some ((buffer.drop lo).take (hi - lo)) else none

/-- The split of one received row in `Engine.processReceiveBatch`: the row
before and after the change, `none` where the frame holds none. The offsets
`4+lpvb` and `8+lpvb` are uint32 sums. -/
def decodeReceivedRow (row : Bytes) (colTypes : List ColumnType) :
    Option (Option (List (Option Datum)) × Option (List (Option Datum))) := do
  let (lpvb, _) ← ReadUint32FromBufferLE row 0
  let prev ← if lpvb ≠ 0 then do
      let prevBytes ← subslice row 4 (4 + lpvb).toNat
      (DecodeRow prevBytes colTypes []).map some
    else some none
  let (lcvb, _) ← ReadUint32FromBufferLE row (4 + lpvb).toNat
  let curr ← if lcvb ≠ 0 then do
      let currBytes ← subslice row (8 + lpvb).toNat row.length
      (DecodeRow currBytes colTypes []).map some
    else some none
  pure (prev, curr)

def encodeOptRow (row : Option Row) (colTypes : List ColumnType) : Option Bytes :=
  match row with
  | none => some []
  | some row => EncodeRow row colTypes []

/-! ## The bytes of a cell -/

/-- A cell of its column's type whose string, if any, fits a uint32 length, and
whose decimal, if any, `FromBin` reads back from the bytes `WriteBin` writes
for it. -/
def cellOk (colType : ColumnType) : Option Datum → Bool
  | none => true
  | some (.string s) => Datum.hasType colType (.string s) && decide (Short s)
  | some (.decimal d) =>
    match colType with
    | .decimal precision scale => d.RoundTrips precision scale
    | _ => false
  | some value => value.hasType colType

def cellBytes (colType : ColumnType) : Option Datum → Bytes
  | none => [0]
  | some (.int64 v) => 1 :: AppendUint64ToBufferLE [] v.toUInt64
  | some (.float64 bits) => 1 :: AppendUint64ToBufferLE [] bits
  | some (.string s) => 1 :: lengthPrefixed s
  | some (.timestamp ts) => 1 :: AppendUint64ToBufferLE [] ts.coreTime.ToPackedUint
  | some (.decimal d) =>
    match colType with
    | .decimal precision scale => 1 :: d.binBytes precision scale
    | _ => [1]

theorem cellBytes_some (colType : ColumnType) (value : Datum) : ∃ rest, cellBytes colType (some value) = 1 :: rest := by
  cases value with
  | decimal d => cases colType <;> exact ⟨_, rfl⟩
  | _ => exact ⟨_, rfl⟩

theorem encodeRowCol_ok {colType : ColumnType} {cell : Option Datum} (hOk : cellOk colType cell = true)
    (buffer : Bytes) : encodeRowCol cell colType buffer = some (buffer ++ cellBytes colType cell) := by
  cases cell with
  | none => rfl
  | some value =>
    cases colType <;> cases value <;>
      simp_all [cellOk, Datum.hasType, encodeRowCol, cellBytes, AppendUint64ToBufferLE, AppendFloat64ToBufferLE,
        AppendStringToBufferLE, AppendTimestampToBuffer, appendBytesWithLength_eq]
    case decimal.decimal precision scale d =>
      rw [Decimal.Encode_bind_toOption, (MyDecimal.RoundTrips_iff.mp hOk).1]
      simp

def RowFits (colTypes : List ColumnType) (row : Row) : Prop :=
  List.Forall₂ (fun colType cell => cellOk colType cell = true) colTypes row

instance (colTypes : List ColumnType) (row : Row) : Decidable (RowFits colTypes row) :=
  inferInstanceAs (Decidable (List.Forall₂ _ _ _))

def rowBytes : List ColumnType → Row → Bytes
  | colType :: colTypes, cell :: row => cellBytes colType cell ++ rowBytes colTypes row
  | _, _ => []

@[simp] theorem rowBytes_cons (colType : ColumnType) (colTypes : List ColumnType) (cell : Option Datum) (row : Row) :
    rowBytes (colType :: colTypes) (cell :: row) = cellBytes colType cell ++ rowBytes colTypes row := rfl

theorem EncodeRow_ok {colTypes : List ColumnType} {row : Row} (hFits : RowFits colTypes row) (buffer : Bytes) :
    EncodeRow row colTypes buffer = some (buffer ++ rowBytes colTypes row) := by
  induction hFits generalizing buffer with
  | nil => simp [EncodeRow, rowBytes]
  | cons hHead _ ih =>
    rw [EncodeRow, encodeRowCol_ok hHead, Option.bind_eq_bind, Option.bind_some, ih, rowBytes_cons,
      List.append_assoc]

/-! ## Reading a row back -/

theorem readUint64_cell (pre suf : Bytes) (u : UInt64) :
    ReadUint64FromBufferLE (pre ++ (1 :: AppendUint64ToBufferLE [] u) ++ suf) (pre.length + 1) =
      some (u, (pre ++ (1 :: AppendUint64ToBufferLE [] u)).length) := by
  have hRead := ReadUint64FromBufferLE_append (pre ++ [1]) suf u
  simp only [AppendUint64ToBufferLE, List.length_append, List.length_singleton, List.append_assoc,
    List.singleton_append, List.nil_append] at hRead ⊢
  rw [hRead]
  simp

theorem readString_cell (pre suf s : Bytes) (hShort : Short s) :
    ReadStringFromBufferLE (pre ++ (1 :: lengthPrefixed s) ++ suf) (pre.length + 1) =
      some (s, (pre ++ (1 :: lengthPrefixed s)).length) := by
  have hRead := readBytesWithLength_append (pre ++ [1]) s suf hShort
  simp only [List.length_append, List.length_singleton, List.append_assoc, List.singleton_append] at hRead ⊢
  exact hRead

theorem decodeRowCol_cellBytes {colType : ColumnType} {value : Datum} (hOk : cellOk colType (some value) = true)
    (pre suf : Bytes) :
    decodeRowCol (pre ++ cellBytes colType (some value) ++ suf) (pre.length + 1) colType =
      some (value, (pre ++ cellBytes colType (some value)).length) := by
  cases colType <;> cases value <;> simp only [cellOk, Datum.hasType, Bool.false_and, Bool.false_eq_true] at hOk
  case tinyInt.int64 v | int.int64 v | bigInt.int64 v =>
    simp only [cellBytes, decodeRowCol, readUint64_cell, Option.map_some, Int64.toInt64_toUInt64]
  case double.float64 bits =>
    simp only [cellBytes, decodeRowCol, readUint64_cell, Option.map_some]
  case varchar.string s =>
    simp only [Bool.true_and, decide_eq_true_eq] at hOk
    simp only [cellBytes, decodeRowCol, readString_cell _ _ _ hOk, Option.map_some]
  case timestamp.timestamp fsp ts =>
    simp only [Bool.and_eq_true, beq_iff_eq, decide_eq_true_eq] at hOk
    obtain ⟨hFsp, hValid⟩ := hOk
    subst hFsp
    simp only [cellBytes, decodeRowCol, readUint64_cell, Option.map_some, CoreTime.FromPackedUint_ToPackedUint hValid]
  case decimal.decimal precision scale d =>
    have hBuf : pre ++ cellBytes (.decimal precision scale) (some (.decimal d)) ++ suf =
        pre ++ [1] ++ d.binBytes precision scale ++ suf := by
      simp [cellBytes]
    have hRead := ReadDecimalFromBuffer_of_FromBin (MyDecimal.RoundTrips_iff.mp hOk).2 (pre ++ [1]) suf
    rw [List.length_append, List.length_singleton] at hRead
    rw [hBuf, decodeRowCol, hRead]
    simp [cellBytes, Except.toOption]
    omega

theorem readCell_cellBytes {colType : ColumnType} {cell : Option Datum} (hOk : cellOk colType cell = true)
    (pre suf : Bytes) :
    readCell (pre ++ cellBytes colType cell ++ suf) pre.length colType =
      some (cell, (pre ++ cellBytes colType cell).length) := by
  cases cell with
  | none => simp [readCell, cellBytes]
  | some value =>
    have hMarker : (pre ++ cellBytes colType (some value) ++ suf)[pre.length]? = some 1 := by
      obtain ⟨rest, hRest⟩ := cellBytes_some colType value
      simp [hRest]
    rw [readCell, hMarker, Option.bind_eq_bind, Option.bind_some, if_neg (by decide),
      decodeRowCol_cellBytes hOk, Option.map_some]

/-! ## The included columns -/

/-- What `DecodeRowWithIgnoredCols` is for: the cells of the included columns,
in table order. -/
def selectCols (includeCol : Option (List Bool)) (row : Row) : Row :=
  match includeCol with
  | none => row
  | some includeCol => ((row.zip includeCol).filter (·.2)).map (·.1)

@[simp] theorem selectCols_nil (includeCol : Option (List Bool)) : selectCols includeCol [] = [] := by
  cases includeCol <;> rfl

theorem isIncluded_step {includeCol : Option (List Bool)} (i : Nat)
    (hLen : ∀ inc, includeCol = some inc → i < inc.length) (cell : Option Datum) (row : Row) :
    ∃ b, isIncluded includeCol i = some b ∧
      selectCols (includeCol.map (·.drop i)) (cell :: row) =
        (if b then [cell] else []) ++ selectCols (includeCol.map (·.drop (i + 1))) row := by
  cases includeCol with
  | none => exact ⟨true, rfl, rfl⟩
  | some inc =>
    have hi := hLen inc rfl
    refine ⟨inc[i], List.getElem?_eq_getElem hi, ?_⟩
    rw [Option.map_some, List.drop_eq_getElem_cons hi]
    cases inc[i] <;> simp [selectCols]

theorem decodeRowLoop_rowBytes {colTypes : List ColumnType} {row : Row} (hFits : RowFits colTypes row)
    (includeCol : Option (List Bool)) (suf : Bytes) :
    ∀ (i : Nat) (pre : Bytes) (rows : List (Option Datum)),
      (∀ inc, includeCol = some inc → i + colTypes.length ≤ inc.length) →
      decodeRowLoop (pre ++ rowBytes colTypes row ++ suf) includeCol i pre.length colTypes rows =
        some (rows ++ selectCols (includeCol.map (·.drop i)) row) := by
  induction hFits with
  | nil =>
    intro i pre rows _
    simp [decodeRowLoop]
  | @cons colType cell colTypes row hHead _ ih =>
    intro i pre rows hLen
    obtain ⟨b, hb, hSel⟩ := isIncluded_step i (fun inc h => by have := hLen inc h; simp at this; omega) cell row
    have hBuff : pre ++ rowBytes (colType :: colTypes) (cell :: row) ++ suf =
        pre ++ cellBytes colType cell ++ (rowBytes colTypes row ++ suf) := by
      simp
    have hRest := ih (i + 1) (pre ++ cellBytes colType cell) (if b then rows ++ [cell] else rows)
      (fun inc h => by have := hLen inc h; simp at this; omega)
    rw [List.append_assoc (pre ++ cellBytes colType cell)] at hRest
    rw [decodeRowLoop, hb, Option.bind_eq_bind, Option.bind_some, hBuff, readCell_cellBytes hHead,
      Option.bind_eq_bind, Option.bind_some]
    dsimp only
    rw [hRest, hSel]
    cases b <;> simp

theorem DecodeRowWithIgnoredCols_EncodeRow {colTypes : List ColumnType} {row : Row} (hFits : RowFits colTypes row)
    {includeCol : Option (List Bool)} (hLen : ∀ inc, includeCol = some inc → colTypes.length ≤ inc.length)
    (rows : List (Option Datum)) :
    ∃ bytes, EncodeRow row colTypes [] = some bytes ∧
      DecodeRowWithIgnoredCols bytes colTypes includeCol rows = some (rows ++ selectCols includeCol row) := by
  refine ⟨rowBytes colTypes row, EncodeRow_ok hFits [], ?_⟩
  have hLoop := decodeRowLoop_rowBytes hFits includeCol [] 0 [] rows (by simpa using hLen)
  simp only [List.nil_append, List.append_nil, List.length_nil, List.drop_zero, Option.map_id'] at hLoop
  exact hLoop

theorem DecodeRow_rowBytes {colTypes : List ColumnType} {row : Row} (hFits : RowFits colTypes row)
    (rows : List (Option Datum)) : DecodeRow (rowBytes colTypes row) colTypes rows = some (rows ++ row) := by
  have hLoop := decodeRowLoop_rowBytes hFits none [] 0 [] rows (fun _ h => by cases h)
  simp only [List.nil_append, List.append_nil, List.length_nil, Option.map_none] at hLoop
  exact hLoop

/-! ## The frame of a changed row -/

def OptRowFits (colTypes : List ColumnType) : Option Row → Prop
  | none => True
  | some row => RowFits colTypes row

def optRowBytes (colTypes : List ColumnType) : Option Row → Bytes
  | none => []
  | some row => rowBytes colTypes row

theorem encodeOptRow_ok {colTypes : List ColumnType} {row : Option Row} (hFits : OptRowFits colTypes row) :
    encodeOptRow row colTypes = some (optRowBytes colTypes row) := by
  cases row with
  | none => rfl
  | some row => exact EncodeRow_ok hFits []

theorem cellBytes_ne_nil (colType : ColumnType) (cell : Option Datum) : cellBytes colType cell ≠ [] := by
  cases cell with
  | none => simp [cellBytes]
  | some value =>
    obtain ⟨rest, hRest⟩ := cellBytes_some colType value
    simp [hRest]

theorem optRowBytes_eq_nil_iff {colTypes : List ColumnType} (hCols : colTypes ≠ []) {row : Option Row}
    (hFits : OptRowFits colTypes row) : optRowBytes colTypes row = [] ↔ row = none := by
  rcases row with _ | row
  · simp [optRowBytes]
  · obtain ⟨colType, colTypes, rfl⟩ := List.exists_cons_of_ne_nil hCols
    rcases hFits with _ | ⟨_, _⟩
    simp [optRowBytes, cellBytes_ne_nil]

def decodePart (part : Bytes) (colTypes : List ColumnType) : Option (Option Row) :=
  if part ≠ [] then (DecodeRow part colTypes []).map some else some none

theorem ofNat_length_eq_zero_iff {bytes : Bytes} (hShort : Short bytes) :
    UInt32.ofNat bytes.length = 0 ↔ bytes = [] := by
  rw [← UInt32.toNat_inj, UInt32.toNat_ofNat', Nat.mod_eq_of_lt hShort, UInt32.toNat_zero, List.length_eq_zero_iff]

section Frame

variable (prevValueBuff currValueBuff : Bytes)

theorem EncodePrevAndCurrentRow_eq :
    EncodePrevAndCurrentRow prevValueBuff currValueBuff =
      AppendUint32ToBufferLE [] (UInt32.ofNat prevValueBuff.length) ++
        (prevValueBuff ++ AppendUint32ToBufferLE [] (UInt32.ofNat currValueBuff.length) ++ currValueBuff) := by
  simp [EncodePrevAndCurrentRow, AppendUint32ToBufferLE]

theorem length_EncodePrevAndCurrentRow :
    (EncodePrevAndCurrentRow prevValueBuff currValueBuff).length = 8 + prevValueBuff.length + currValueBuff.length := by
  simp [EncodePrevAndCurrentRow, AppendUint32ToBufferLE]
  omega

theorem decodeReceivedRow_EncodePrevAndCurrentRow (colTypes : List ColumnType)
    (hPrev : prevValueBuff.length + 8 < 2 ^ 32) (hCurr : Short currValueBuff) :
    decodeReceivedRow (EncodePrevAndCurrentRow prevValueBuff currValueBuff) colTypes =
      (decodePart prevValueBuff colTypes).bind fun prev =>
        (decodePart currValueBuff colTypes).map fun curr => (prev, curr) := by
  have hPrevShort : Short prevValueBuff := by unfold Short; omega
  have hLen : (UInt32.ofNat prevValueBuff.length).toNat = prevValueBuff.length := by
    rw [UInt32.toNat_ofNat']
    exact Nat.mod_eq_of_lt hPrevShort
  have h4 : (4 + UInt32.ofNat prevValueBuff.length).toNat = 4 + prevValueBuff.length := by
    rw [UInt32.toNat_add, hLen]
    exact Nat.mod_eq_of_lt (by simp; omega)
  have h8 : (8 + UInt32.ofNat prevValueBuff.length).toNat = 8 + prevValueBuff.length := by
    rw [UInt32.toNat_add, hLen]
    exact Nat.mod_eq_of_lt (by simp; omega)
  have hReadPrev : ReadUint32FromBufferLE (EncodePrevAndCurrentRow prevValueBuff currValueBuff) 0 =
      some (UInt32.ofNat prevValueBuff.length, 4) := by
    rw [EncodePrevAndCurrentRow_eq]
    exact ReadUint32FromBufferLE_append [] _ _
  have hReadCurr : ReadUint32FromBufferLE (EncodePrevAndCurrentRow prevValueBuff currValueBuff)
      (4 + prevValueBuff.length) = some (UInt32.ofNat currValueBuff.length, 8 + prevValueBuff.length) := by
    have hRead := ReadUint32FromBufferLE_append (AppendUint32ToBufferLE [] (UInt32.ofNat prevValueBuff.length) ++
      prevValueBuff) currValueBuff (UInt32.ofNat currValueBuff.length)
    simp only [AppendUint32ToBufferLE, List.length_append, List.nil_append, List.length_cons,
      List.length_nil] at hRead
    rw [EncodePrevAndCurrentRow, AppendUint32ToBufferLE, AppendUint32ToBufferLE, List.nil_append]
    rw [hRead]
    simp only [Option.some.injEq, Prod.mk.injEq, true_and]
    omega
  have hSlicePrev : subslice (EncodePrevAndCurrentRow prevValueBuff currValueBuff) 4 (4 + prevValueBuff.length) =
      some prevValueBuff := by
    rw [subslice, if_pos (by rw [length_EncodePrevAndCurrentRow]; omega), EncodePrevAndCurrentRow_eq,
      Nat.add_sub_cancel_left]
    simp [AppendUint32ToBufferLE]
  have hSliceCurr : subslice (EncodePrevAndCurrentRow prevValueBuff currValueBuff) (8 + prevValueBuff.length)
      (EncodePrevAndCurrentRow prevValueBuff currValueBuff).length = some currValueBuff := by
    have hHead : (AppendUint32ToBufferLE (AppendUint32ToBufferLE [] (UInt32.ofNat prevValueBuff.length) ++
        prevValueBuff) (UInt32.ofNat currValueBuff.length)).length = 8 + prevValueBuff.length := by
      simp [AppendUint32ToBufferLE]
      omega
    rw [subslice, if_pos (by rw [length_EncodePrevAndCurrentRow]; omega), length_EncodePrevAndCurrentRow,
      EncodePrevAndCurrentRow, List.drop_left' hHead]
    rw [List.take_of_length_le (by omega)]
  simp only [decodeReceivedRow, decodePart, hReadPrev, h4, hReadCurr, h8, Option.bind_eq_bind, Option.bind_some,
    ne_eq, ofNat_length_eq_zero_iff hPrevShort, ofNat_length_eq_zero_iff hCurr, hSlicePrev, hSliceCurr]
  by_cases hp : prevValueBuff = [] <;> by_cases hc : currValueBuff = [] <;> simp [hp, hc, Option.map_eq_bind]

end Frame

theorem decodePart_optRowBytes {colTypes : List ColumnType} (hCols : colTypes ≠ []) {row : Option Row}
    (hFits : OptRowFits colTypes row) : decodePart (optRowBytes colTypes row) colTypes = some row := by
  have hNil := optRowBytes_eq_nil_iff hCols hFits
  cases row with
  | none => rfl
  | some row =>
    have hNe : optRowBytes colTypes (some row) ≠ [] := fun h => by simpa using hNil.mp h
    rw [decodePart, if_pos hNe, optRowBytes, DecodeRow_rowBytes hFits, List.nil_append, Option.map_some]

end PranaDB
