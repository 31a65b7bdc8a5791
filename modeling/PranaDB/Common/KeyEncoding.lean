import PranaDB.Common.StringKeyEncoding

/-! # Memcomparable key columns (`common/key_encoding.go`)

The key encoders of every column type, the encoders of the primary-key and
index-key columns of a row, and the decoder that reads key columns back into
rows. Integers are stored big-endian with the sign bit flipped, doubles with
the sign bit set or every bit inverted, timestamps as their packed value and
strings in groups. An index key column starts with 0 for NULL and with 1
before a value.

Go's runtime panics (an index past the end of a slice) are `none` or the
`outOfRange` error. A cell the Go getters would read from a chunk column of
another type, or a NULL primary-key cell, is outside the model (`none`): the
row factory builds every column for one type.
-/

namespace PranaDB
set_option autoImplicit false

def SignBitMask : UInt64 := (1 : UInt64) <<< 63

def KeyEncodeInt64 (buffer : Bytes) (val : Int64) : Bytes :=
  AppendUint64ToBufferBE buffer (val.toUInt64 ^^^ SignBitMask)

def KeyDecodeInt64 (buffer : Bytes) (offset : Nat) : Option (Int64 × Nat) :=
  match ReadUint64FromBufferBE buffer offset with
  | some (u, offset) => some ((u ^^^ SignBitMask).toInt64, offset)
  | none => none

/-- Go's `val >= 0` on the `float64` whose IEEE-754 bits are `bits`: false for
a NaN and for negative values, true for both zeros. -/
def float64GeZero (bits : UInt64) : Bool :=
  let exponent := (bits >>> 52) &&& 0x7FF
  let fraction := bits &&& 0xFFFFFFFFFFFFF
  let isNaN := exponent == 0x7FF && fraction != 0
  !isNaN && (bits &&& SignBitMask == 0 || bits &&& ~~~SignBitMask == 0)

/-- `KeyEncodeFloat64` on the bits of the value. -/
def KeyEncodeFloat64 (buffer : Bytes) (val : UInt64) : Bytes :=
  let uVal := if float64GeZero val then val ||| SignBitMask else ~~~val
  AppendUint64ToBufferBE buffer uVal

/-- `KeyDecodeFloat64`: the bits of the decoded value. -/
def KeyDecodeFloat64 (buffer : Bytes) (offset : Nat) : Option (UInt64 × Nat) :=
  match ReadUint64FromBufferBE buffer offset with
  | some (u, offset) =>
    some (if u &&& SignBitMask == SignBitMask then u &&& ~~~SignBitMask else ~~~u, offset)
  | none => none

/-- `KeyEncodeTimestamp`; `ToPackedUint` never returns its error. -/
def KeyEncodeTimestamp (buffer : Bytes) (val : Timestamp) : Bytes :=
  AppendUint64ToBufferBE buffer val.coreTime.ToPackedUint

def KeyEncodeDecimal (buffer : Bytes) (val : MyDecimal) (precision scale : Int) :
    Option (Except DecimalEncodeError Bytes) :=
  Decimal.Encode val buffer precision scale

def KeyDecodeDecimal (buffer : Bytes) (offset : Nat) (precision scale : Int) :
    Option (Except DecimalError (MyDecimal × Nat)) :=
  ReadDecimalFromBuffer buffer offset precision scale

/-- `KeyDecodeTimestamp` (`ReadTimestampFromBufferBE`): the time of the packed
value, with the precision of the column. -/
def KeyDecodeTimestamp (buffer : Bytes) (offset : Nat) (fsp : Nat) : Option (Timestamp × Nat) :=
  match ReadUint64FromBufferBE buffer offset with
  | some (enc, off) => some (⟨CoreTime.FromPackedUint enc, fsp⟩, off)
  | none => none

/-! ## Encoding the key columns of a row -/

def ColumnType.goTypeName : ColumnType → String
  | .tinyInt | .int | .bigInt => "int64"
  | .double => "float64"
  | .varchar => "string"
  | .timestamp _ => "Timestamp"
  | .decimal _ _ => "Decimal"

/-- The column types whose key encoding sorts and decodes as their values do:
every type but DOUBLE, whose encoding maps both zeros to one key and does not
restore a NaN, and DECIMAL, whose binary format the model does not relate to
the order of the values. -/
def ColumnType.keyOrdered : ColumnType → Bool
  | .double | .decimal _ _ => false
  | _ => true

/-- The errors of `EncodeKeyElement`; `outOfRange` is a Go panic in
`KeyEncodeDecimal`. -/
inductive KeyEncodeError where
  | expected (value : Datum) (typeName : String)
  | decimal (err : DecimalEncodeError)
  | outOfRange
deriving DecidableEq, Repr

def KeyEncodeError.message : KeyEncodeError → String
  | .expected _ typeName => "expected %v to be " ++ typeName
  | .decimal err => err.message
  | .outOfRange => "runtime error: index out of range"

/-- The switch on the column type of `EncodeKeyElement` and `EncodeKeyCol`:
one non-null value appended to `buffer`, `none` when the value is not of the
Go type the case expects or `KeyEncodeDecimal` fails. -/
def encodeKeyValue (colType : ColumnType) (value : Datum) (buffer : Bytes) : Option Bytes :=
  match colType, value with
  | .tinyInt, .int64 v | .int, .int64 v | .bigInt, .int64 v => some (KeyEncodeInt64 buffer v)
  | .double, .float64 v => some (KeyEncodeFloat64 buffer v)
  | .varchar, .string v => some (KeyEncodeString buffer v)
  | .timestamp _, .timestamp v => some (KeyEncodeTimestamp buffer v)
  | .decimal precision scale, .decimal v => (KeyEncodeDecimal buffer v precision scale).bind Except.toOption
  | _, _ => none

/-- The error of `EncodeKeyElement` when its switch fails: the error of
`KeyEncodeDecimal`, or a value of another Go type than the case expects. -/
def encodeKeyElementError (value : Datum) (colType : ColumnType) (buffer : Bytes) : KeyEncodeError :=
  match colType, value with
  | .decimal precision scale, .decimal v =>
    match KeyEncodeDecimal buffer v precision scale with
    | some (.error err) => .decimal err
    | _ => .outOfRange
  | _, _ => .expected value colType.goTypeName

/-- `EncodeKeyElement`: a bound of a scan range. -/
def EncodeKeyElement (value : Datum) (colType : ColumnType) (buffer : Bytes) :
    Except KeyEncodeError Bytes :=
  match encodeKeyValue colType value buffer with
  | some buffer => .ok buffer
  | none => .error (encodeKeyElementError value colType buffer)

/-- `EncodeKeyCol`: the value the getter of the column type reads. -/
def EncodeKeyCol (row : Row) (colIndex : Nat) (colType : ColumnType) (buffer : Bytes) :
    Option Bytes :=
  match row[colIndex]? with
  | some (some value) => encodeKeyValue colType value buffer
  | _ => none

/-- `EncodeKeyCols`: the primary-key columns, in key order. -/
def EncodeKeyCols (row : Row) (colIndexes : List Nat) (colTypes : List ColumnType)
    (buffer : Bytes) : Option Bytes :=
  match colIndexes with
  | [] => some buffer
  | colIndex :: colIndexes => do
    let colType ← colTypes[colIndex]?
    let buffer ← EncodeKeyCol row colIndex colType buffer
    EncodeKeyCols row colIndexes colTypes buffer

/-- `EncodeIndexKeyCols`: a 0 byte for a NULL cell (`row.IsNull`), otherwise a
1 byte and the value. -/
def EncodeIndexKeyCols (row : Row) (colIndexes : List Nat) (colTypes : List ColumnType)
    (buffer : Bytes) : Option Bytes :=
  match colIndexes with
  | [] => some buffer
  | colIndex :: colIndexes => do
    let colType ← colTypes[colIndex]?
    let buffer ← match row[colIndex]? with
      | some none => some (buffer ++ [0])
      | some (some _) => EncodeKeyCol row colIndex colType (buffer ++ [1])
      | none => none
    EncodeIndexKeyCols row colIndexes colTypes buffer

/-! ## The codeword of a value

Every encoder appends to the buffer it is given, so a key is the buffer
followed by one codeword per key column. -/

def keyBytes (colType : ColumnType) (value : Datum) : Bytes :=
  (encodeKeyValue colType value []).getD []

theorem encodeKeyValue_append (colType : ColumnType) (value : Datum) (buffer : Bytes) :
    encodeKeyValue colType value buffer = (encodeKeyValue colType value []).map (buffer ++ ·) := by
  cases colType <;> cases value <;>
    simp [encodeKeyValue, KeyEncodeInt64, KeyEncodeFloat64, KeyEncodeString, KeyEncodeTimestamp,
      AppendUint64ToBufferBE]
  case decimal.decimal precision scale d =>
    rw [KeyEncodeDecimal, KeyEncodeDecimal, Decimal.Encode_append]
    rcases Decimal.Encode d [] precision scale with _ | (_ | _) <;> rfl

theorem isSome_encodeKeyValue {colType : ColumnType} {value : Datum}
    (hType : value.hasType colType = true) : (encodeKeyValue colType value []).isSome := by
  cases colType <;> cases value <;> simp_all [Datum.hasType, encodeKeyValue]
  case decimal.decimal precision scale d =>
    simp [KeyEncodeDecimal, Decimal.Encode_bind_toOption, MyDecimal.FitsBin_iff.mp hType]

theorem encodeKeyValue_of_hasType {colType : ColumnType} {value : Datum}
    (hType : value.hasType colType = true) (buffer : Bytes) :
    encodeKeyValue colType value buffer = some (buffer ++ keyBytes colType value) := by
  obtain ⟨bytes, hBytes⟩ := Option.isSome_iff_exists.mp (isSome_encodeKeyValue hType)
  rw [encodeKeyValue_append, hBytes, keyBytes, hBytes]
  rfl

theorem keyBytes_int64 {t : ColumnType} (v : Int64) (hType : (Datum.int64 v).hasType t = true) :
    keyBytes t (.int64 v) = BigEndian.encode 8 (v.toUInt64 ^^^ SignBitMask).toNat := by
  cases t <;> simp_all [Datum.hasType, keyBytes, encodeKeyValue, KeyEncodeInt64,
    AppendUint64ToBufferBE_eq]

@[simp] theorem keyBytes_string (s : Bytes) : keyBytes .varchar (.string s) = encodeGroups s := by
  simp [keyBytes, encodeKeyValue, KeyEncodeString]

@[simp] theorem keyBytes_timestamp (fsp : Nat) (ts : Timestamp) :
    keyBytes (.timestamp fsp) (.timestamp ts) = BigEndian.encode 8 ts.coreTime.ToPackedUint.toNat := by
  simp [keyBytes, encodeKeyValue, KeyEncodeTimestamp, AppendUint64ToBufferBE_eq]

/-! ## The key of a row -/

def keyTypes (colTypes : List ColumnType) (colIndexes : List Nat) : List ColumnType :=
  colIndexes.filterMap (colTypes[·]?)

def keyCells (row : Row) (colIndexes : List Nat) : List (Option Datum) :=
  colIndexes.map fun i => (row[i]?).join

def keyValues (row : Row) (colIndexes : List Nat) : List Datum :=
  colIndexes.filterMap fun i => (row[i]?).join

@[simp] theorem keyTypes_nil (colTypes : List ColumnType) : keyTypes colTypes [] = [] := rfl

theorem keyTypes_cons {colTypes : List ColumnType} {i : Nat} {t : ColumnType}
    (hT : colTypes[i]? = some t) (colIndexes : List Nat) :
    keyTypes colTypes (i :: colIndexes) = t :: keyTypes colTypes colIndexes := by
  simp [keyTypes, hT]

@[simp] theorem keyCells_nil (row : Row) : keyCells row [] = [] := rfl

@[simp] theorem keyCells_cons (row : Row) (i : Nat) (colIndexes : List Nat) :
    keyCells row (i :: colIndexes) = (row[i]?).join :: keyCells row colIndexes := rfl

@[simp] theorem keyValues_nil (row : Row) : keyValues row [] = [] := rfl

theorem keyValues_cons {row : Row} {i : Nat} {v : Datum} (hV : row[i]? = some (some v))
    (colIndexes : List Nat) : keyValues row (i :: colIndexes) = v :: keyValues row colIndexes := by
  simp [keyValues, hV]

def pkCellTyped (colTypes : List ColumnType) (row : Row) (i : Nat) : Bool :=
  match colTypes[i]?, row[i]? with
  | some t, some (some v) => v.hasType t
  | _, _ => false

def indexCellTyped (colTypes : List ColumnType) (row : Row) (i : Nat) : Bool :=
  match colTypes[i]?, row[i]? with
  | some _, some none => true
  | some t, some (some v) => v.hasType t
  | _, _ => false

theorem pkCellTyped_iff {colTypes : List ColumnType} {row : Row} {i : Nat} :
    pkCellTyped colTypes row i = true ↔
      ∃ t v, colTypes[i]? = some t ∧ row[i]? = some (some v) ∧ v.hasType t = true := by
  unfold pkCellTyped
  cases colTypes[i]? with
  | none => simp
  | some t =>
    cases row[i]? with
    | none => simp
    | some c => cases c <;> simp

theorem indexCellTyped_iff {colTypes : List ColumnType} {row : Row} {i : Nat} :
    indexCellTyped colTypes row i = true ↔
      ∃ t c, colTypes[i]? = some t ∧ row[i]? = some c ∧ ∀ v ∈ c, v.hasType t = true := by
  unfold indexCellTyped
  cases colTypes[i]? with
  | none => simp
  | some t =>
    cases row[i]? with
    | none => simp
    | some c => cases c <;> simp

theorem EncodeKeyCols_eq (row : Row) (colTypes : List ColumnType) (colIndexes : List Nat)
    (hTyped : ∀ i ∈ colIndexes, pkCellTyped colTypes row i = true) (buffer : Bytes) :
    EncodeKeyCols row colIndexes colTypes buffer = some (buffer ++
      ListOrder.encodeAll keyBytes (keyTypes colTypes colIndexes) (keyValues row colIndexes)) := by
  induction colIndexes generalizing buffer with
  | nil => simp [EncodeKeyCols, keyTypes, keyValues]
  | cons i colIndexes ih =>
    obtain ⟨t, v, hT, hV, hType⟩ := pkCellTyped_iff.mp (hTyped i (List.mem_cons_self ..))
    have hCol : EncodeKeyCol row i t buffer = some (buffer ++ keyBytes t v) := by
      simp only [EncodeKeyCol, hV, encodeKeyValue_of_hasType hType]
    have hRest := ih (fun j hj => hTyped j (List.mem_cons_of_mem i hj)) (buffer ++ keyBytes t v)
    simp only [EncodeKeyCols, hT, hCol, Option.bind_eq_bind, Option.bind_some, hRest,
      keyTypes_cons hT, keyValues_cons hV, ListOrder.encodeAll_cons, List.append_assoc]

def indexKeyBytes (colType : ColumnType) : Option Datum → Bytes
  | none => [0]
  | some v => 1 :: keyBytes colType v

theorem EncodeIndexKeyCols_eq (row : Row) (colTypes : List ColumnType) (colIndexes : List Nat)
    (hTyped : ∀ i ∈ colIndexes, indexCellTyped colTypes row i = true) (buffer : Bytes) :
    EncodeIndexKeyCols row colIndexes colTypes buffer = some (buffer ++
      ListOrder.encodeAll indexKeyBytes (keyTypes colTypes colIndexes) (keyCells row colIndexes)) := by
  induction colIndexes generalizing buffer with
  | nil => simp [EncodeIndexKeyCols, keyTypes, keyCells]
  | cons i colIndexes ih =>
    obtain ⟨t, c, hT, hC, hType⟩ := indexCellTyped_iff.mp (hTyped i (List.mem_cons_self ..))
    have hRest := ih (fun j hj => hTyped j (List.mem_cons_of_mem i hj)) (buffer ++ indexKeyBytes t c)
    cases c with
    | none =>
      simp only [indexKeyBytes] at hRest
      simp only [EncodeIndexKeyCols, hT, hC, Option.bind_eq_bind, Option.bind_some, hRest,
        keyTypes_cons hT, keyCells_cons, Option.join_some, ListOrder.encodeAll_cons,
        indexKeyBytes, List.append_assoc]
    | some v =>
      have hCol : EncodeKeyCol row i t (buffer ++ [1]) = some (buffer ++ [1] ++ keyBytes t v) := by
        simp only [EncodeKeyCol, hC, encodeKeyValue_of_hasType (hType v rfl)]
      simp only [indexKeyBytes] at hRest
      simp only [EncodeIndexKeyCols, hT, hC, hCol, Option.bind_eq_bind, Option.bind_some,
        List.append_assoc, List.cons_append, List.nil_append, hRest, keyTypes_cons hT, keyCells_cons,
        Option.join_some, ListOrder.encodeAll_cons, indexKeyBytes]

/-! ## Decoding key columns into rows -/

/-- The decoded columns as the appends the decoder makes, in order: the output
column and the value, `none` for NULL. -/
abbrev Rows := List (Int × Option Datum)

def appendToColumn (rows : Rows) (outputColIndex : Int) (value : Option Datum) : Rows :=
  if outputColIndex != -1 then rows ++ [(outputColIndex, value)] else rows

def orOutOfRange {α : Type} : Option α → Except KeyDecodeError α
  | some a => .ok a
  | none => .error .outOfRange

/-- The switch on the column type of `DecodeIndexOrPKCol`: one non-null value
and the offset after it. -/
def decodeKeyValue (buffer : Bytes) (offset : Nat) : ColumnType → Except KeyDecodeError (Datum × Nat)
  | .tinyInt | .int | .bigInt => do
    let (u, offset) ← orOutOfRange (KeyDecodeInt64 buffer offset)
    pure (.int64 u, offset)
  | .double => do
    let (f, offset) ← orOutOfRange (KeyDecodeFloat64 buffer offset)
    pure (.float64 f, offset)
  | .varchar => do
    let (val, offset) ← KeyDecodeString buffer offset
    pure (.string val, offset)
  | .timestamp fsp => do
    let (val, offset) ← orOutOfRange (KeyDecodeTimestamp buffer offset fsp)
    pure (.timestamp val, offset)
  | .decimal precision scale => do
    let (val, offset) ← (← orOutOfRange (KeyDecodeDecimal buffer offset precision scale)).mapError .decimal
    pure (.decimal val, offset)

/-- `DecodeIndexOrPKCol`: an index column starts with its null marker. -/
def DecodeIndexOrPKCol (buffer : Bytes) (offset : Nat) (colType : ColumnType)
    (outputColIndex : Int) (pkCol : Bool) (rows : Rows) : Except KeyDecodeError (Nat × Rows) := do
  let (isNull, offset) ← if pkCol then pure (false, offset) else do
    let marker ← orOutOfRange buffer[offset]?
    pure (marker == 0, offset + 1)
  if isNull then
    pure (offset, appendToColumn rows outputColIndex none)
  else
    let (value, offset) ← decodeKeyValue buffer offset colType
    pure (offset, appendToColumn rows outputColIndex (some value))

/-- `DecodeIndexOrPKCols`: the `i`-th output column has the `i`-th type. -/
def DecodeIndexOrPKCols (buffer : Bytes) (offset : Nat) (pk : Bool)
    (indexOrPKColTypes : List ColumnType) (indexOrPKOutputCols : List Int) (rows : Rows) :
    Except KeyDecodeError (Nat × Rows) :=
  match indexOrPKOutputCols, indexOrPKColTypes with
  | [], _ => .ok (offset, rows)
  | outputCol :: outputCols, colType :: colTypes => do
    let (offset, rows) ← DecodeIndexOrPKCol buffer offset colType outputCol pk rows
    DecodeIndexOrPKCols buffer offset pk colTypes outputCols rows
  | _ :: _, [] => .error .outOfRange

end PranaDB
