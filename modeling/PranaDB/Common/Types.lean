import PranaDB.Lib.BigEndian
import PranaDB.Common.MyDecimal

/-! # Column types, values and rows

`common.ColumnType`, the values a row cell holds and the calendar time of the
vendored `types.Time`. A `CoreTime` keeps each field in the width of its bit
field, so a value that the packed representation cannot hold cannot be built.
-/

namespace PranaDB
set_option autoImplicit false

abbrev Bytes := List UInt8

/-- `common.ColumnType`; a decimal column carries its precision and scale, a
timestamp column its fractional seconds precision. -/
inductive ColumnType where
  | tinyInt
  | int
  | bigInt
  | double
  | varchar
  | timestamp (fsp : Nat)
  | decimal (precision scale : Int)
deriving DecidableEq, Repr

/-- `types.CoreTime`: the seven calendar fields at their bit-field widths
(14, 4, 5, 5, 6, 6 and 20 bits). -/
structure CoreTime where
  year : Fin 16384
  month : Fin 16
  day : Fin 32
  hour : Fin 32
  minute : Fin 64
  second : Fin 64
  microsecond : Fin 1048576
deriving DecidableEq, Repr

/-- `types.Time` of a TIMESTAMP column: its calendar time and precision. -/
structure Timestamp where
  coreTime : CoreTime
  fsp : Nat
deriving DecidableEq, Repr

/-- A non-null cell. Integer columns of every width hold an `int64`, a DOUBLE
holds the IEEE-754 bit pattern of its `float64`, a VARCHAR its bytes, a
DECIMAL the `MyDecimal` that `common.Decimal` wraps. -/
inductive Datum where
  | int64 (v : Int64)
  | float64 (bits : UInt64)
  | string (s : Bytes)
  | timestamp (t : Timestamp)
  | decimal (d : MyDecimal)
deriving DecidableEq, Repr

abbrev Row := List (Option Datum)

namespace CoreTime

def zero : CoreTime := ⟨0, 0, 0, 0, 0, 0, 0⟩

/-- `datetimeToUint64`: the decimal packing `compareTime` orders by. -/
def datetimeToUint64 (t : CoreTime) : Nat :=
  t.year.val * 10000000000 + t.month.val * 100000000 + t.day.val * 1000000 +
    t.hour.val * 10000 + t.minute.val * 100 + t.second.val

/-- `compareTime`: by the decimal packing, then by the microseconds. -/
def compareTime (a b : CoreTime) : Ordering :=
  (compare a.datetimeToUint64 b.datetimeToUint64).then
    (compare a.microsecond.val b.microsecond.val)

def Valid (t : CoreTime) : Prop := t.month.val ≤ 12

instance (t : CoreTime) : Decidable t.Valid := inferInstanceAs (Decidable (_ ≤ _))

/-- `Time.ToPackedUint`: `0YYYYYYY.YYYYYYYY.YYdddddh.hhhhmmmm.mmssssss` followed
by 24 bits of microseconds; the zero time packs to 0. -/
def ToPackedUint (t : CoreTime) : UInt64 :=
  if t = zero then 0 else
    let ymd := ((t.year.val * 13 + t.month.val) <<< 5) ||| t.day.val
    let hms := (t.hour.val <<< 12) ||| (t.minute.val <<< 6) ||| t.second.val
    UInt64.ofNat ((((ymd <<< 17) ||| hms) <<< 24) ||| t.microsecond.val)

/-- `FromDate`: each field is masked into its bit field. -/
def FromDate (year month day hour minute second microsecond : Nat) : CoreTime :=
  ⟨Fin.ofNat _ year, Fin.ofNat _ month, Fin.ofNat _ day, Fin.ofNat _ hour,
    Fin.ofNat _ minute, Fin.ofNat _ second, Fin.ofNat _ microsecond⟩

def FromPackedUint (packed : UInt64) : CoreTime :=
  if packed = 0 then zero else
    let p := packed.toNat
    let ymdhms := p >>> 24
    let ymd := ymdhms >>> 17
    let day := ymd &&& (2 ^ 5 - 1)
    let ym := ymd >>> 5
    let hms := ymdhms &&& (2 ^ 17 - 1)
    FromDate (ym / 13) (ym % 13) day (hms >>> 12) ((hms >>> 6) &&& (2 ^ 6 - 1))
      (hms &&& (2 ^ 6 - 1)) (p % 2 ^ 24)

end CoreTime

/-- Whether a non-null cell has the column type: the row factory builds each
column for one type, a timestamp cell holds a valid time of the column's
precision, and a decimal cell fits the column's precision and scale. -/
def Datum.hasType : ColumnType → Datum → Bool
  | .tinyInt, .int64 _ => true
  | .int, .int64 _ => true
  | .bigInt, .int64 _ => true
  | .double, .float64 _ => true
  | .varchar, .string _ => true
  | .timestamp fsp, .timestamp t => t.fsp == fsp && decide t.coreTime.Valid
  | .decimal precision scale, .decimal d => d.FitsBin precision scale
  | _, _ => false

theorem Datum.eq_int64_of_hasType {t : ColumnType} {v : Datum}
    (hT : t = .tinyInt ∨ t = .int ∨ t = .bigInt) (h : v.hasType t = true) : ∃ x, v = .int64 x := by
  rcases hT with rfl | rfl | rfl <;> cases v <;> simp_all [Datum.hasType]

theorem Datum.eq_string_of_hasType {v : Datum} (h : v.hasType .varchar = true) :
    ∃ s, v = .string s := by
  cases v <;> simp_all [Datum.hasType]

theorem Datum.eq_timestamp_of_hasType {fsp : Nat} {v : Datum} (h : v.hasType (.timestamp fsp) = true) :
    ∃ ts : Timestamp, v = .timestamp ts ∧ ts.fsp = fsp ∧ ts.coreTime.Valid := by
  cases v <;> simp_all [Datum.hasType]

/-- The order of values of one column type: signed for integers, unsigned
byte order for strings, `Time.Compare` for timestamps. DOUBLE values are
compared by bit pattern and DECIMAL values fall to the last case, only to make
the function total; no order law is claimed for them. -/
def Datum.compareValue : Datum → Datum → Ordering
  | .int64 a, .int64 b => compare a.toInt b.toInt
  | .string a, .string b => compare a b
  | .timestamp a, .timestamp b => CoreTime.compareTime a.coreTime b.coreTime
  | .float64 a, .float64 b => compare a.toNat b.toNat
  | a, b => compare a.ctorIdx b.ctorIdx

end PranaDB
