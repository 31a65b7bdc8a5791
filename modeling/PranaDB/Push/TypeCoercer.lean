import Mathlib
import PranaDB.Lib.Strconv

/-! # Coercing decoded values (`push/codec/type_coercer.go`)

`CoerceInt64`, `CoerceString` and `CoerceDecimal` turn a value decoded from a
Kafka message into the type of its column, each by a type switch over the Go
types. The values here are those of the integer types, bools and strings;
floats, decimals, timestamps and protobuf enums are left out. Go's `int` is 64
bits wide. A decimal is the number it stands for, and the parser of decimal
strings (`MyDecimal.FromString`) is a parameter of `CoerceDecimal`.

On every integer type `CoerceInt64` gives the value when it fits in `int64`
and `CoerceString` its base-10 numeral, which `CoerceInt64` reads back.
`CoerceDecimal` has no case for `int` and converts an `int16` with
`uint64(v)`, which sign-extends it: a negative `int16` becomes a decimal
`2^64` larger.
-/

namespace PranaDB
set_option autoImplicit false

open Strconv

/-- The Go values the coercers are modelled on. -/
inductive GoValue where
  | int (v : Int64)
  | int16 (v : Int16)
  | int32 (v : Int32)
  | int64 (v : Int64)
  | uint16 (v : UInt16)
  | uint32 (v : UInt32)
  | uint64 (v : UInt64)
  | bool (v : Bool)
  | string (s : List Char)
deriving DecidableEq, Repr

/-- `common.Decimal`, as the number it stands for. -/
structure Decimal where
  value : ℚ
deriving DecidableEq

def NewDecFromInt64 (i : Int64) : Decimal := ⟨i.toInt⟩

def NewDecFromUint64 (i : UInt64) : Decimal := ⟨i.toNat⟩

/-- How the coercers fail. -/
inductive CoerceError where
  /-- "value %d is too large to be coerced to int64" -/
  | tooLarge (v : Int)
  /-- "string value %s cannot be coerced to int64 %v" -/
  | stringNotInt64 (s : List Char) (err : NumError)
  /-- `coerceFailedErr`: "cannot coerce value %v, type %s to %s" -/
  | coerceFailed (v : GoValue) (t : String)
  /-- an error of `NewDecFromString`, passed on -/
  | decimal (msg : String)
deriving DecidableEq, Repr

def CoerceInt64 : GoValue → Except CoerceError Int64
  | .int64 v => .ok v
  | .int32 v => .ok v.toInt64
  | .uint64 v => if v.toNat > 2 ^ 63 - 1 then .error (.tooLarge v.toNat) else .ok v.toInt64
  | .uint32 v => .ok v.toUInt64.toInt64
  | .uint16 v => .ok v.toUInt64.toInt64
  | .int16 v => .ok v.toInt64
  | .int v => if v.toInt > 2 ^ 63 - 1 then .error (.tooLarge v.toInt) else .ok v
  | .bool v => .ok (if v then 1 else 0)
  | .string v =>
    match ParseInt v with
    | .ok r => .ok (Int64.ofInt r)
    | .error err => .error (.stringNotInt64 v err)

def CoerceString : GoValue → Except CoerceError (List Char)
  | .string v => .ok v
  | .int64 v => .ok (FormatInt v)
  | .int32 v => .ok (FormatInt v.toInt64)
  | .int16 v => .ok (FormatInt v.toInt64)
  | .int v => .ok (FormatInt v)
  | .uint64 v => .ok (FormatUint v)
  | .uint32 v => .ok (FormatUint v.toUInt64)
  | .uint16 v => .ok (FormatUint v.toUInt64)
  | .bool v => .error (.coerceFailed (.bool v) "string")

section Decimal

variable (NewDecFromString : List Char → Except CoerceError Decimal)

def CoerceDecimal : GoValue → Except CoerceError Decimal
  | .string v => NewDecFromString v
  | .int64 v => .ok (NewDecFromInt64 v)
  | .int32 v => .ok (NewDecFromInt64 v.toInt64)
  | .uint64 v => .ok (NewDecFromUint64 v)
  | .uint32 v => .ok (NewDecFromUint64 v.toUInt64)
  | .uint16 v => .ok (NewDecFromUint64 v.toUInt64)
  -- `uint64(v)` sign-extends the `int16` to 64 bits before it reads the bits unsigned
  | .int16 v => .ok (NewDecFromUint64 v.toInt64.toUInt64)
  | .int v => .error (.coerceFailed (.int v) "decimal")
  | .bool v => .error (.coerceFailed (.bool v) "decimal")

end Decimal

def GoValue.intValue? : GoValue → Option Int
  | .int v | .int64 v => some v.toInt
  | .int16 v => some v.toInt
  | .int32 v => some v.toInt
  | .uint16 v => some v.toNat
  | .uint32 v => some v.toNat
  | .uint64 v => some v.toNat
  | .bool _ | .string _ => none

/-! ## Conversions between the integer types -/

theorem toInt_toInt64_of_lt (u : UInt64) (h : u.toNat < 2 ^ 63) : u.toInt64.toInt = u.toNat := by
  rw [← Int64.toInt_toBitVec, UInt64.toBitVec_toInt64, BitVec.toInt_eq_toNat_cond]
  have hNat : u.toBitVec.toNat = u.toNat := rfl
  rw [hNat, if_pos (by omega)]

theorem toNat_toUInt64_toInt64 (v : Int16) :
    (v.toInt64.toUInt64.toNat : Int) = if v.toInt < 0 then v.toInt + 2 ^ 64 else v.toInt := by
  have hInt : v.toInt64.toInt = v.toInt := by simp
  rw [← Int64.toInt_toBitVec, BitVec.toInt_eq_toNat_cond] at hInt
  rw [← Int64.toNat_toBitVec]
  have hLt := v.toInt64.toBitVec.isLt
  split at hInt <;> split <;> omega

theorem toInt_toUInt64_toInt64_uint16 (v : UInt16) : v.toUInt64.toInt64.toInt = v.toNat := by
  have hLt := v.toNat_lt
  rw [toInt_toInt64_of_lt _ (by simp; omega), UInt16.toNat_toUInt64]

theorem toInt_toUInt64_toInt64_uint32 (v : UInt32) : v.toUInt64.toInt64.toInt = v.toNat := by
  have hLt := v.toNat_lt
  rw [toInt_toInt64_of_lt _ (by simp; omega), UInt32.toNat_toUInt64]

theorem le_of_intValue? {v : GoValue} {x : Int} (h : v.intValue? = some x) : -2 ^ 63 ≤ x := by
  cases v <;> simp only [GoValue.intValue?, Option.some.injEq, reduceCtorEq] at h <;> subst h
  · exact Int64.le_toInt _
  · have := Int16.le_toInt ‹_›
    omega
  · have := Int32.le_toInt ‹_›
    omega
  · exact Int64.le_toInt _
  all_goals omega

/-! ## What the coercers do with an integer -/

theorem CoerceInt64_of_intValue? {v : GoValue} {x : Int} (h : v.intValue? = some x) :
    (CoerceInt64 v).map Int64.toInt = if x < 2 ^ 63 then .ok x else .error (.tooLarge x) := by
  cases v with
  | int v =>
    obtain rfl := Option.some.inj h
    have hLt := v.toInt_lt
    rw [CoerceInt64, if_neg (by omega), if_pos hLt]
    rfl
  | int64 v =>
    obtain rfl := Option.some.inj h
    rw [CoerceInt64, if_pos v.toInt_lt]
    rfl
  | int16 v =>
    obtain rfl := Option.some.inj h
    have hLt := v.toInt_lt
    rw [CoerceInt64, if_pos (by omega)]
    simp [Except.map]
  | int32 v =>
    obtain rfl := Option.some.inj h
    have hLt := v.toInt_lt
    rw [CoerceInt64, if_pos (by omega)]
    simp [Except.map]
  | uint16 v =>
    obtain rfl := Option.some.inj h
    have hLt := v.toNat_lt
    rw [CoerceInt64, if_pos (by omega)]
    simp only [Except.map, toInt_toUInt64_toInt64_uint16]
  | uint32 v =>
    obtain rfl := Option.some.inj h
    have hLt := v.toNat_lt
    rw [CoerceInt64, if_pos (by omega)]
    simp only [Except.map, toInt_toUInt64_toInt64_uint32]
  | uint64 v =>
    obtain rfl := Option.some.inj h
    by_cases hBig : v.toNat > 2 ^ 63 - 1
    · rw [CoerceInt64, if_pos hBig, if_neg (by omega)]
      rfl
    · rw [CoerceInt64, if_neg hBig, if_pos (by omega)]
      simp only [Except.map, toInt_toInt64_of_lt v (by omega)]
  | bool _ | string _ => cases h

theorem CoerceString_of_intValue? {v : GoValue} {x : Int} (h : v.intValue? = some x) :
    CoerceString v = .ok (decimal x) := by
  cases v with
  | int v | int64 v =>
    obtain rfl := Option.some.inj h
    rw [CoerceString, FormatInt_eq]
  | int16 v | int32 v =>
    obtain rfl := Option.some.inj h
    simp [CoerceString, FormatInt_eq]
  | uint16 v | uint32 v | uint64 v =>
    obtain rfl := Option.some.inj h
    simp [CoerceString, FormatUint_eq]
  | bool _ | string _ => cases h

theorem CoerceInt64_string_decimal {x : Int} (h : -2 ^ 63 ≤ x) :
    (CoerceInt64 (.string (decimal x))).map Int64.toInt =
      if x < 2 ^ 63 then .ok x else .error (.stringNotInt64 (decimal x) .errRange) := by
  by_cases hx : x < 2 ^ 63
  · rw [CoerceInt64, ParseInt_decimal, if_pos ⟨h, hx⟩, if_pos hx]
    simp [Except.map, Int64.toInt_ofInt_of_le h hx]
  · rw [CoerceInt64, ParseInt_decimal, if_neg (fun h' => hx h'.2), if_neg hx]
    rfl

/-- What `CoerceString` writes, `CoerceInt64` reads back to the same result
as it gives on the value itself, up to the text of the error. -/
theorem CoerceInt64_CoerceString {v : GoValue} {x : Int} (h : v.intValue? = some x) :
    ∃ s, CoerceString v = .ok s ∧ IsDecimal s x ∧
      ((CoerceInt64 (.string s)).map Int64.toInt).toOption = ((CoerceInt64 v).map Int64.toInt).toOption := by
  refine ⟨decimal x, CoerceString_of_intValue? h, isDecimal_decimal x, ?_⟩
  rw [CoerceInt64_string_decimal (le_of_intValue? h), CoerceInt64_of_intValue? h]
  split <;> rfl

theorem CoerceInt64_CoerceString_int16 :
    (GoValue.int16 (-5)).intValue? = some (-5) ∧
      ∃ s, CoerceString (.int16 (-5)) = .ok s ∧ IsDecimal s (-5) ∧
        ((CoerceInt64 (.string s)).map Int64.toInt).toOption = ((CoerceInt64 (.int16 (-5))).map Int64.toInt).toOption :=
  ⟨by decide, CoerceInt64_CoerceString (by decide)⟩

section Decimal

variable (NewDecFromString : List Char → Except CoerceError Decimal)

/-- `CoerceDecimal` disagrees with `CoerceInt64`: a negative `int16` becomes a
decimal `2^64` larger, and an `int` is refused. A `uint64` above the range of
`int64` fails in `CoerceInt64` with one error, and its numeral with another. -/
theorem CoerceDecimal_CoerceInt64_disagree :
    (∀ v : Int16, v.toInt < 0 →
      (CoerceDecimal NewDecFromString (.int16 v)).map Decimal.value = .ok ((v.toInt + 2 ^ 64 : Int) : ℚ) ∧
        (CoerceInt64 (.int16 v)).map Int64.toInt = .ok v.toInt) ∧
    (∀ v : Int64, CoerceDecimal NewDecFromString (.int v) = .error (.coerceFailed (.int v) "decimal") ∧
        (CoerceInt64 (.int v)).map Int64.toInt = .ok v.toInt) ∧
    (∀ v : UInt64, 2 ^ 63 ≤ v.toNat →
      CoerceString (.uint64 v) = .ok (FormatUint v) ∧
        CoerceInt64 (.uint64 v) = .error (.tooLarge v.toNat) ∧
        CoerceInt64 (.string (FormatUint v)) = .error (.stringNotInt64 (FormatUint v) .errRange)) := by
  refine ⟨?_, ?_, ?_⟩
  · intro v hNeg
    constructor
    · simp only [CoerceDecimal, NewDecFromUint64, Except.map]
      have hNat := toNat_toUInt64_toInt64 v
      rw [if_pos hNeg] at hNat
      rw [← hNat]
      rfl
    · have hInt16 : (GoValue.int16 v).intValue? = some v.toInt := rfl
      rw [CoerceInt64_of_intValue? hInt16, if_pos (by omega)]
  · intro v
    constructor
    · rfl
    · rw [CoerceInt64_of_intValue? (rfl : (GoValue.int v).intValue? = some v.toInt), if_pos v.toInt_lt]
  · intro v hBig
    refine ⟨rfl, ?_, ?_⟩
    · rw [CoerceInt64, if_pos (by omega)]
    · have hParse := ParseInt_decimal v.toNat
      rw [if_neg (by omega)] at hParse
      rw [CoerceInt64, FormatUint_eq, hParse]

end Decimal

/-- The `int16` value -1, the `int` value 5 and the `uint64` value `2^63`. -/
theorem CoerceDecimal_CoerceInt64_disagree_minus_one :
    ((-1 : Int16).toInt < 0 ∧
      (CoerceDecimal (fun _ => .error (.decimal "")) (.int16 (-1))).map Decimal.value =
          .ok (((-1 : Int16).toInt + 2 ^ 64 : Int) : ℚ) ∧
        (CoerceInt64 (.int16 (-1))).map Int64.toInt = .ok (-1 : Int16).toInt) ∧
    (CoerceDecimal (fun _ => .error (.decimal "")) (.int 5) = .error (.coerceFailed (.int 5) "decimal") ∧
      (CoerceInt64 (.int 5)).map Int64.toInt = .ok (5 : Int64).toInt) ∧
    (2 ^ 63 ≤ (9223372036854775808 : UInt64).toNat ∧
      CoerceString (.uint64 9223372036854775808) = .ok (FormatUint 9223372036854775808) ∧
        CoerceInt64 (.uint64 9223372036854775808) = .error (.tooLarge (9223372036854775808 : UInt64).toNat) ∧
        CoerceInt64 (.string (FormatUint 9223372036854775808)) =
          .error (.stringNotInt64 (FormatUint 9223372036854775808) .errRange)) :=
  ⟨⟨by decide, (CoerceDecimal_CoerceInt64_disagree fun _ => .error (.decimal "")).1 (-1) (by decide)⟩,
    (CoerceDecimal_CoerceInt64_disagree fun _ => .error (.decimal "")).2.1 5,
    ⟨by decide,
      (CoerceDecimal_CoerceInt64_disagree fun _ => .error (.decimal "")).2.2 9223372036854775808 (by decide)⟩⟩

end PranaDB
