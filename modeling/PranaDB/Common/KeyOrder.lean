import PranaDB.Common.KeyEncoding
import PranaDB.Common.StringKeyOrder
import PranaDB.Common.TimePacking

/-! # Keys sort as their values

The codeword of every key type is an order code: two codewords of one type
compare as the values do, and none is a prefix of another. Flipping the sign
bit of a two's complement word adds `2^63` to the signed value, so the
big-endian bytes of the flipped word sort in signed order; strings go through
the group encoding and timestamps through the packed value of a valid time.
The library's `compare_encodeAll` lifts this to composite keys, and the index
code puts the 0 marker of NULL before the 1 marker of every value.
-/

namespace PranaDB
set_option autoImplicit false

/-! ## Integers -/

theorem xor_two_pow_63 (n : Nat) (hn : n < 2 ^ 64) :
    n ^^^ 2 ^ 63 = (1 - n / 2 ^ 63) * 2 ^ 63 + n % 2 ^ 63 := by
  have hHigh : n / 2 ^ 63 < 2 := by omega
  have hDiv : (n ^^^ 2 ^ 63) / 2 ^ 63 = 1 - n / 2 ^ 63 := by
    rw [Nat.xor_div_two_pow, Nat.div_self (Nat.two_pow_pos 63)]
    rcases (by omega : n / 2 ^ 63 = 0 ∨ n / 2 ^ 63 = 1) with h | h <;> rw [h] <;> rfl
  have hMod : (n ^^^ 2 ^ 63) % 2 ^ 63 = n % 2 ^ 63 := by
    rw [Nat.xor_mod_two_pow, Nat.mod_self, Nat.xor_zero]
  rw [← Nat.div_add_mod' (n ^^^ 2 ^ 63) (2 ^ 63), hDiv, hMod]

theorem toNat_xor_SignBitMask (a : Int64) :
    ((a.toUInt64 ^^^ SignBitMask).toNat : Int) = a.toInt + 2 ^ 63 := by
  have hn : a.toUInt64.toNat < 2 ^ 64 := a.toUInt64.toNat_lt
  have hInt : a.toInt = if 2 * a.toUInt64.toNat < 2 ^ 64 then (a.toUInt64.toNat : Int)
      else (a.toUInt64.toNat : Int) - 2 ^ 64 := BitVec.toInt_eq_toNat_cond _
  rw [UInt64.toNat_xor, show SignBitMask.toNat = 2 ^ 63 from rfl, xor_two_pow_63 _ hn, hInt]
  split <;> omega

theorem compare_of_shift {m n : Nat} {x y c : Int} (hm : (m : Int) = x + c) (hn : (n : Int) = y + c) :
    compare m n = compare x y := by
  rcases lt_trichotomy x y with hLt | hEq | hGt
  · rw [compare_lt_iff_lt.mpr hLt, compare_lt_iff_lt.mpr (by omega)]
  · rw [compare_eq_iff_eq.mpr hEq, compare_eq_iff_eq.mpr (by omega)]
  · rw [compare_gt_iff_gt.mpr hGt, compare_gt_iff_gt.mpr (by omega)]

theorem toNat_lt_word (u : UInt64) : u.toNat < 256 ^ 8 := u.toNat_lt

theorem compare_keyBytes_int64 {t : ColumnType} {a b : Int64}
    (hA : (Datum.int64 a).hasType t = true) (hB : (Datum.int64 b).hasType t = true) :
    compare (keyBytes t (.int64 a)) (keyBytes t (.int64 b)) = compare a.toInt b.toInt := by
  rw [keyBytes_int64 a hA, keyBytes_int64 b hB,
    BigEndian.compare_encode (toNat_lt_word _) (toNat_lt_word _)]
  exact compare_of_shift (toNat_xor_SignBitMask a) (toNat_xor_SignBitMask b)

theorem eq_of_keyBytes_int64 {t : ColumnType} {a b : Int64}
    (hA : (Datum.int64 a).hasType t = true) (hB : (Datum.int64 b).hasType t = true)
    (h : keyBytes t (.int64 a) = keyBytes t (.int64 b)) : a = b := by
  rw [keyBytes_int64 a hA, keyBytes_int64 b hB] at h
  have hWord := BigEndian.encode_injective (toNat_lt_word _) (toNat_lt_word _) h
  have hA' := toNat_xor_SignBitMask a
  have hB' := toNat_xor_SignBitMask b
  exact Int64.toInt_inj.mp (by omega)

/-! ## The order code of key values -/

def keyOk (t : ColumnType) (v : Datum) : Prop := t.keyOrdered = true ∧ v.hasType t = true

theorem compare_keyBytes {t : ColumnType} {a b : Datum} (hA : keyOk t a) (hB : keyOk t b) :
    compare (keyBytes t a) (keyBytes t b) = a.compareValue b := by
  obtain ⟨hOrd, hTypeA⟩ := hA
  obtain ⟨-, hTypeB⟩ := hB
  cases t with
  | double | decimal _ _ => simp [ColumnType.keyOrdered] at hOrd
  | varchar =>
    obtain ⟨s, rfl⟩ := Datum.eq_string_of_hasType hTypeA
    obtain ⟨s', rfl⟩ := Datum.eq_string_of_hasType hTypeB
    rw [keyBytes_string, keyBytes_string, compare_encodeGroups]
    rfl
  | timestamp fsp =>
    obtain ⟨ts, rfl, -, hValid⟩ := Datum.eq_timestamp_of_hasType hTypeA
    obtain ⟨ts', rfl, -, hValid'⟩ := Datum.eq_timestamp_of_hasType hTypeB
    rw [keyBytes_timestamp, keyBytes_timestamp,
      BigEndian.compare_encode (toNat_lt_word _) (toNat_lt_word _),
      CoreTime.compare_ToPackedUint hValid hValid']
    rfl
  | tinyInt | int | bigInt =>
    obtain ⟨x, rfl⟩ := Datum.eq_int64_of_hasType (by simp) hTypeA
    obtain ⟨y, rfl⟩ := Datum.eq_int64_of_hasType (by simp) hTypeB
    exact compare_keyBytes_int64 hTypeA hTypeB

theorem eq_of_prefix_keyBytes {t : ColumnType} {a b : Datum} (hA : keyOk t a) (hB : keyOk t b)
    (h : keyBytes t a <+: keyBytes t b) : a = b := by
  obtain ⟨hOrd, hTypeA⟩ := hA
  obtain ⟨-, hTypeB⟩ := hB
  cases t with
  | double | decimal _ _ => simp [ColumnType.keyOrdered] at hOrd
  | varchar =>
    obtain ⟨s, rfl⟩ := Datum.eq_string_of_hasType hTypeA
    obtain ⟨s', rfl⟩ := Datum.eq_string_of_hasType hTypeB
    rw [keyBytes_string, keyBytes_string] at h
    rw [eq_of_prefix_encodeGroups s s' h]
  | timestamp fsp =>
    obtain ⟨ts, rfl, hFsp, hValid⟩ := Datum.eq_timestamp_of_hasType hTypeA
    obtain ⟨ts', rfl, hFsp', hValid'⟩ := Datum.eq_timestamp_of_hasType hTypeB
    rw [keyBytes_timestamp, keyBytes_timestamp] at h
    have hWord := BigEndian.encode_injective (toNat_lt_word _) (toNat_lt_word _)
      (h.eq_of_length (by simp))
    have hCore : ts.coreTime = ts'.coreTime := by
      rw [← CoreTime.FromPackedUint_ToPackedUint hValid, ← CoreTime.FromPackedUint_ToPackedUint hValid',
        UInt64.toNat_inj.mp hWord]
    obtain ⟨core, p⟩ := ts
    obtain ⟨core', p'⟩ := ts'
    simp_all
  | tinyInt | int | bigInt =>
    obtain ⟨x, rfl⟩ := Datum.eq_int64_of_hasType (by simp) hTypeA
    obtain ⟨y, rfl⟩ := Datum.eq_int64_of_hasType (by simp) hTypeB
    rw [eq_of_keyBytes_int64 hTypeA hTypeB (h.eq_of_length (by
      rw [keyBytes_int64 x hTypeA, keyBytes_int64 y hTypeB, BigEndian.length_encode,
        BigEndian.length_encode]))]

theorem keyBytes_isOrderCode : ListOrder.IsOrderCode keyBytes keyOk Datum.compareValue where
  compare_enc _ _ _ hA hB := compare_keyBytes hA hB
  prefix_free _ _ _ hA hB h := eq_of_prefix_keyBytes hA hB h

def compareNullable : Option Datum → Option Datum → Ordering
  | none, none => .eq
  | none, some _ => .lt
  | some _, none => .gt
  | some a, some b => a.compareValue b

def indexKeyOk (t : ColumnType) (c : Option Datum) : Prop :=
  t.keyOrdered = true ∧ ∀ v ∈ c, v.hasType t = true

theorem indexKeyBytes_isOrderCode :
    ListOrder.IsOrderCode indexKeyBytes indexKeyOk compareNullable where
  compare_enc := by
    rintro t (_ | a) (_ | b) hA hB
    · rfl
    · rfl
    · rfl
    · simp only [indexKeyBytes, List.compare_cons_cons, Std.ReflOrd.compare_self, Ordering.eq_then]
      exact compare_keyBytes ⟨hA.1, hA.2 a rfl⟩ ⟨hB.1, hB.2 b rfl⟩
  prefix_free := by
    rintro t (_ | a) (_ | b) hA hB h
    · rfl
    · simp [indexKeyBytes] at h
    · simp [indexKeyBytes] at h
    · rw [eq_of_prefix_keyBytes ⟨hA.1, hA.2 a rfl⟩ ⟨hB.1, hB.2 b rfl⟩
        (List.cons_prefix_cons.mp h).2]

/-! ## Composite keys -/

section Keys

variable {colTypes : List ColumnType} {colIndexes : List Nat}

theorem forall₂_keyOk {row : Row}
    (hOrdered : ∀ t ∈ keyTypes colTypes colIndexes, t.keyOrdered = true)
    (hTyped : ∀ i ∈ colIndexes, pkCellTyped colTypes row i = true) :
    List.Forall₂ keyOk (keyTypes colTypes colIndexes) (keyValues row colIndexes) := by
  induction colIndexes with
  | nil => exact .nil
  | cons i colIndexes ih =>
    obtain ⟨t, v, hT, hV, hType⟩ := pkCellTyped_iff.mp (hTyped i (List.mem_cons_self ..))
    rw [keyTypes_cons hT] at hOrdered ⊢
    rw [keyValues_cons hV]
    exact .cons ⟨hOrdered t (List.mem_cons_self ..), hType⟩
      (ih (fun u hu => hOrdered u (List.mem_cons_of_mem t hu))
        (fun j hj => hTyped j (List.mem_cons_of_mem i hj)))

theorem forall₂_indexKeyOk {row : Row}
    (hOrdered : ∀ t ∈ keyTypes colTypes colIndexes, t.keyOrdered = true)
    (hTyped : ∀ i ∈ colIndexes, indexCellTyped colTypes row i = true) :
    List.Forall₂ indexKeyOk (keyTypes colTypes colIndexes) (keyCells row colIndexes) := by
  induction colIndexes with
  | nil => exact .nil
  | cons i colIndexes ih =>
    obtain ⟨t, c, hT, hC, hType⟩ := indexCellTyped_iff.mp (hTyped i (List.mem_cons_self ..))
    rw [keyTypes_cons hT] at hOrdered ⊢
    rw [keyCells_cons, hC, Option.join_some]
    exact .cons ⟨hOrdered t (List.mem_cons_self ..), hType⟩
      (ih (fun u hu => hOrdered u (List.mem_cons_of_mem t hu))
        (fun j hj => hTyped j (List.mem_cons_of_mem i hj)))

theorem compare_prefix_encodeAll {γ β : Type} {enc : γ → β → Bytes} {ok : γ → β → Prop}
    {cmp : β → β → Ordering} (hCode : ListOrder.IsOrderCode enc ok cmp) {ts : List γ}
    {xs ys : List β} (hx : List.Forall₂ ok ts xs) (hy : List.Forall₂ ok ts ys) (buffer : Bytes) :
    compare (buffer ++ ListOrder.encodeAll enc ts xs) (buffer ++ ListOrder.encodeAll enc ts ys) =
      List.compareLex cmp xs ys := by
  have h := ListOrder.compare_encodeAll hCode hx hy [] []
  rw [List.append_nil, List.append_nil, List.compare_nil_nil, Ordering.then_eq] at h
  rw [ListOrder.compare_append_left, h]

end Keys

/-- Primary keys and index keys sort as their key tuples: lexicographically,
integers signed, strings by unsigned bytes, timestamps by time, and in an
index NULL before every value. -/
theorem compare_EncodeKeyCols_EncodeIndexKeyCols (colTypes : List ColumnType)
    (colIndexes : List Nat) (buffer : Bytes)
    (hOrdered : ∀ t ∈ keyTypes colTypes colIndexes, t.keyOrdered = true) (row1 row2 : Row) :
    ((∀ i ∈ colIndexes, pkCellTyped colTypes row1 i = true) →
      (∀ i ∈ colIndexes, pkCellTyped colTypes row2 i = true) →
      ∃ key1 key2, EncodeKeyCols row1 colIndexes colTypes buffer = some key1 ∧
        EncodeKeyCols row2 colIndexes colTypes buffer = some key2 ∧
        compare key1 key2 =
          List.compareLex Datum.compareValue (keyValues row1 colIndexes) (keyValues row2 colIndexes)) ∧
    ((∀ i ∈ colIndexes, indexCellTyped colTypes row1 i = true) →
      (∀ i ∈ colIndexes, indexCellTyped colTypes row2 i = true) →
      ∃ key1 key2, EncodeIndexKeyCols row1 colIndexes colTypes buffer = some key1 ∧
        EncodeIndexKeyCols row2 colIndexes colTypes buffer = some key2 ∧
        compare key1 key2 =
          List.compareLex compareNullable (keyCells row1 colIndexes) (keyCells row2 colIndexes)) := by
  constructor
  · intro hTyped1 hTyped2
    exact ⟨_, _, EncodeKeyCols_eq row1 colTypes colIndexes hTyped1 buffer,
      EncodeKeyCols_eq row2 colTypes colIndexes hTyped2 buffer,
      compare_prefix_encodeAll keyBytes_isOrderCode (forall₂_keyOk hOrdered hTyped1)
        (forall₂_keyOk hOrdered hTyped2) buffer⟩
  · intro hTyped1 hTyped2
    exact ⟨_, _, EncodeIndexKeyCols_eq row1 colTypes colIndexes hTyped1 buffer,
      EncodeIndexKeyCols_eq row2 colTypes colIndexes hTyped2 buffer,
      compare_prefix_encodeAll indexKeyBytes_isOrderCode (forall₂_indexKeyOk hOrdered hTyped1)
        (forall₂_indexKeyOk hOrdered hTyped2) buffer⟩

/-- A BIGINT and VARCHAR key: `(-1, "\x00")` sorts before `(-1, "\x00\x00")`,
and a NULL string before any string. -/
theorem compare_EncodeKeyCols_EncodeIndexKeyCols_bigInt_varchar :
    (∀ t ∈ keyTypes [.bigInt, .varchar] [0, 1], t.keyOrdered = true) ∧
    (∃ key1 key2,
      EncodeKeyCols [some (.int64 (-1)), some (.string [0])] [0, 1] [.bigInt, .varchar] [] = some key1 ∧
      EncodeKeyCols [some (.int64 (-1)), some (.string [0, 0])] [0, 1] [.bigInt, .varchar] [] = some key2 ∧
      compare key1 key2 = List.compareLex Datum.compareValue
        (keyValues [some (.int64 (-1)), some (.string [0])] [0, 1])
        (keyValues [some (.int64 (-1)), some (.string [0, 0])] [0, 1])) ∧
    (∃ key1 key2,
      EncodeIndexKeyCols [some (.int64 (-1)), none] [0, 1] [.bigInt, .varchar] [] = some key1 ∧
      EncodeIndexKeyCols [some (.int64 (-1)), some (.string [])] [0, 1] [.bigInt, .varchar] [] =
        some key2 ∧
      compare key1 key2 = List.compareLex compareNullable
        (keyCells [some (.int64 (-1)), none] [0, 1])
        (keyCells [some (.int64 (-1)), some (.string [])] [0, 1])) :=
  ⟨by decide,
    (compare_EncodeKeyCols_EncodeIndexKeyCols [.bigInt, .varchar] [0, 1] [] (by decide) _ _).1
      (by decide) (by decide),
    (compare_EncodeKeyCols_EncodeIndexKeyCols [.bigInt, .varchar] [0, 1] [] (by decide) _ _).2
      (by decide) (by decide)⟩

end PranaDB
