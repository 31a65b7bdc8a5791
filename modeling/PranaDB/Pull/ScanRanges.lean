import PranaDB.Table.Keys

/-! # Scan ranges of the pull engine (`pull/exec/scan_ranges.go`)

`calcScanRangeKeys` turns each range the planner's ranger produced into the
half-open byte interval `[rangeStart, rangeEnd)` that the table scan or index
reader hands to the store. Each column of the range appends its lower bound
to `rangeStart` and its upper bound to `rangeEnd`; an exclusive lower bound
is then incremented, and an inclusive upper bound too.

The ranger's MinNotNull, MaxValue and NULL datums all reach this function as
Go's nil (`createScanRanges` reads them with `GetValue`), modelled as `none`.
A nil pair is read as the point range of NULL, and a nil lower bound alone as
"no bound": both are wrong for a nullable index column, as the last section
shows.
-/

namespace PranaDB
set_option autoImplicit false

/-- `exec.ScanRange`; a bound value is `none` for Go's nil. -/
structure ScanRange where
  LowVals : List (Option Datum)
  HighVals : List (Option Datum)
  LowExcl : Bool
  HighExcl : Bool
deriving DecidableEq, Repr

/-- `rangeHolder`: the store scans the keys `k` with `rangeStart ≤ k < rangeEnd`. -/
structure RangeHolder where
  rangeStart : Bytes
  rangeEnd : Bytes
deriving DecidableEq, Repr

/-- How `calcScanRangeKeys` fails: an error of `EncodeKeyElement`, or a Go panic. -/
inductive ScanRangeError where
  | encode (err : KeyEncodeError)
  | panic (msg : String)
deriving DecidableEq, Repr

/-- The loop of `IncrementBytesBigEndian` on the bytes from the last one
backwards: a byte below 255 is incremented and ends the loop, a 255 becomes
0 and carries. `none` when the carry runs past the first byte. -/
def incrementLE : Bytes → Option Bytes
  | [] => none
  | b :: rest => if b < 255 then some ((b + 1) :: rest) else (incrementLE rest).map (0 :: ·)

/-- `IncrementBytesBigEndian` (`common/util.go`). -/
def IncrementBytesBigEndian (bytes : Bytes) : Except ScanRangeError Bytes :=
  if bytes.isEmpty then .ok bytes else
    match incrementLE bytes.reverse with
    | some inced => .ok inced.reverse
    | none => .error (.panic "cannot increment key - all bits set")

/-- `allBitsSet` (`pull/exec/table_scan.go`). -/
def allBitsSet (bytes : Bytes) : Bool := bytes.all (· == 255)

/-- `tableInfo.ColumnTypes[indexCols[j]]`, a panic when either index is out of range. -/
def boundColType (colTypes : List ColumnType) (indexCol : Option Nat) :
    Except ScanRangeError ColumnType :=
  match indexCol.bind (colTypes[·]?) with
  | some colType => .ok colType
  | none => .error (.panic "index out of range")

/-- `EncodeKeyElement` on a bound value, its error passed on. -/
def encodeBound (value : Datum) (colType : ColumnType) (buffer : Bytes) :
    Except ScanRangeError Bytes :=
  match EncodeKeyElement value colType buffer with
  | .ok buffer => .ok buffer
  | .error err => .error (.encode err)

/-- The loop over the columns `j` of one scan range, on `LowVals`, `HighVals`
and `indexCols` from position `j` on. -/
def scanRangeBounds (colTypes : List ColumnType) (isIndex : Bool) :
    List (Option Datum) → List (Option Datum) → List Nat → Bytes → Bytes →
      Except ScanRangeError (Bytes × Bytes)
  | [], _, _, rangeStart, rangeEnd => .ok (rangeStart, rangeEnd)
  | _ :: _, [], _, _, _ => .error (.panic "index out of range")
  | lv :: lowVals, hv :: highVals, indexCols, rangeStart, rangeEnd => do
    let colType := boundColType colTypes indexCols.head?
    let (rangeStart, rangeEnd) ← match lv, hv with
      | none, none =>
        -- read as a get of NULL from the index
        if !isIndex then .error (.panic "get of null in pk index")
        else pure (rangeStart ++ [0], rangeEnd ++ [0])
      | _, some hv => do
        let rangeEnd := if isIndex then rangeEnd ++ [1] else rangeEnd
        let rangeEnd ← encodeBound hv (← colType) rangeEnd
        pure (rangeStart, rangeEnd)
      | some _, none => pure (rangeStart, rangeEnd)
    let rangeStart ← match lv with
      | some lv => do
        let rangeStart := if isIndex then rangeStart ++ [1] else rangeStart
        encodeBound lv (← colType) rangeStart
      | none => pure rangeStart
    scanRangeBounds colTypes isIndex lowVals highVals indexCols.tail rangeStart rangeEnd

def calcScanRange (indexID : UInt64) (colTypes : List ColumnType) (indexCols : List Nat)
    (shardID : UInt64) (isIndex : Bool) (sr : ScanRange) : Except ScanRangeError RangeHolder := do
  let keyPrefix := EncodeTableKeyPrefix indexID shardID
  let (rangeStart, rangeEnd) ←
    scanRangeBounds colTypes isIndex sr.LowVals sr.HighVals indexCols keyPrefix keyPrefix
  let rangeStart ← if sr.LowExcl then IncrementBytesBigEndian rangeStart else pure rangeStart
  let rangeEnd : Option Bytes ←
    if !sr.HighExcl then
      if !allBitsSet rangeEnd then some <$> IncrementBytesBigEndian rangeEnd else pure none
    else pure (some rangeEnd)
  pure ⟨rangeStart, rangeEnd.getD (EncodeTableKeyPrefix (indexID + 1) shardID)⟩

/-- `calcScanRangeKeys`; a single nil range is the full range of the index. -/
def calcScanRangeKeys (scanRanges : List (Option ScanRange)) (indexID : UInt64)
    (indexCols : List Nat) (tableInfo : TableInfo) (shardID : UInt64) (isIndex : Bool) :
    Except ScanRangeError (List RangeHolder) :=
  if scanRanges = [none] then
    .ok [⟨EncodeTableKeyPrefix indexID shardID, EncodeTableKeyPrefix (indexID + 1) shardID⟩]
  else
    scanRanges.mapM fun
      | some sr => calcScanRange indexID tableInfo.ColumnTypes indexCols shardID isIndex sr
      | none => .error (.panic "invalid memory address or nil pointer dereference")

def RangeHolder.contains (rh : RangeHolder) (key : Bytes) : Prop :=
  compare rh.rangeStart key ≠ .gt ∧ compare key rh.rangeEnd = .lt

instance (rh : RangeHolder) (key : Bytes) : Decidable (rh.contains key) :=
  inferInstanceAs (Decidable (_ ∧ _))

/-! ## Incrementing a key -/

theorem incrementLE_cons_of_lt {b : UInt8} (hb : b < 255) (rest : Bytes) :
    incrementLE (b :: rest) = some ((b + 1) :: rest) := by
  simp [incrementLE, hb]

theorem IncrementBytesBigEndian_append_of_lt (pre : Bytes) {b : UInt8} (hb : b < 255) :
    IncrementBytesBigEndian (pre ++ [b]) = .ok (pre ++ [b + 1]) := by
  simp [IncrementBytesBigEndian, incrementLE_cons_of_lt hb]

theorem length_incrementLE : ∀ {l l' : Bytes}, incrementLE l = some l' → l'.length = l.length
  | [], _, h => by simp [incrementLE] at h
  | b :: rest, l', h => by
    by_cases hb : b < 255
    · simp only [incrementLE, if_pos hb, Option.some.injEq] at h
      simp [← h]
    · simp only [incrementLE, if_neg hb, Option.map_eq_some_iff] at h
      obtain ⟨inced, hInced, rfl⟩ := h
      simp [length_incrementLE hInced]

theorem length_IncrementBytesBigEndian {bytes bytes' : Bytes}
    (h : IncrementBytesBigEndian bytes = .ok bytes') : bytes'.length = bytes.length := by
  unfold IncrementBytesBigEndian at h
  split at h
  · cases h; rfl
  · split at h
    · rename_i inced hInced
      cases h
      simp [length_incrementLE hInced]
    · cases h

theorem incrementLE_replicate_append {b : UInt8} (hb : b < 255) (rest : Bytes) :
    ∀ k, incrementLE (List.replicate k 255 ++ b :: rest) = some (List.replicate k 0 ++ (b + 1) :: rest)
  | 0 => incrementLE_cons_of_lt hb rest
  | k + 1 => by
    rw [List.replicate_succ, List.cons_append, incrementLE, if_neg (by decide),
      incrementLE_replicate_append hb rest k]
    rfl

theorem incrementLE_replicate : ∀ k, incrementLE (List.replicate k (255 : UInt8)) = none
  | 0 => rfl
  | k + 1 => by
    rw [List.replicate_succ, incrementLE, if_neg (by decide), incrementLE_replicate k]
    rfl

theorem lt_255_of_ne {b : UInt8} (h : b ≠ 255) : b < 255 := by
  have hNat : b.toNat ≠ 255 := fun hb => h (UInt8.toNat_inj.mp hb)
  have hLt := b.toNat_lt
  rw [UInt8.lt_iff_toNat_lt]
  simp only [UInt8.reduceToNat] at hLt ⊢
  omega

theorem eq_append_replicate_of_allBitsSet : ∀ {p : Bytes}, allBitsSet p = false →
    ∃ a b k, p = a ++ b :: List.replicate k 255 ∧ b < 255
  | [], h => by cases h
  | x :: p, h => by
    cases hRest : allBitsSet p with
    | false =>
      obtain ⟨a, b, k, rfl, hb⟩ := eq_append_replicate_of_allBitsSet hRest
      exact ⟨x :: a, b, k, rfl, hb⟩
    | true =>
      have hAll : ∀ y ∈ p, y = 255 := by simpa [allBitsSet] using hRest
      have hx : x ≠ 255 := by
        have hHead : (x == 255 && allBitsSet p) = false := h
        rw [hRest, Bool.and_true, beq_eq_false_iff_ne] at hHead
        exact hHead
      exact ⟨[], x, p.length, by rw [List.eq_replicate_iff.mpr ⟨rfl, hAll⟩]; simp, lt_255_of_ne hx⟩

theorem IncrementBytesBigEndian_append_replicate (a : Bytes) {b : UInt8} (hb : b < 255) (k : Nat) :
    IncrementBytesBigEndian (a ++ b :: List.replicate k 255) = .ok (a ++ (b + 1) :: List.replicate k 0) := by
  have hRev : (a ++ b :: List.replicate k 255).reverse = List.replicate k 255 ++ b :: a.reverse := by
    simp
  simp [IncrementBytesBigEndian, hRev, incrementLE_replicate_append hb]

theorem IncrementBytesBigEndian_replicate (k : Nat) :
    IncrementBytesBigEndian (List.replicate k 255) =
      if k = 0 then .ok [] else .error (.panic "cannot increment key - all bits set") := by
  cases k with
  | zero => rfl
  | succ k => simp [IncrementBytesBigEndian, incrementLE_replicate]

theorem toNat_succ_byte {b : UInt8} (hb : b < 255) : (b + 1).toNat = b.toNat + 1 := by
  rw [UInt8.lt_iff_toNat_lt] at hb
  rw [UInt8.toNat_add]
  simp only [UInt8.reduceToNat] at hb ⊢
  omega

theorem compare_byte_succ {b : UInt8} (hb : b < 255) : compare b (b + 1) = .lt := by
  rw [BigEndian.compare_byte, toNat_succ_byte hb, Nat.compare_eq_lt]
  omega

theorem compare_byte_succ_ne_lt {b : UInt8} (hb : b < 255) (d : UInt8) (hbd : compare b d = .lt) :
    compare d (b + 1) ≠ .lt := by
  rw [BigEndian.compare_byte, Nat.compare_eq_lt] at hbd
  rw [BigEndian.compare_byte, toNat_succ_byte hb, ne_eq, Nat.compare_eq_lt]
  omega

theorem compare_byte_ne_gt_255 (x : UInt8) : compare x 255 ≠ .gt := by
  have hLt := x.toNat_lt
  rw [BigEndian.compare_byte, ne_eq, Nat.compare_eq_gt]
  simp only [UInt8.reduceToNat] at hLt ⊢
  omega

theorem compare_byte_zero_ne_gt (x : UInt8) : compare 0 x ≠ .gt := by
  rw [BigEndian.compare_byte, ne_eq, Nat.compare_eq_gt]
  simp

theorem allBitsSet_eq_false {p : Bytes} {b : UInt8} (hb : b ∈ p) (hNe : b ≠ 255) :
    allBitsSet p = false := by
  simp only [allBitsSet, List.all_eq_false, beq_iff_eq]
  exact ⟨b, hb, hNe⟩

theorem IncrementBytesBigEndian_lt {p : Bytes} (hp : allBitsSet p = false) :
    ∃ q, IncrementBytesBigEndian p = .ok q ∧ compare p q = .lt := by
  obtain ⟨a, b, k, rfl, hb⟩ := eq_append_replicate_of_allBitsSet hp
  exact ⟨_, IncrementBytesBigEndian_append_replicate a hb k,
    ListOrder.compare_succ_lt (compare_byte_succ hb) _ _ _⟩

/-- `IncrementBytesBigEndian` is the exclusive upper bound of a key prefix: on
a key that is not all 0xFF it keeps the length and goes up, and among the keys
at least as long the interval up to it holds exactly those that extend the
key. On a key all 0xFF it panics, and on the empty key it returns the key. -/
theorem IncrementBytesBigEndian_prefix_bound :
    (∀ p : Bytes, allBitsSet p = false →
      ∃ q, IncrementBytesBigEndian p = .ok q ∧ q.length = p.length ∧ compare p q = .lt ∧
        ∀ x : Bytes, p.length ≤ x.length → (compare p x ≠ .gt ∧ compare x q = .lt ↔ p <+: x)) ∧
    (∀ p : Bytes, allBitsSet p = true →
      IncrementBytesBigEndian p = if p = [] then .ok p else .error (.panic "cannot increment key - all bits set")) := by
  constructor
  · intro p hp
    obtain ⟨a, b, k, rfl, hb⟩ := eq_append_replicate_of_allBitsSet hp
    have hInc := IncrementBytesBigEndian_append_replicate a hb k
    refine ⟨_, hInc, length_IncrementBytesBigEndian hInc, ListOrder.compare_succ_lt (compare_byte_succ hb) _ _ _, ?_⟩
    intro x hx
    apply ListOrder.interval_iff_prefix (compare_byte_succ hb) (compare_byte_succ_ne_lt hb)
    · intro t ht y
      rw [List.eq_of_mem_replicate ht]
      exact compare_byte_ne_gt_255 y
    · intro m hm y
      rw [List.eq_of_mem_replicate hm]
      exact compare_byte_zero_ne_gt y
    · simp
    · exact hx
  · intro p hp
    have hAll : ∀ y ∈ p, y = 255 := by simpa [allBitsSet] using hp
    rw [List.eq_replicate_iff.mpr ⟨rfl, hAll⟩, IncrementBytesBigEndian_replicate]
    cases p <;> simp

/-- The bound of the key 01 FF is 02 00; the empty key and FF FF are the two
cases of the key all 0xFF. -/
theorem IncrementBytesBigEndian_prefix_bound_01ff :
    (allBitsSet [1, 255] = false ∧
      ∃ q, IncrementBytesBigEndian [1, 255] = .ok q ∧ q.length = 2 ∧ compare [1, 255] q = .lt ∧
        ∀ x : Bytes, 2 ≤ x.length → (compare [1, 255] x ≠ .gt ∧ compare x q = .lt ↔ [1, 255] <+: x)) ∧
      (allBitsSet [] = true ∧ IncrementBytesBigEndian [] = .ok []) ∧
      (allBitsSet [255, 255] = true ∧
        IncrementBytesBigEndian [255, 255] = .error (.panic "cannot increment key - all bits set")) :=
  ⟨⟨rfl, IncrementBytesBigEndian_prefix_bound.1 [1, 255] rfl⟩,
    ⟨rfl, IncrementBytesBigEndian_prefix_bound.2 [] rfl⟩,
    ⟨rfl, IncrementBytesBigEndian_prefix_bound.2 [255, 255] rfl⟩⟩

example : compare ([1, 255] : Bytes) [2] ≠ .gt ∧ compare ([2] : Bytes) [2, 0] = .lt ∧
    ¬ ([1, 255] : Bytes) <+: [2] := by
  decide

/-! ## One nullable index column

For an index on one column, `col < v` reaches `calcScanRangeKeys` as the range
`[nil, v)` and `col IS NOT NULL` as `[nil, nil]`. -/

section OneColumn

variable (tableInfo : TableInfo) (indexInfo : IndexInfo) (shardID : UInt64)

theorem calcScanRangeKeys_lt {c : Nat} {t : ColumnType} {v : Datum}
    (hCol : tableInfo.ColumnTypes[c]? = some t) (hType : v.hasType t = true) :
    calcScanRangeKeys [some ⟨[none], [some v], false, true⟩] indexInfo.ID [c] tableInfo shardID true =
      .ok [⟨EncodeTableKeyPrefix indexInfo.ID shardID,
        EncodeTableKeyPrefix indexInfo.ID shardID ++ 1 :: keyBytes t v⟩] := by
  simp [calcScanRangeKeys, calcScanRange, scanRangeBounds, boundColType, hCol, encodeBound,
    EncodeKeyElement, encodeKeyValue_of_hasType hType, bind, Except.bind, pure, Except.pure]

theorem calcScanRangeKeys_isNotNull (c : Nat) :
    calcScanRangeKeys [some ⟨[none], [none], false, false⟩] indexInfo.ID [c] tableInfo shardID true =
      .ok [⟨EncodeTableKeyPrefix indexInfo.ID shardID ++ [0],
        EncodeTableKeyPrefix indexInfo.ID shardID ++ [1]⟩] := by
  have hAll : allBitsSet (EncodeTableKeyPrefix indexInfo.ID shardID ++ [0]) = false := by
    simp [allBitsSet]
  simp [calcScanRangeKeys, calcScanRange, scanRangeBounds, hAll,
    IncrementBytesBigEndian_append_of_lt _ (by decide : (0 : UInt8) < 255), bind, Except.bind,
    Functor.map, Except.map, pure, Except.pure]

theorem EncodeIndexKeyValue_one_column {c : Nat} {t : ColumnType}
    (hIndexCols : indexInfo.IndexCols = [c]) (hCol : tableInfo.ColumnTypes[c]? = some t) (row : Row)
    (hIndex : indexCellTyped tableInfo.ColumnTypes row c = true)
    (hPK : ∀ i ∈ tableInfo.PrimaryKeyCols, pkCellTyped tableInfo.ColumnTypes row i = true) :
    ∃ pk, EncodeIndexKeyValue tableInfo indexInfo shardID row =
      some (EncodeTableKeyPrefix indexInfo.ID shardID ++ indexKeyBytes t (row[c]?).join ++ pk, pk) := by
  have hIndex' : ∀ i ∈ indexInfo.IndexCols, indexCellTyped tableInfo.ColumnTypes row i = true := by
    rw [hIndexCols]
    simpa using hIndex
  refine ⟨ListOrder.encodeAll keyBytes (keyTypes tableInfo.ColumnTypes tableInfo.PrimaryKeyCols)
    (keyValues row tableInfo.PrimaryKeyCols), ?_⟩
  rw [EncodeIndexKeyValue_eq tableInfo indexInfo shardID row hIndex' hPK, hIndexCols,
    keyTypes_cons hCol, keyCells_cons, keyTypes_nil, keyCells_nil, ListOrder.encodeAll_cons,
    ListOrder.encodeAll_nil_left, List.append_nil]

end OneColumn

theorem compare_self_append_ne_gt (p x : Bytes) : compare p (p ++ x) ≠ .gt := by
  have h := ListOrder.compare_append_left p [] x
  rw [List.append_nil] at h
  rw [h]
  cases x <;> simp [List.compare_nil_cons]

theorem compare_append_zero_one (p x y : Bytes) : compare (p ++ 0 :: x) (p ++ 1 :: y) = .lt := by
  rw [ListOrder.compare_append_left]
  rfl

theorem compare_append_one_ne_lt (p rest : Bytes) : compare (p ++ 1 :: rest) (p ++ [1]) ≠ .lt := by
  rw [ListOrder.compare_append_left, List.compare_cons_cons, Std.ReflOrd.compare_self,
    Ordering.eq_then]
  cases rest <;> simp [List.compare_cons_nil]

/-- On an index over one nullable column, the scan of `col < v` reads the
entries of the rows whose column is NULL, and the scan of `col IS NOT NULL`
reads exactly those entries and no other. -/
theorem calcScanRangeKeys_nullable_index (tableInfo : TableInfo) (indexInfo : IndexInfo)
    (shardID : UInt64) {c : Nat} {t : ColumnType} (hIndexCols : indexInfo.IndexCols = [c])
    (hCol : tableInfo.ColumnTypes[c]? = some t) (row : Row)
    (hIndex : indexCellTyped tableInfo.ColumnTypes row c = true)
    (hPK : ∀ i ∈ tableInfo.PrimaryKeyCols, pkCellTyped tableInfo.ColumnTypes row i = true) :
    ∃ key value, EncodeIndexKeyValue tableInfo indexInfo shardID row = some (key, value) ∧
      (row[c]? = some none → ∀ v, v.hasType t = true →
        ∃ rh, calcScanRangeKeys [some ⟨[none], [some v], false, true⟩] indexInfo.ID
            indexInfo.IndexCols tableInfo shardID true = .ok [rh] ∧ rh.contains key) ∧
      (∃ rh, calcScanRangeKeys [some ⟨[none], [none], false, false⟩] indexInfo.ID
          indexInfo.IndexCols tableInfo shardID true = .ok [rh] ∧
        (rh.contains key ↔ row[c]? = some none)) := by
  obtain ⟨pk, hKey⟩ := EncodeIndexKeyValue_one_column tableInfo indexInfo shardID hIndexCols hCol row
    hIndex hPK
  obtain ⟨t', cell, hT, hCell, -⟩ := indexCellTyped_iff.mp hIndex
  refine ⟨_, _, hKey, ?_, ?_⟩
  · -- `col < v`: from the bare prefix up to the marker 1 of the bound
    intro hNull v hType
    refine ⟨_, hIndexCols ▸ calcScanRangeKeys_lt tableInfo indexInfo shardID hCol hType, ?_, ?_⟩
    · rw [List.append_assoc]
      exact compare_self_append_ne_gt _ _
    · rw [hNull, Option.join_some, indexKeyBytes, List.append_assoc, List.cons_append,
        List.nil_append]
      exact compare_append_zero_one _ _ _
  · -- `col IS NOT NULL`: the point range of the NULL marker 0
    refine ⟨_, hIndexCols ▸ calcScanRangeKeys_isNotNull tableInfo indexInfo shardID c, ?_⟩
    rw [hCell, Option.join_some]
    cases cell with
    | none =>
      simp only [RangeHolder.contains, indexKeyBytes, List.append_assoc, List.cons_append,
        List.nil_append, iff_true]
      exact ⟨compare_self_append_ne_gt _ _, compare_append_zero_one _ _ _⟩
    | some v =>
      simp only [RangeHolder.contains, indexKeyBytes, List.append_assoc, List.cons_append,
        Option.some.injEq, reduceCtorEq, iff_false, not_and]
      exact fun _ => compare_append_one_ne_lt _ _

/-- A BIGINT primary key and a nullable INT column indexed alone: the row
`(1, NULL)` is read by the scans of `col < 5` and of `col IS NOT NULL`. -/
theorem calcScanRangeKeys_nullable_index_int :
    ∃ key value, EncodeIndexKeyValue ⟨7, [0], [.bigInt, .int]⟩ ⟨8, [1]⟩ 1 [some (.int64 1), none] =
        some (key, value) ∧
      (([some (.int64 1), none] : Row)[1]? = some none → ∀ v, v.hasType .int = true →
        ∃ rh, calcScanRangeKeys [some ⟨[none], [some v], false, true⟩] 8 [1] ⟨7, [0], [.bigInt, .int]⟩
            1 true = .ok [rh] ∧ rh.contains key) ∧
      (∃ rh, calcScanRangeKeys [some ⟨[none], [none], false, false⟩] 8 [1] ⟨7, [0], [.bigInt, .int]⟩
          1 true = .ok [rh] ∧
        (rh.contains key ↔ ([some (.int64 1), none] : Row)[1]? = some none)) :=
  calcScanRangeKeys_nullable_index ⟨7, [0], [.bigInt, .int]⟩ ⟨8, [1]⟩ 1 rfl rfl _ (by decide)
    (by decide)

end PranaDB
