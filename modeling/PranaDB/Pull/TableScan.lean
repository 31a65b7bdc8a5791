import PranaDB.Pull.ScanRanges
import PranaDB.Lib.RangeScan
import PranaDB.Lib.ExceptRun

/-! # Paged table scans (`pull/exec/table_scan.go`)

`PullTableScan.GetRows(limit)` returns the next `limit` rows of its ranges.
Within a range it resumes where the previous call stopped by scanning again
from `lastRowPrefix`, the key of the last row it returned, and skipping the
first row of that scan, which it takes to be that row.

Pebble is seen at each call as the list of its rows in key order; push
processing may change it between calls. The decoding of a row value into the
selected columns (`DecodeRowWithIgnoredCols`) is the parameter `decodeRow`.
-/

namespace PranaDB
set_option autoImplicit false

/-- The rows of pebble as an iterator sees them at one call, in key order. -/
structure SortedStore where
  rows : List (Bytes × Bytes)
  sorted : RangeScan.Sorted rows

/-- `Dragon.LocalScan` for a limit of at least zero: the first `limit` rows
with a key in `[startKeyPrefix, endKeyPrefix)`. -/
def SortedStore.LocalScan (st : SortedStore) (startKeyPrefix endKeyPrefix : Bytes) (limit : Nat) :
    List (Bytes × Bytes) :=
  (RangeScan.rangeRows st.rows startKeyPrefix endKeyPrefix).take limit

def SortedStore.rangeRows (st : SortedStore) (r : RangeHolder) : List (Bytes × Bytes) :=
  RangeScan.rangeRows st.rows r.rangeStart r.rangeEnd

/-- The fields of `PullTableScan` that `GetRows` reads and writes; the rows
under construction are `GetRows`' own. -/
structure PullTableScan where
  lastRowPrefix : Option Bytes
  rangeHolders : List RangeHolder
  rangeIndex : Nat

/-- `NewPullTableScan` with the ranges of the primary key; the columns it
selects are the business of `decodeRow`. -/
def NewPullTableScan (tableInfo : TableInfo) (shardID : UInt64) (scanRanges : List (Option ScanRange)) :
    Except ScanRangeError PullTableScan := do
  let rangeHolders ← calcScanRangeKeys scanRanges tableInfo.ID tableInfo.PrimaryKeyCols tableInfo shardID false
  pure ⟨none, rangeHolders, 0⟩

/-- How `GetRows` fails. -/
inductive GetRowsError (ε : Type) where
  | invalidLimit (limit : Int)
  | decode (err : ε)
deriving DecidableEq, Repr

section

variable {ε α : Type} (decodeRow : Bytes → Except ε α)

/-- The loop of `getRowsFromRange` over the pairs of the scan, from the `i`-th:
the first is skipped when `skipFirst`, and the key of the last becomes
`lastRowPrefix`. -/
def getRowsFromRangeLoop (skipFirst : Bool) (numRows : Nat) :
    Nat → List (Bytes × Bytes) → Option Bytes → List α → Except ε (Option Bytes × List α)
  | _, [], lastRowPrefix, rows => .ok (lastRowPrefix, rows)
  | i, kvPair :: kvPairs, lastRowPrefix, rows =>
    if i = 0 ∧ skipFirst = true then getRowsFromRangeLoop skipFirst numRows (i + 1) kvPairs lastRowPrefix rows
    else
      match decodeRow kvPair.2 with
      | .error err => .error err
      | .ok row => getRowsFromRangeLoop skipFirst numRows (i + 1) kvPairs
          (if i = numRows - 1 then some kvPair.1 else lastRowPrefix) (rows ++ [row])

def PullTableScan.startPrefix (p : PullTableScan) (currRange : RangeHolder) : Bytes × Bool :=
  match p.lastRowPrefix with
  | none => (currRange.rangeStart, false)
  | some lastRowPrefix => (lastRowPrefix, true)

/-- `PullTableScan.getRowsFromRange`: the scan and the rows with those of the
range added. -/
def PullTableScan.getRowsFromRange (st : SortedStore) (p : PullTableScan) (limit : Nat)
    (currRange : RangeHolder) (rows : List α) : Except ε (PullTableScan × List α) :=
  let (startPrefix, skipFirst) := p.startPrefix currRange
  let limitToUse := limit - rows.length + if skipFirst then 1 else 0
  let kvPairs := st.LocalScan startPrefix currRange.rangeEnd limitToUse
  (getRowsFromRangeLoop decodeRow skipFirst kvPairs.length 0 kvPairs p.lastRowPrefix rows).map
    fun r => ({ p with lastRowPrefix := r.1 }, r.2)

def PullTableScan.getRowsLoop (st : SortedStore) (limit : Nat) :
    Nat → PullTableScan → List α → Except ε (PullTableScan × List α)
  | 0, p, rows => .ok (p, rows)
  | fuel + 1, p, rows =>
    match p.rangeHolders[p.rangeIndex]? with
    | none => .ok (p, rows)
    | some rng =>
      match p.getRowsFromRange decodeRow st limit rng rows with
      | .error err => .error err
      | .ok (p, rows) =>
        if rows.length = limit then .ok (p, rows)
        else getRowsLoop st limit fuel { p with rangeIndex := p.rangeIndex + 1, lastRowPrefix := none } rows

/-- `PullTableScan.GetRows`: the scan after the call and the rows it returns. -/
def PullTableScan.GetRows (st : SortedStore) (p : PullTableScan) (limit : Int) :
    Except (GetRowsError ε) (PullTableScan × List α) :=
  if limit < 1 then .error (.invalidLimit limit)
  else (PullTableScan.getRowsLoop decodeRow st limit.toNat (p.rangeHolders.length - p.rangeIndex) p []).mapError
    .decode

/-! ### What one call reads -/

@[simp] theorem PullTableScan.startPrefix_none {p : PullTableScan} (h : p.lastRowPrefix = none) (r : RangeHolder) :
    p.startPrefix r = (r.rangeStart, false) := by
  rw [PullTableScan.startPrefix, h]

@[simp] theorem PullTableScan.startPrefix_some {p : PullTableScan} {k : Bytes} (h : p.lastRowPrefix = some k)
    (r : RangeHolder) : p.startPrefix r = (k, true) := by
  rw [PullTableScan.startPrefix, h]

theorem lastKey_cons {kv : Bytes × Bytes} {kvs : List (Bytes × Bytes)} {i numRows : Nat}
    (hLen : i + 1 + kvs.length = numRows) (lastRowPrefix : Option Bytes) :
    (kvs.getLast?.map Prod.fst).or (if i = numRows - 1 then some kv.1 else lastRowPrefix) =
      ((kv :: kvs).getLast?.map Prod.fst).or lastRowPrefix := by
  cases kvs with
  | nil =>
    have hi : i = numRows - 1 := by simp at hLen; omega
    simp [hi]
  | cons kv' kvs =>
    obtain ⟨last, hLast⟩ : ∃ last, (kv' :: kvs).getLast? = some last := Option.isSome_iff_exists.mp (by simp)
    rw [List.getLast?_cons_cons, hLast]
    rfl

theorem getRowsFromRangeLoop_noSkip (skipFirst : Bool) (numRows : Nat) (kvPairs : List (Bytes × Bytes)) :
    ∀ (i : Nat) (lastRowPrefix : Option Bytes) (rows : List α),
      ¬ (i = 0 ∧ skipFirst = true) → i + kvPairs.length = numRows →
      getRowsFromRangeLoop decodeRow skipFirst numRows i kvPairs lastRowPrefix rows =
        (kvPairs.mapM fun kv => decodeRow kv.2).map fun new =>
          ((kvPairs.getLast?.map Prod.fst).or lastRowPrefix, rows ++ new) := by
  induction kvPairs with
  | nil =>
    intro i lastRowPrefix rows _ _
    show Except.ok (lastRowPrefix, rows) = Except.ok (lastRowPrefix, rows ++ [])
    rw [List.append_nil]
  | cons kv kvPairs ih =>
    intro i lastRowPrefix rows hNoSkip hLen
    have hLen' : i + 1 + kvPairs.length = numRows := by simp at hLen; omega
    rw [getRowsFromRangeLoop, if_neg hNoSkip, List.mapM_cons]
    cases hRow : decodeRow kv.2 with
    | error err => rfl
    | ok row =>
      dsimp only
      rw [ih (i + 1) _ _ (by omega) hLen', lastKey_cons hLen', ExceptRun.ok_bind]
      cases kvPairs.mapM fun kv => decodeRow kv.2 with
      | error err => rfl
      | ok new => simp [Except.map]

theorem getRowsFromRangeLoop_eq (skipFirst : Bool) (kvPairs : List (Bytes × Bytes)) (lastRowPrefix : Option Bytes)
    (rows : List α) :
    getRowsFromRangeLoop decodeRow skipFirst kvPairs.length 0 kvPairs lastRowPrefix rows =
      ((kvPairs.drop (if skipFirst then 1 else 0)).mapM fun kv => decodeRow kv.2).map fun new =>
        (((kvPairs.drop (if skipFirst then 1 else 0)).getLast?.map Prod.fst).or lastRowPrefix, rows ++ new) := by
  cases skipFirst with
  | false => exact getRowsFromRangeLoop_noSkip decodeRow false _ kvPairs 0 lastRowPrefix rows (by simp) (by simp)
  | true =>
    cases kvPairs with
    | nil =>
      show Except.ok (lastRowPrefix, rows) = Except.ok (lastRowPrefix, rows ++ [])
      rw [List.append_nil]
    | cons kv kvPairs =>
      rw [getRowsFromRangeLoop, if_pos ⟨rfl, rfl⟩, if_pos rfl, List.drop_one, List.tail_cons]
      exact getRowsFromRangeLoop_noSkip decodeRow true _ kvPairs 1 lastRowPrefix rows (by simp)
        (by simp [Nat.add_comm])

/-- The rows a scan still reads in range `r`: those from its start prefix, less
the first when it resumes. -/
def PullTableScan.scanRest (st : SortedStore) (p : PullTableScan) (r : RangeHolder) : List (Bytes × Bytes) :=
  (RangeScan.rangeRows st.rows (p.startPrefix r).1 r.rangeEnd).drop (if (p.startPrefix r).2 then 1 else 0)

theorem getRowsFromRange_eq (st : SortedStore) (p : PullTableScan) (limit : Nat) (r : RangeHolder)
    (rows : List α) :
    p.getRowsFromRange decodeRow st limit r rows =
      (((p.scanRest st r).take (limit - rows.length)).mapM fun kv => decodeRow kv.2).map fun new =>
        ({ p with lastRowPrefix :=
            (((p.scanRest st r).take (limit - rows.length)).getLast?.map Prod.fst).or p.lastRowPrefix },
          rows ++ new) := by
  rcases hStart : p.startPrefix r with ⟨startPrefix, skipFirst⟩
  have hKept : (st.LocalScan startPrefix r.rangeEnd
      (limit - rows.length + if skipFirst then 1 else 0)).drop (if skipFirst then 1 else 0) =
      (p.scanRest st r).take (limit - rows.length) := by
    rw [SortedStore.LocalScan, List.drop_take, PullTableScan.scanRest, hStart, Nat.add_sub_cancel]
  simp only [PullTableScan.getRowsFromRange, hStart]
  rw [getRowsFromRangeLoop_eq, hKept]
  cases ((p.scanRest st r).take (limit - rows.length)).mapM fun kv => decodeRow kv.2 <;> rfl

theorem scanRest_take (st : SortedStore) (p : PullTableScan) (r : RangeHolder) (n : Nat) :
    ({ p with lastRowPrefix := (((p.scanRest st r).take n).getLast?.map Prod.fst).or p.lastRowPrefix } :
        PullTableScan).scanRest st r = (p.scanRest st r).drop n := by
  cases hLast : ((p.scanRest st r).take n).getLast? with
  | none =>
    rcases List.take_eq_nil_iff.mp (List.getLast?_eq_none_iff.mp hLast) with h | h
    · simp [h]
    · simp [h]
  | some last =>
    rcases hStart : p.startPrefix r with ⟨startPrefix, skipFirst⟩
    have hRest : p.scanRest st r =
        (RangeScan.rangeRows st.rows startPrefix r.rangeEnd).drop (if skipFirst then 1 else 0) := by
      rw [PullTableScan.scanRest, hStart]
    rw [hRest] at hLast
    obtain ⟨hMem, hLo, hHi⟩ := RangeScan.mem_rangeRows.mp
      (List.mem_of_mem_drop (List.mem_of_mem_take (List.mem_of_getLast? hLast)))
    calc PullTableScan.scanRest st { p with lastRowPrefix := some last.1 } r
        = (RangeScan.rangeRows st.rows last.1 r.rangeEnd).drop 1 := rfl
      _ = RangeScan.after last.1 (RangeScan.rangeRows st.rows startPrefix r.rangeEnd) := by
        rw [RangeScan.rangeRows_of_mem st.sorted hMem hLo hHi]
        rfl
      _ = (RangeScan.rangeRows st.rows startPrefix r.rangeEnd).drop ((if skipFirst then 1 else 0) + n) :=
        RangeScan.after_getLast_take (st.sorted.rangeRows _ _) (RangeScan.getLast?_take_add hLast)
      _ = (p.scanRest st r).drop n := by rw [hRest, List.drop_drop]

/-! ### What a scan still reads, over its ranges -/

/-- The rows the scan reads from here on, on store `st`: the rest of its
current range, then the later ranges whole. -/
def PullTableScan.scanPending (st : SortedStore) (p : PullTableScan) : List (Bytes × Bytes) :=
  match p.rangeHolders[p.rangeIndex]? with
  | none => []
  | some r => p.scanRest st r ++ (p.rangeHolders.drop (p.rangeIndex + 1)).flatMap st.rangeRows

theorem PullTableScan.scanPending_of_none {st : SortedStore} {p : PullTableScan}
    (h : p.rangeHolders[p.rangeIndex]? = none) : p.scanPending st = [] := by
  rw [PullTableScan.scanPending, h]

theorem PullTableScan.scanPending_of_some {st : SortedStore} {p : PullTableScan} {r : RangeHolder}
    (h : p.rangeHolders[p.rangeIndex]? = some r) :
    p.scanPending st = p.scanRest st r ++ (p.rangeHolders.drop (p.rangeIndex + 1)).flatMap st.rangeRows := by
  rw [PullTableScan.scanPending, h]

theorem PullTableScan.scanPending_start (st : SortedStore) {p : PullTableScan} (h : p.lastRowPrefix = none) :
    p.scanPending st = (p.rangeHolders.drop p.rangeIndex).flatMap st.rangeRows := by
  cases hr : p.rangeHolders[p.rangeIndex]? with
  | none =>
    rw [PullTableScan.scanPending_of_none hr, List.drop_of_length_le (List.getElem?_eq_none_iff.mp hr)]
    rfl
  | some r =>
    obtain ⟨hlt, hget⟩ := List.getElem?_eq_some_iff.mp hr
    rw [PullTableScan.scanPending_of_some hr, List.drop_eq_getElem_cons hlt, hget, List.flatMap_cons]
    simp [PullTableScan.scanRest, h, SortedStore.rangeRows]

theorem getRowsLoop_scanPending (st : SortedStore) (limit : Nat) :
    ∀ (fuel : Nat) (p : PullTableScan) (rows : List α),
      p.rangeHolders.length - p.rangeIndex ≤ fuel → rows.length ≤ limit →
      (PullTableScan.getRowsLoop decodeRow st limit fuel p rows).map
          (fun res => (res.1.rangeHolders, res.1.scanPending st, res.2)) =
        (((p.scanPending st).take (limit - rows.length)).mapM fun kv => decodeRow kv.2).map fun new =>
          (p.rangeHolders, (p.scanPending st).drop (limit - rows.length), rows ++ new) := by
  intro fuel
  induction fuel with
  | zero =>
    intro p rows hFuel _
    have hNone : p.rangeHolders[p.rangeIndex]? = none := List.getElem?_eq_none_iff.mpr (by omega)
    show Except.ok (p.rangeHolders, p.scanPending st, rows) = _
    rw [PullTableScan.scanPending_of_none hNone, List.take_nil, List.drop_nil]
    show _ = Except.ok (p.rangeHolders, [], rows ++ [])
    rw [List.append_nil]
  | succ fuel ih =>
    intro p rows hFuel hRows
    cases hr : p.rangeHolders[p.rangeIndex]? with
    | none =>
      rw [PullTableScan.getRowsLoop, hr]
      show Except.ok (p.rangeHolders, p.scanPending st, rows) = _
      rw [PullTableScan.scanPending_of_none hr, List.take_nil, List.drop_nil]
      show _ = Except.ok (p.rangeHolders, [], rows ++ [])
      rw [List.append_nil]
    | some r =>
      set R := p.scanRest st r with hR
      set later := (p.rangeHolders.drop (p.rangeIndex + 1)).flatMap st.rangeRows with hLater
      set n := limit - rows.length with hn
      rw [PullTableScan.scanPending_of_some hr, PullTableScan.getRowsLoop, hr]
      dsimp only
      cases hm : (R.take n).mapM fun kv => decodeRow kv.2 with
      | error err =>
        have hStep : p.getRowsFromRange decodeRow st limit r rows = .error err := by
          rw [getRowsFromRange_eq, ← hR, ← hn, hm]
          rfl
        rw [hStep, List.take_append, ExceptRun.mapM_append_of_error hm]
        rfl
      | ok new =>
        have hNew : new.length = min n R.length := by rw [ExceptRun.length_of_mapM_ok hm, List.length_take]
        have hStep : p.getRowsFromRange decodeRow st limit r rows =
            .ok ({ p with lastRowPrefix := ((R.take n).getLast?.map Prod.fst).or p.lastRowPrefix }, rows ++ new) := by
          rw [getRowsFromRange_eq, ← hR, ← hn, hm]
          rfl
        rw [hStep]
        dsimp only
        by_cases hFull : (rows ++ new).length = limit
        · -- the range fills the rows: the scan stays in it, after the rows it took
          have hnR : n ≤ R.length := by simp at hFull; omega
          rw [if_pos hFull, List.take_append_of_le_length hnR, hm, List.drop_append_of_le_length hnR]
          show Except.ok (p.rangeHolders, PullTableScan.scanPending st
              { p with lastRowPrefix := ((R.take n).getLast?.map Prod.fst).or p.lastRowPrefix }, rows ++ new) =
            Except.ok (p.rangeHolders, R.drop n ++ later, rows ++ new)
          have hr' : ({ p with lastRowPrefix := ((R.take n).getLast?.map Prod.fst).or p.lastRowPrefix } :
              PullTableScan).rangeHolders[p.rangeIndex]? = some r := hr
          rw [PullTableScan.scanPending_of_some hr', hR, scanRest_take]
        · -- the range is read to its end: the loop goes on at the start of the next one
          have hRn : R.length < n := by simp at hFull; omega
          have hTakeR : R.take n = R := List.take_of_length_le (by omega)
          have hRest : limit - (rows ++ new).length = n - R.length := by simp; omega
          rw [if_neg hFull, ih _ _ (by simp; omega) (by simp; omega), PullTableScan.scanPending_start st rfl, hRest,
            List.take_append, hTakeR, ExceptRun.mapM_append_of_ok (hTakeR ▸ hm), List.drop_append,
            List.drop_of_length_le (by omega : R.length ≤ n), List.nil_append]
          cases (later.take (n - R.length)).mapM fun kv => decodeRow kv.2 with
          | error err => rfl
          | ok rest => simp only [Except.map, List.append_assoc, ← hR]

theorem GetRows_scanPending (st : SortedStore) (p : PullTableScan) {limit : Int} (hLimit : 1 ≤ limit) :
    (p.GetRows decodeRow st limit).map (fun res => (res.1.rangeHolders, res.1.scanPending st, res.2)) =
      ((((p.scanPending st).take limit.toNat).mapM fun kv => decodeRow kv.2).map fun new =>
        (p.rangeHolders, (p.scanPending st).drop limit.toNat, new)).mapError .decode := by
  have hLoop := getRowsLoop_scanPending decodeRow st limit.toNat _ p [] le_rfl (Nat.zero_le _)
  simp only [List.length_nil, Nat.sub_zero, List.nil_append] at hLoop
  rw [PullTableScan.GetRows, if_neg (by omega), ExceptRun.map_mapError, hLoop]

/-! ### The scan as a paged scan should be -/

/-- What a paged scan has still to return: the rows of its range above the
last key it returned, then the later ranges whole. -/
def PullTableScan.unreturned (st : SortedStore) (p : PullTableScan) : List (Bytes × Bytes) :=
  match p.rangeHolders[p.rangeIndex]? with
  | none => []
  | some r =>
    (match p.lastRowPrefix with
      | none => st.rangeRows r
      | some k => RangeScan.after k (st.rangeRows r)) ++
    (p.rangeHolders.drop (p.rangeIndex + 1)).flatMap st.rangeRows

/-- The store still holds the row of the last key returned, in the range the
scan is at. -/
def PullTableScan.LastRowStored (st : SortedStore) (p : PullTableScan) : Prop :=
  ∀ k, p.lastRowPrefix = some k →
    ∃ r v, p.rangeHolders[p.rangeIndex]? = some r ∧ (k, v) ∈ st.rows ∧ KVStore.InRange r.rangeStart r.rangeEnd k

theorem PullTableScan.LastRowStored.of_none {st : SortedStore} {p : PullTableScan} (h : p.lastRowPrefix = none) :
    p.LastRowStored st := by
  intro k hk
  rw [h] at hk
  cases hk

theorem scanRest_of_mem (st : SortedStore) {p : PullTableScan} {k v : Bytes} {r : RangeHolder}
    (hLast : p.lastRowPrefix = some k) (hMem : (k, v) ∈ st.rows) (hIn : KVStore.InRange r.rangeStart r.rangeEnd k) :
    p.scanRest st r = RangeScan.after k (st.rangeRows r) := by
  rw [PullTableScan.scanRest, PullTableScan.startPrefix_some hLast, RangeScan.rangeRows_of_mem st.sorted hMem hIn.1 hIn.2]
  rfl

theorem scanRest_of_not_mem (st : SortedStore) {p : PullTableScan} {k : Bytes} {r : RangeHolder}
    (hLast : p.lastRowPrefix = some k) (hAbsent : ∀ v, (k, v) ∉ st.rows) (hLo : compare r.rangeStart k ≠ .gt) :
    p.scanRest st r = (RangeScan.after k (st.rangeRows r)).drop 1 := by
  rw [PullTableScan.scanRest, PullTableScan.startPrefix_some hLast, RangeScan.rangeRows_of_not_mem hAbsent hLo]
  rfl

theorem scanPending_eq_unreturned {st : SortedStore} {p : PullTableScan} (hStored : p.LastRowStored st) :
    p.scanPending st = p.unreturned st := by
  unfold PullTableScan.unreturned
  cases hr : p.rangeHolders[p.rangeIndex]? with
  | none => exact PullTableScan.scanPending_of_none hr
  | some r =>
    rw [PullTableScan.scanPending_of_some hr]
    cases hLast : p.lastRowPrefix with
    | none => simp [PullTableScan.scanRest, hLast, SortedStore.rangeRows]
    | some k =>
      obtain ⟨r', v, hr', hMem, hIn⟩ := hStored k hLast
      rw [hr, Option.some.injEq] at hr'
      subst hr'
      rw [scanRest_of_mem st hLast hMem hIn]

theorem PullTableScan.unreturned_of_some {st : SortedStore} {p : PullTableScan} {r : RangeHolder} {k : Bytes}
    (hr : p.rangeHolders[p.rangeIndex]? = some r) (hLast : p.lastRowPrefix = some k) :
    p.unreturned st =
      RangeScan.after k (st.rangeRows r) ++ (p.rangeHolders.drop (p.rangeIndex + 1)).flatMap st.rangeRows := by
  unfold PullTableScan.unreturned
  rw [hr, hLast]

theorem mem_scanRest {st : SortedStore} {p : PullTableScan} {r : RangeHolder} (hStored : p.LastRowStored st)
    (hr : p.rangeHolders[p.rangeIndex]? = some r) {kv : Bytes × Bytes} (hkv : kv ∈ p.scanRest st r) :
    kv ∈ st.rows ∧ KVStore.InRange r.rangeStart r.rangeEnd kv.1 := by
  unfold PullTableScan.scanRest at hkv
  cases hLast : p.lastRowPrefix with
  | none =>
    rw [PullTableScan.startPrefix_none hLast] at hkv
    exact RangeScan.mem_rangeRows.mp (List.mem_of_mem_drop hkv)
  | some k =>
    rw [PullTableScan.startPrefix_some hLast] at hkv
    obtain ⟨r', v, hr', -, hIn⟩ := hStored k hLast
    rw [hr, Option.some.injEq] at hr'
    subst hr'
    obtain ⟨hMem, hkLo, hHi⟩ := RangeScan.mem_rangeRows.mp (List.mem_of_mem_drop hkv)
    exact ⟨hMem, Std.TransCmp.le_trans hIn.1 hkLo, hHi⟩

theorem PullTableScan.LastRowStored.getRowsFromRange {st : SortedStore} {p : PullTableScan} {r : RangeHolder}
    (hStored : p.LastRowStored st) (hr : p.rangeHolders[p.rangeIndex]? = some r) (n : Nat) :
    ({ p with lastRowPrefix := (((p.scanRest st r).take n).getLast?.map Prod.fst).or p.lastRowPrefix } :
      PullTableScan).LastRowStored st := by
  intro k hk
  cases hLast : ((p.scanRest st r).take n).getLast? with
  | none =>
    rw [hLast] at hk
    exact hStored k hk
  | some last =>
    rw [hLast, Option.map_some, Option.some_or, Option.some.injEq] at hk
    subst hk
    obtain ⟨hMem, hIn⟩ := mem_scanRest hStored hr (List.mem_of_mem_take (List.mem_of_getLast? hLast))
    exact ⟨r, last.2, hr, hMem, hIn⟩

theorem getRowsLoop_lastRowStored (st : SortedStore) (limit : Nat) :
    ∀ (fuel : Nat) (p : PullTableScan) (rows : List α) (p' : PullTableScan) (rows' : List α),
      p.LastRowStored st → PullTableScan.getRowsLoop decodeRow st limit fuel p rows = .ok (p', rows') →
      p'.LastRowStored st := by
  intro fuel
  induction fuel with
  | zero =>
    rintro p rows p' rows' hStored ⟨⟩
    exact hStored
  | succ fuel ih =>
    intro p rows p' rows' hStored hLoop
    rw [PullTableScan.getRowsLoop] at hLoop
    cases hr : p.rangeHolders[p.rangeIndex]? with
    | none =>
      rw [hr] at hLoop
      cases hLoop
      exact hStored
    | some r =>
      rw [hr] at hLoop
      dsimp only at hLoop
      rw [getRowsFromRange_eq] at hLoop
      cases hm : ((p.scanRest st r).take (limit - rows.length)).mapM fun kv => decodeRow kv.2 with
      | error err =>
        rw [hm] at hLoop
        cases hLoop
      | ok new =>
        rw [hm] at hLoop
        dsimp only [Except.map] at hLoop
        split at hLoop
        · cases hLoop
          exact hStored.getRowsFromRange hr _
        · exact ih _ _ p' rows' (PullTableScan.LastRowStored.of_none rfl) hLoop

theorem GetRows_lastRowStored (st : SortedStore) {p p' : PullTableScan} {limit : Int} {rows' : List α}
    (hStored : p.LastRowStored st) (hCall : p.GetRows decodeRow st limit = .ok (p', rows')) :
    p'.LastRowStored st := by
  unfold PullTableScan.GetRows at hCall
  split at hCall
  · cases hCall
  · cases hLoop : PullTableScan.getRowsLoop decodeRow st limit.toNat (p.rangeHolders.length - p.rangeIndex) p [] with
    | error err =>
      rw [hLoop] at hCall
      cases hCall
    | ok res =>
      rw [hLoop] at hCall
      cases hCall
      exact getRowsLoop_lastRowStored decodeRow st _ _ p [] p' rows' hStored hLoop

def tableScanRows : SortedStore :=
  ⟨[(EncodeTableKeyPrefix 1000 1 ++ [1], [11]), (EncodeTableKeyPrefix 1000 1 ++ [2], [12]),
    (EncodeTableKeyPrefix 1000 1 ++ [3], [13])], by decide⟩

def resumedTableScan : PullTableScan :=
  ⟨some (EncodeTableKeyPrefix 1000 1 ++ [1]), [⟨EncodeTableKeyPrefix 1000 1, EncodeTableKeyPrefix 1001 1⟩], 0⟩

theorem GetRows_skips_after_deleted_key (st : SortedStore) (p : PullTableScan) {limit : Int} {k : Bytes}
    {r : RangeHolder} (hLimit : 1 ≤ limit) (hLast : p.lastRowPrefix = some k)
    (hRange : p.rangeHolders[p.rangeIndex]? = some r) (hLo : compare r.rangeStart k ≠ .gt)
    (hAbsent : ∀ v, (k, v) ∉ st.rows) (hNext : RangeScan.after k (st.rangeRows r) ≠ []) :
    (p.GetRows decodeRow st limit).map Prod.snd =
      ((((p.unreturned st).tail).take limit.toNat).mapM fun kv => decodeRow kv.2).mapError .decode := by
  -- the scan reads all that is unreturned but the first row above the deleted key
  have hPending : p.scanPending st = (p.unreturned st).tail := by
    rw [PullTableScan.scanPending_of_some hRange, scanRest_of_not_mem st hLast hAbsent hLo,
      PullTableScan.unreturned_of_some hRange hLast, List.tail_append_of_ne_nil hNext, List.drop_one]
  have h := GetRows_scanPending decodeRow st p hLimit
  rw [hPending] at h
  have hSnd : (p.GetRows decodeRow st limit).map Prod.snd =
      ((p.GetRows decodeRow st limit).map fun res => (res.1.rangeHolders, res.1.scanPending st, res.2)).map
        fun res => res.2.2 := by
    cases p.GetRows decodeRow st limit <;> rfl
  rw [hSnd, h]
  cases (((p.unreturned st).tail).take limit.toNat).mapM fun kv => decodeRow kv.2 <;> rfl

end

/-- A table of one shard read whole, with rows `1`, `2`, `3` under its key
prefix; the second call comes after row `1`, the last returned, was deleted,
and returns row `3`: row `2`, stored throughout, is never returned. -/
theorem GetRows_skips_after_deleted_key_table_scan :
    NewPullTableScan ⟨1000, [0], [.bigInt]⟩ 1 [none] =
        .ok ⟨none, [⟨[0, 0, 0, 0, 0, 0, 0, 1, 0, 0, 0, 0, 0, 0, 3, 232], [0, 0, 0, 0, 0, 0, 0, 1, 0, 0, 0, 0, 0, 0, 3, 233]⟩], 0⟩ ∧
      PullTableScan.GetRows (fun v => (.ok v : Except Unit Bytes))
          ⟨[([0, 0, 0, 0, 0, 0, 0, 1, 0, 0, 0, 0, 0, 0, 3, 232, 1], [11]),
            ([0, 0, 0, 0, 0, 0, 0, 1, 0, 0, 0, 0, 0, 0, 3, 232, 2], [12]),
            ([0, 0, 0, 0, 0, 0, 0, 1, 0, 0, 0, 0, 0, 0, 3, 232, 3], [13])], by decide⟩
          ⟨none, [⟨[0, 0, 0, 0, 0, 0, 0, 1, 0, 0, 0, 0, 0, 0, 3, 232], [0, 0, 0, 0, 0, 0, 0, 1, 0, 0, 0, 0, 0, 0, 3, 233]⟩], 0⟩ 1 =
        .ok (⟨some [0, 0, 0, 0, 0, 0, 0, 1, 0, 0, 0, 0, 0, 0, 3, 232, 1],
          [⟨[0, 0, 0, 0, 0, 0, 0, 1, 0, 0, 0, 0, 0, 0, 3, 232], [0, 0, 0, 0, 0, 0, 0, 1, 0, 0, 0, 0, 0, 0, 3, 233]⟩], 0⟩, [[11]]) ∧
      (PullTableScan.GetRows (fun v => (.ok v : Except Unit Bytes))
          ⟨[([0, 0, 0, 0, 0, 0, 0, 1, 0, 0, 0, 0, 0, 0, 3, 232, 2], [12]),
            ([0, 0, 0, 0, 0, 0, 0, 1, 0, 0, 0, 0, 0, 0, 3, 232, 3], [13])], by decide⟩
          ⟨some [0, 0, 0, 0, 0, 0, 0, 1, 0, 0, 0, 0, 0, 0, 3, 232, 1],
            [⟨[0, 0, 0, 0, 0, 0, 0, 1, 0, 0, 0, 0, 0, 0, 3, 232], [0, 0, 0, 0, 0, 0, 0, 1, 0, 0, 0, 0, 0, 0, 3, 233]⟩], 0⟩
          1).map Prod.snd = .ok [[13]] := by
  refine ⟨rfl, rfl, ?_⟩
  have hAbsent : ∀ v, (([0, 0, 0, 0, 0, 0, 0, 1, 0, 0, 0, 0, 0, 0, 3, 232, 1] : Bytes), v) ∉
      [(([0, 0, 0, 0, 0, 0, 0, 1, 0, 0, 0, 0, 0, 0, 3, 232, 2] : Bytes), ([12] : Bytes)),
        ([0, 0, 0, 0, 0, 0, 0, 1, 0, 0, 0, 0, 0, 0, 3, 232, 3], [13])] := by
    intro v
    simp
  exact (GetRows_skips_after_deleted_key _ _ _ (by decide) rfl rfl (by decide) hAbsent (by decide)).trans rfl

end PranaDB
