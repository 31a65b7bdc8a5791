import PranaDB.Common.KeyEncoding
import PranaDB.Lib.KVStore

/-! # Table and index keys (`table/table.go`)

Every stored key starts with the shard id and the table (or index) id, both
big-endian, so that the rows of one table on one shard are one contiguous
range of the store. A table row's key then holds its primary-key columns; an
index entry's key holds the index columns and then the primary key, which is
also its value.
-/

namespace PranaDB
set_option autoImplicit false

/-- The fields of `common.TableInfo` the key encoders read. -/
structure TableInfo where
  ID : UInt64
  PrimaryKeyCols : List Nat
  ColumnTypes : List ColumnType
deriving DecidableEq, Repr

/-- The fields of `common.IndexInfo` the key encoders read. -/
structure IndexInfo where
  ID : UInt64
  IndexCols : List Nat
deriving DecidableEq, Repr

/-- `EncodeTableKeyPrefix`: the shard id, then the table id. -/
def EncodeTableKeyPrefix (tableID shardID : UInt64) : Bytes :=
  AppendUint64ToBufferBE (AppendUint64ToBufferBE [] shardID) tableID

def encodeKeyFromRow (tableInfo : TableInfo) (row : Row) (shardID : UInt64) : Option Bytes :=
  EncodeKeyCols row tableInfo.PrimaryKeyCols tableInfo.ColumnTypes
    (EncodeTableKeyPrefix tableInfo.ID shardID)

/-- `EncodeIndexKeyValue`: the index key and its value, the primary key. -/
def EncodeIndexKeyValue (tableInfo : TableInfo) (indexInfo : IndexInfo) (shardID : UInt64)
    (row : Row) : Option (Bytes × Bytes) := do
  let keyBuff ← EncodeIndexKeyCols row indexInfo.IndexCols tableInfo.ColumnTypes
    (EncodeTableKeyPrefix indexInfo.ID shardID)
  let pkStart := keyBuff.length
  let keyBuff ← EncodeKeyCols row tableInfo.PrimaryKeyCols tableInfo.ColumnTypes keyBuff
  pure (keyBuff, keyBuff.drop pkStart)

@[simp] theorem length_EncodeTableKeyPrefix (tableID shardID : UInt64) :
    (EncodeTableKeyPrefix tableID shardID).length = 16 := by
  simp [EncodeTableKeyPrefix]

theorem EncodeTableKeyPrefix_inj {a b : UInt64} (shardID : UInt64)
    (h : EncodeTableKeyPrefix a shardID = EncodeTableKeyPrefix b shardID) : a = b := by
  have ha := ReadUint64FromBufferBE_append (AppendUint64ToBufferBE [] shardID) [] a
  have hb := ReadUint64FromBufferBE_append (AppendUint64ToBufferBE [] shardID) [] b
  simp only [List.append_nil] at ha hb
  rw [EncodeTableKeyPrefix, EncodeTableKeyPrefix] at h
  rw [h, hb, Option.some.injEq, Prod.mk.injEq] at ha
  exact ha.1.symm

theorem EncodeIndexKeyValue_eq (tableInfo : TableInfo) (indexInfo : IndexInfo) (shardID : UInt64)
    (row : Row)
    (hIndex : ∀ i ∈ indexInfo.IndexCols, indexCellTyped tableInfo.ColumnTypes row i = true)
    (hPK : ∀ i ∈ tableInfo.PrimaryKeyCols, pkCellTyped tableInfo.ColumnTypes row i = true) :
    EncodeIndexKeyValue tableInfo indexInfo shardID row =
      some (EncodeTableKeyPrefix indexInfo.ID shardID ++
          ListOrder.encodeAll indexKeyBytes (keyTypes tableInfo.ColumnTypes indexInfo.IndexCols)
            (keyCells row indexInfo.IndexCols) ++
          ListOrder.encodeAll keyBytes (keyTypes tableInfo.ColumnTypes tableInfo.PrimaryKeyCols)
            (keyValues row tableInfo.PrimaryKeyCols),
        ListOrder.encodeAll keyBytes (keyTypes tableInfo.ColumnTypes tableInfo.PrimaryKeyCols)
          (keyValues row tableInfo.PrimaryKeyCols)) := by
  simp only [EncodeIndexKeyValue, EncodeIndexKeyCols_eq row _ _ hIndex, Option.bind_eq_bind,
    Option.bind_some, EncodeKeyCols_eq row _ _ hPK, List.drop_left, Option.pure_def]

/-! ## The range of one table on one shard -/

theorem compare_EncodeTableKeyPrefix (t s t' s' : UInt64) :
    compare (EncodeTableKeyPrefix t s) (EncodeTableKeyPrefix t' s') =
      (compare s.toNat s'.toNat).then (compare t.toNat t'.toNat) := by
  have hWord : ∀ v : UInt64, v.toNat < 256 ^ 8 := fun v => by simpa using v.toNat_lt
  simp only [EncodeTableKeyPrefix, AppendUint64ToBufferBE_eq, List.nil_append]
  rw [ListOrder.compare_append_of_length_eq (by simp), BigEndian.compare_encode (hWord s) (hWord s'),
    BigEndian.compare_encode (hWord t) (hWord t')]

theorem exists_eq_EncodeTableKeyPrefix {a : Bytes} (h : a.length = 16) :
    ∃ t s, a = EncodeTableKeyPrefix t s := by
  have hWord : ∀ l : Bytes, l.length = 8 → BigEndian.encode 8 (UInt64.ofNat (BigEndian.decode l)).toNat = l := by
    intro l hl
    have hLt : BigEndian.decode l < 2 ^ 64 := by simpa [hl] using BigEndian.decode_lt l
    rw [UInt64.toNat_ofNat', Nat.mod_eq_of_lt hLt, ← hl, BigEndian.encode_decode]
  refine ⟨UInt64.ofNat (BigEndian.decode (a.drop 8)), UInt64.ofNat (BigEndian.decode (a.take 8)), ?_⟩
  simp only [EncodeTableKeyPrefix, AppendUint64ToBufferBE_eq, List.nil_append]
  rw [hWord _ (by simp [h]), hWord _ (by simp [h]), List.take_append_drop]

theorem EncodeTableKeyPrefix_eq_iff {t s t' s' : UInt64} :
    EncodeTableKeyPrefix t s = EncodeTableKeyPrefix t' s' ↔ t = t' ∧ s = s' := by
  constructor
  · intro h
    have hCmp := compare_EncodeTableKeyPrefix t s t' s'
    rw [h, Std.ReflOrd.compare_self, eq_comm, Ordering.then_eq_eq, Nat.compare_eq_eq, Nat.compare_eq_eq] at hCmp
    exact ⟨UInt64.toNat_inj.mp hCmp.2, UInt64.toNat_inj.mp hCmp.1⟩
  · rintro ⟨rfl, rfl⟩
    rfl

section TableRange

variable {t s : UInt64} (ht : t.toNat + 1 < 2 ^ 64)
include ht

theorem toNat_add_one : (t + 1).toNat = t.toNat + 1 := by
  rw [UInt64.toNat_add, UInt64.toNat_one]
  exact Nat.mod_eq_of_lt ht

theorem eq_prefix_of_inRange {x : Bytes} (hx : 16 ≤ x.length)
    (hIn : KVStore.InRange (EncodeTableKeyPrefix t s) (EncodeTableKeyPrefix (t + 1) s) x) :
    x = EncodeTableKeyPrefix t s ++ x.drop 16 := by
  obtain ⟨t', s', ha⟩ := exists_eq_EncodeTableKeyPrefix (a := x.take 16) (by simp; omega)
  have hx' : x = EncodeTableKeyPrefix t' s' ++ x.drop 16 := by rw [← ha, List.take_append_drop]
  have hLo := hIn.1
  have hHi := hIn.2
  rw [hx'] at hLo hHi
  have hLoSplit := ListOrder.compare_append_of_length_eq
    (show (EncodeTableKeyPrefix t s).length = (EncodeTableKeyPrefix t' s').length by simp) [] (x.drop 16)
  have hHiSplit := ListOrder.compare_append_of_length_eq
    (show (EncodeTableKeyPrefix t' s').length = (EncodeTableKeyPrefix (t + 1) s).length by simp) (x.drop 16) []
  rw [List.append_nil] at hLoSplit hHiSplit
  rw [hLoSplit, compare_EncodeTableKeyPrefix] at hLo
  rw [hHiSplit, compare_EncodeTableKeyPrefix, toNat_add_one ht] at hHi
  have hs : s'.toNat = s.toNat := by
    rcases Nat.lt_trichotomy s.toNat s'.toNat with h | h | h
    · simp [Nat.compare_eq_gt.mpr h] at hHi
    · exact h.symm
    · simp [Nat.compare_eq_gt.mpr h] at hLo
  simp only [hs, Std.ReflOrd.compare_self, Ordering.eq_then] at hLo hHi
  have hBelow : t'.toNat < t.toNat + 1 := by
    rcases Nat.lt_trichotomy t'.toNat (t.toNat + 1) with h | h | h
    · exact h
    · rw [h, Std.ReflOrd.compare_self, Ordering.eq_then] at hHi
      cases hr : x.drop 16 <;> simp [hr, compare, List.compareLex] at hHi
    · simp [Nat.compare_eq_gt.mpr h] at hHi
  have hAbove : t.toNat ≤ t'.toNat := by
    by_contra h
    simp [Nat.compare_eq_gt.mpr (Nat.lt_of_not_le h)] at hLo
  have ht' : t'.toNat = t.toNat := by omega
  rw [UInt64.toNat_inj.mp hs, UInt64.toNat_inj.mp ht'] at hx'
  exact hx'

theorem inRange_EncodeTableKeyPrefix_append (r : Bytes) :
    KVStore.InRange (EncodeTableKeyPrefix t s) (EncodeTableKeyPrefix (t + 1) s) (EncodeTableKeyPrefix t s ++ r) := by
  have hLo := ListOrder.compare_append_left (EncodeTableKeyPrefix t s) [] r
  have hHi := ListOrder.compare_append_of_length_eq
    (show (EncodeTableKeyPrefix t s).length = (EncodeTableKeyPrefix (t + 1) s).length by simp) r []
  rw [List.append_nil] at hLo hHi
  constructor
  · rw [hLo]
    cases r <;> simp [compare, List.compareLex]
  · rw [hHi, compare_EncodeTableKeyPrefix, toNat_add_one ht, Std.ReflOrd.compare_self, Ordering.eq_then,
      Nat.compare_eq_lt.mpr (Nat.lt_succ_self _), Ordering.lt_then]

theorem not_inRange_EncodeTableKeyPrefix_append {t' s' : UInt64}
    (hne : EncodeTableKeyPrefix t' s' ≠ EncodeTableKeyPrefix t s) (r : Bytes) :
    ¬ KVStore.InRange (EncodeTableKeyPrefix t s) (EncodeTableKeyPrefix (t + 1) s) (EncodeTableKeyPrefix t' s' ++ r) := by
  intro hIn
  have hEq := congrArg (List.take 16) (eq_prefix_of_inRange ht (by simp) hIn)
  rw [List.take_left' (by simp), List.take_left' (by simp)] at hEq
  exact hne hEq

end TableRange

end PranaDB
