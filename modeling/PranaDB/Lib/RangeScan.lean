import PranaDB.Lib.KVStore

/-! # Range scans over a key-sorted list of rows

An ordered store seen through an iterator is the list of its rows in strictly
increasing key order. A range scan filters that list to `[lo, hi)`. A scan
resumed from a key `k` of the range sees `k`'s row first when the store still
holds it, and otherwise starts at the next row: the two lemmas
`rangeRows_of_mem` and `rangeRows_of_not_mem` say so.
-/

namespace RangeScan
set_option autoImplicit false

variable {K V : Type} [Ord K]

def Sorted (rows : List (K × V)) : Prop := rows.Pairwise fun a b => compare a.1 b.1 = .lt

instance (rows : List (K × V)) : Decidable (Sorted rows) :=
  inferInstanceAs (Decidable (rows.Pairwise _))

def rangeRows (rows : List (K × V)) (lo hi : K) : List (K × V) :=
  rows.filter fun kv => decide (KVStore.InRange lo hi kv.1)

def after (k : K) (rows : List (K × V)) : List (K × V) :=
  rows.filter fun kv => compare k kv.1 = .lt

theorem Sorted.sublist {rows rows' : List (K × V)} (h : Sorted rows) (hSub : rows'.Sublist rows) : Sorted rows' :=
  List.Pairwise.sublist hSub h

theorem Sorted.rangeRows {rows : List (K × V)} (h : Sorted rows) (lo hi : K) : Sorted (rangeRows rows lo hi) :=
  h.sublist List.filter_sublist

theorem Sorted.after {rows : List (K × V)} (h : Sorted rows) (k : K) : Sorted (after k rows) :=
  h.sublist List.filter_sublist

theorem mem_rangeRows {rows : List (K × V)} {lo hi : K} {kv : K × V} :
    kv ∈ rangeRows rows lo hi ↔ kv ∈ rows ∧ KVStore.InRange lo hi kv.1 := by
  simp [rangeRows]

theorem mem_after {k : K} {rows : List (K × V)} {kv : K × V} :
    kv ∈ after k rows ↔ kv ∈ rows ∧ compare k kv.1 = .lt := by
  simp [after]

section Trans

variable [Std.TransOrd K]

theorem compare_ne_lt_of_lt {a b : K} (h : compare a b = .lt) : compare b a ≠ .lt := by
  rw [Std.OrientedOrd.eq_swap, h]
  decide

theorem inRange_of_le {lo k hi x : K} (hLo : compare lo k ≠ .gt) (h : KVStore.InRange k hi x) :
    KVStore.InRange lo hi x :=
  ⟨Std.TransCmp.le_trans hLo h.1, h.2⟩

theorem mem_rangeRows_of_le {rows : List (K × V)} {lo k hi : K} (hLo : compare lo k ≠ .gt) {kv : K × V}
    (h : kv ∈ rangeRows rows k hi) : kv ∈ rangeRows rows lo hi := by
  obtain ⟨hMem, hIn⟩ := mem_rangeRows.mp h
  exact mem_rangeRows.mpr ⟨hMem, inRange_of_le hLo hIn⟩

theorem rangeRows_of_mem {rows : List (K × V)} (hSorted : Sorted rows) {lo hi k : K} {v : V}
    (hMem : (k, v) ∈ rows) (hLo : compare lo k ≠ .gt) (hHi : compare k hi = .lt) :
    rangeRows rows k hi = (k, v) :: after k (rangeRows rows lo hi) := by
  obtain ⟨l₁, l₂, rfl⟩ := List.append_of_mem hMem
  obtain ⟨-, hSorted₂, hAcross⟩ := List.pairwise_append.mp hSorted
  have hAbove : ∀ b ∈ l₂, compare k b.1 = .lt := fun b hb => (List.pairwise_cons.mp hSorted₂).1 b hb
  have hBelow : ∀ a ∈ l₁, compare k a.1 = .gt := by
    intro a ha
    have hak : compare a.1 k = .lt := hAcross a ha (k, v) List.mem_cons_self
    rw [Std.OrientedOrd.eq_swap, hak]
    rfl
  have hLeft : l₁.filter (fun kv => decide (KVStore.InRange k hi kv.1)) = [] :=
    List.filter_eq_nil_iff.mpr fun a ha => by simp [KVStore.InRange, hBelow a ha]
  have hRight : (l₁.filter fun kv => decide (KVStore.InRange lo hi kv.1)).filter
      (fun kv => compare k kv.1 = .lt) = [] :=
    List.filter_eq_nil_iff.mpr fun a ha => by simp [hBelow a (List.mem_filter.mp ha).1]
  have hRest : l₂.filter (fun kv => decide (KVStore.InRange k hi kv.1)) =
      (l₂.filter fun kv => decide (KVStore.InRange lo hi kv.1)).filter fun kv => compare k kv.1 = .lt := by
    rw [List.filter_filter]
    apply List.filter_congr
    intro b hb
    have hkb := hAbove b hb
    have hlb : compare lo b.1 ≠ .gt := Std.TransCmp.le_trans hLo (by rw [hkb]; decide)
    simp [KVStore.InRange, hkb, hlb]
  have hKeep : decide (KVStore.InRange k hi k) = true := by simp [KVStore.InRange, hHi]
  have hIn : decide (KVStore.InRange lo hi k) = true := by simp [KVStore.InRange, hLo, hHi]
  have hNot : ¬ decide (compare k k = .lt) = true := by simp
  unfold rangeRows after
  simp only [List.filter_append, List.filter_cons, hKeep, hIn, hNot, ↓reduceIte, Bool.false_eq_true, hLeft, hRight, hRest,
    List.nil_append]

theorem rangeRows_of_not_mem [Std.LawfulEqOrd K] {rows : List (K × V)} {lo hi k : K} (hAbsent : ∀ v, (k, v) ∉ rows)
    (hLo : compare lo k ≠ .gt) : rangeRows rows k hi = after k (rangeRows rows lo hi) := by
  rw [rangeRows, rangeRows, after, List.filter_filter]
  apply List.filter_congr
  intro kv hkv
  have hne : kv.1 ≠ k := by
    rintro hEq
    apply hAbsent kv.2
    rw [← hEq]
    exact hkv
  cases hc : compare k kv.1 with
  | lt =>
    have hlo : compare lo kv.1 ≠ .gt := Std.TransCmp.le_trans hLo (by rw [hc]; decide)
    simp [KVStore.InRange, hc, hlo]
  | eq => exact absurd (Std.LawfulEqOrd.eq_of_compare hc).symm hne
  | gt => simp [KVStore.InRange, hc]

theorem after_getLast_take {rows : List (K × V)} (hSorted : Sorted rows) {n : Nat} {last : K × V}
    (hLast : (rows.take n).getLast? = some last) : after last.1 rows = rows.drop n := by
  have hSplit := List.take_append_drop n rows
  obtain ⟨-, -, hAcross⟩ := List.pairwise_append.mp (hSplit.symm ▸ hSorted : Sorted (rows.take n ++ rows.drop n))
  obtain ⟨init, hInit⟩ := List.getLast?_eq_some_iff.mp hLast
  have hSortedTake : Sorted (rows.take n) := hSorted.sublist (List.take_sublist n rows)
  rw [hInit] at hSortedTake
  have hTake : (rows.take n).filter (fun kv => compare last.1 kv.1 = .lt) = [] := by
    apply List.filter_eq_nil_iff.mpr
    intro a ha
    rw [hInit, List.mem_append, List.mem_singleton] at ha
    rcases ha with ha | rfl
    · have hal : compare a.1 last.1 = .lt :=
        (List.pairwise_append.mp hSortedTake).2.2 a ha last List.mem_cons_self
      simpa using compare_ne_lt_of_lt hal
    · simp [Std.ReflOrd.compare_self]
  have hDrop : (rows.drop n).filter (fun kv => compare last.1 kv.1 = .lt) = rows.drop n :=
    List.filter_eq_self.mpr fun b hb => by simpa using hAcross last (List.mem_of_getLast? hLast) b hb
  calc after last.1 rows
      = after last.1 (rows.take n ++ rows.drop n) := by rw [hSplit]
    _ = rows.drop n := by rw [after, List.filter_append, hTake, hDrop, List.nil_append]

theorem after_rangeRows_of_le {lo k x hi : K} (hLo : compare lo k ≠ .gt) (hk : compare k x ≠ .gt)
    (rows : List (K × V)) : after x (rangeRows rows lo hi) = after x (rangeRows rows k hi) := by
  rw [rangeRows, rangeRows, after, after, List.filter_filter, List.filter_filter]
  apply List.filter_congr
  intro kv _
  by_cases hx : compare x kv.1 = .lt
  · have hkv : compare k kv.1 ≠ .gt := Std.TransCmp.le_trans hk (by rw [hx]; decide)
    have hlo : compare lo kv.1 ≠ .gt := Std.TransCmp.le_trans hLo hkv
    simp [KVStore.InRange, hx, hkv, hlo]
  · simp [hx]

theorem getLast?_take_add {β : Type} {l : List β} {d n : Nat} {x : β} (h : ((l.drop d).take n).getLast? = some x) :
    (l.take (d + n)).getLast? = some x := by
  rw [List.take_add, List.getLast?_append, h]
  rfl

theorem after_after {k k' : K} (hlt : compare k k' = .lt) (rows : List (K × V)) :
    after k' (after k rows) = after k' rows := by
  rw [after, after, List.filter_filter]
  apply List.filter_congr
  intro kv _
  by_cases hk' : compare k' kv.1 = .lt
  · simp [hk', Std.TransCmp.lt_trans hlt hk']
  · simp [hk']

end Trans

/-! ## Writes

A put into a key-ordered store puts the row at its place in the order,
replacing the row of the same key. A range scan sees a put inside its range
as the same put into the scan, and does not see a put outside it. -/

def insert (k : K) (v : V) : List (K × V) → List (K × V)
  | [] => [(k, v)]
  | kv :: rows =>
    match compare k kv.1 with
    | .lt => (k, v) :: kv :: rows
    | .eq => (k, v) :: rows
    | .gt => kv :: insert k v rows

def insertAll (rows ps : List (K × V)) : List (K × V) :=
  ps.foldl (fun rows p => insert p.1 p.2 rows) rows

@[simp] theorem insertAll_nil (rows : List (K × V)) : insertAll rows [] = rows := rfl

theorem insertAll_cons (rows : List (K × V)) (p : K × V) (ps : List (K × V)) :
    insertAll rows (p :: ps) = insertAll (insert p.1 p.2 rows) ps := rfl

theorem insertAll_append (rows ps qs : List (K × V)) :
    insertAll rows (ps ++ qs) = insertAll (insertAll rows ps) qs :=
  List.foldl_append

theorem insert_of_lt_all {k : K} {rows : List (K × V)} (h : ∀ x ∈ rows, compare k x.1 = .lt) (v : V) :
    insert k v rows = (k, v) :: rows := by
  cases rows with
  | nil => rfl
  | cons kv rows => simp only [insert, h kv List.mem_cons_self]

theorem insert_of_all_lt [Std.OrientedOrd K] {k : K} {rows : List (K × V)} (h : ∀ x ∈ rows, compare x.1 k = .lt)
    (v : V) : insert k v rows = rows ++ [(k, v)] := by
  induction rows with
  | nil => rfl
  | cons kv rows ih =>
    have hGt : compare k kv.1 = .gt := by rw [Std.OrientedOrd.eq_swap, h kv List.mem_cons_self]; rfl
    simp only [insert, hGt, List.cons_append, ih fun x hx => h x (List.mem_cons_of_mem _ hx)]

theorem mem_of_mem_insert {k : K} {v : V} {rows : List (K × V)} {x : K × V} (h : x ∈ insert k v rows) :
    x = (k, v) ∨ x ∈ rows := by
  induction rows with
  | nil => simpa [insert] using h
  | cons kv rows ih =>
    unfold insert at h
    split at h
    · simpa using h
    · simp only [List.mem_cons] at h
      rcases h with h | h
      · exact Or.inl h
      · exact Or.inr (List.mem_cons_of_mem _ h)
    · simp only [List.mem_cons] at h
      rcases h with h | h
      · exact Or.inr (h ▸ List.mem_cons_self)
      · rcases ih h with h | h
        · exact Or.inl h
        · exact Or.inr (List.mem_cons_of_mem _ h)

theorem rangeRows_insert_of_not_inRange [Std.LawfulEqOrd K] {lo hi k : K} (hk : ¬ KVStore.InRange lo hi k)
    (v : V) (rows : List (K × V)) : rangeRows (insert k v rows) lo hi = rangeRows rows lo hi := by
  induction rows with
  | nil => simp [insert, rangeRows, hk]
  | cons kv rows ih =>
    cases hc : compare k kv.1 with
    | lt => simp [insert, hc, rangeRows, hk]
    | eq =>
      have hkv : kv.1 = k := (Std.LawfulEqOrd.eq_of_compare hc).symm
      simp [insert, rangeRows, hk, hkv]
    | gt =>
      simp only [insert, hc, rangeRows, List.filter_cons] at ih ⊢
      rw [ih]

theorem insertAll_of_sorted [Std.TransOrd K] {rows ps : List (K × V)} (hSorted : Sorted (rows ++ ps)) :
    insertAll rows ps = rows ++ ps := by
  induction ps generalizing rows with
  | nil => simp
  | cons p ps ih =>
    have hBelow : ∀ x ∈ rows, compare x.1 p.1 = .lt := fun x hx =>
      (List.pairwise_append.mp hSorted).2.2 x hx p List.mem_cons_self
    rw [insertAll_cons, insert_of_all_lt hBelow, ih (by simpa using hSorted)]
    simp

def toStore [DecidableEq K] (rows : List (K × V)) : KVStore.Store K V :=
  fun x => (rows.find? fun kv => decide (kv.1 = x)).map Prod.snd

theorem toStore_insert [DecidableEq K] [Std.LawfulEqOrd K] (k : K) (v : V) (rows : List (K × V)) :
    toStore (insert k v rows) = KVStore.put (toStore rows) k v := by
  funext x
  induction rows with
  | nil => by_cases hx : x = k <;> simp [insert, toStore, KVStore.put, Function.update, hx, eq_comm]
  | cons kv rows ih =>
    cases hc : compare k kv.1 with
    | lt => by_cases hx : x = k <;> simp [insert, hc, toStore, KVStore.put, Function.update, hx, eq_comm]
    | eq =>
      have hkv : kv.1 = k := (Std.LawfulEqOrd.eq_of_compare hc).symm
      by_cases hx : x = k <;> simp [insert, toStore, KVStore.put, Function.update, hx, hkv, eq_comm]
    | gt =>
      have hne : kv.1 ≠ k := fun h => by rw [h, Std.ReflOrd.compare_self] at hc; cases hc
      rw [insert, hc]
      by_cases hx : kv.1 = x
      · have hxk : x ≠ k := hx ▸ hne
        simp [toStore, hx, KVStore.put, Function.update, hxk]
      · have hRest : toStore (kv :: insert k v rows) x = toStore (insert k v rows) x := by simp [toStore, hx]
        rw [hRest, ih]
        simp [toStore, hx, KVStore.put, Function.update]

theorem toStore_insertAll [DecidableEq K] [Std.LawfulEqOrd K] (rows ps : List (K × V)) :
    toStore (insertAll rows ps) = KVStore.putAll (toStore rows) ps := by
  induction ps generalizing rows with
  | nil => rfl
  | cons p ps ih => rw [insertAll_cons, ih, toStore_insert, KVStore.putAll_cons]

section Ordered

variable [Std.TransOrd K] [Std.LawfulEqOrd K]

theorem Sorted.insert {rows : List (K × V)} (hSorted : Sorted rows) (k : K) (v : V) :
    Sorted (insert k v rows) := by
  induction rows with
  | nil => simp [RangeScan.insert, Sorted]
  | cons kv rows ih =>
    obtain ⟨hHead, hRest⟩ := List.pairwise_cons.mp hSorted
    cases hc : compare k kv.1 with
    | lt =>
      rw [RangeScan.insert, hc]
      refine List.Pairwise.cons ?_ hSorted
      rintro x (_ | ⟨_, hx⟩)
      · exact hc
      · exact Std.TransCmp.lt_trans hc (hHead x hx)
    | eq =>
      have hk : k = kv.1 := Std.LawfulEqOrd.eq_of_compare hc
      rw [RangeScan.insert, hc]
      refine List.Pairwise.cons ?_ hRest
      intro x hx
      rw [hk]
      exact hHead x hx
    | gt =>
      rw [RangeScan.insert, hc]
      refine List.Pairwise.cons ?_ (ih hRest)
      intro x hx
      rcases mem_of_mem_insert hx with rfl | hx
      · rw [Std.OrientedOrd.eq_swap, hc]
        rfl
      · exact hHead x hx

theorem Sorted.insertAll {rows : List (K × V)} (hSorted : Sorted rows) (ps : List (K × V)) :
    Sorted (insertAll rows ps) := by
  induction ps generalizing rows with
  | nil => exact hSorted
  | cons p ps ih => exact ih (hSorted.insert p.1 p.2)

theorem rangeRows_insert_of_inRange {lo hi k : K} (hk : KVStore.InRange lo hi k) (v : V) {rows : List (K × V)}
    (hSorted : Sorted rows) : rangeRows (insert k v rows) lo hi = insert k v (rangeRows rows lo hi) := by
  induction rows with
  | nil => simp [RangeScan.insert, rangeRows, hk]
  | cons kv rows ih =>
    obtain ⟨hHead, hRest⟩ := List.pairwise_cons.mp hSorted
    by_cases hIn : KVStore.InRange lo hi kv.1
    · have hScan : rangeRows (kv :: rows) lo hi = kv :: rangeRows rows lo hi := by simp [rangeRows, hIn]
      rw [hScan]
      cases hc : compare k kv.1 with
      | lt => simp [RangeScan.insert, hc, rangeRows, hk, hIn]
      | eq => simp [RangeScan.insert, hc, rangeRows, hk]
      | gt =>
        simp only [RangeScan.insert, hc, rangeRows, List.filter_cons, hIn, decide_true, ↓reduceIte] at ih ⊢
        rw [ih hRest]
    · have hScan : rangeRows (kv :: rows) lo hi = rangeRows rows lo hi := by simp [rangeRows, hIn]
      rw [hScan]
      cases hc : compare k kv.1 with
      | lt =>
        have hAbove : ∀ x ∈ rangeRows rows lo hi, compare k x.1 = .lt := fun x hx =>
          Std.TransCmp.lt_trans hc (hHead x (mem_rangeRows.mp hx).1)
        rw [insert_of_lt_all hAbove]
        simp [RangeScan.insert, hc, rangeRows, hk, hIn]
      | eq => exact absurd (Std.LawfulEqOrd.eq_of_compare hc ▸ hk) hIn
      | gt =>
        rw [RangeScan.insert, hc, rangeRows, List.filter_cons, if_neg (by simpa using hIn)]
        exact ih hRest

theorem rangeRows_insertAll {rows : List (K × V)} (hSorted : Sorted rows) (lo hi : K) (ps : List (K × V)) :
    rangeRows (insertAll rows ps) lo hi =
      insertAll (rangeRows rows lo hi) (ps.filter fun p => decide (KVStore.InRange lo hi p.1)) := by
  induction ps generalizing rows with
  | nil => rfl
  | cons p ps ih =>
    rw [insertAll_cons, ih (hSorted.insert p.1 p.2), List.filter_cons]
    by_cases hp : KVStore.InRange lo hi p.1
    · rw [rangeRows_insert_of_inRange hp p.2 hSorted, if_pos (by simpa using hp), insertAll_cons]
    · rw [rangeRows_insert_of_not_inRange hp, if_neg (by simpa using hp)]

theorem rangeRows_insertAll_of_not_inRange {rows : List (K × V)} (hSorted : Sorted rows) {lo hi : K}
    {ps : List (K × V)} (h : ∀ p ∈ ps, ¬ KVStore.InRange lo hi p.1) :
    rangeRows (insertAll rows ps) lo hi = rangeRows rows lo hi := by
  rw [rangeRows_insertAll hSorted, List.filter_eq_nil_iff.mpr (fun p hp => by simpa using h p hp), insertAll_nil]

end Ordered

end RangeScan
