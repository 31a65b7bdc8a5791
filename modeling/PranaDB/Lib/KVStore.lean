import Mathlib

/-! # Ordered key-value stores and write batches

A store is a partial function from keys to values. A write batch groups puts,
deletes and range deletes; the batch semantics applies the three groups in that
order, each group in the order it was added, so that a later write to a key
wins. A range `[lo, hi)` is taken in the key order `compare`.

The results here name no particular store: they are the rules the proofs about
a concrete engine use to compute what a batch leaves behind at one key.
-/

namespace KVStore
set_option autoImplicit false

abbrev Store (K V : Type) := K → Option V

variable {K V : Type}

section Point

variable [DecidableEq K]

def put (s : Store K V) (k : K) (v : V) : Store K V := Function.update s k (some v)

def erase (s : Store K V) (k : K) : Store K V := Function.update s k none

@[simp] theorem put_self (s : Store K V) (k : K) (v : V) : put s k v k = some v := by
  simp [put]

theorem put_of_ne (s : Store K V) {k x : K} (v : V) (h : x ≠ k) : put s k v x = s x := by
  simp [put, Function.update_of_ne h]

@[simp] theorem erase_self (s : Store K V) (k : K) : erase s k k = none := by
  simp [erase]

theorem erase_of_ne (s : Store K V) {k x : K} (h : x ≠ k) : erase s k x = s x := by
  simp [erase, Function.update_of_ne h]

end Point

section Range

variable [Ord K]

/-- `lo ≤ x < hi` in the key order. -/
def InRange (lo hi x : K) : Prop := compare lo x ≠ .gt ∧ compare x hi = .lt

instance (lo hi x : K) : Decidable (InRange lo hi x) := inferInstanceAs (Decidable (_ ∧ _))

def eraseRange (s : Store K V) (lo hi : K) : Store K V :=
  fun x => if InRange lo hi x then none else s x

theorem eraseRange_of_inRange (s : Store K V) {lo hi x : K} (h : InRange lo hi x) :
    eraseRange s lo hi x = none := by
  simp [eraseRange, h]

theorem eraseRange_of_not_inRange (s : Store K V) {lo hi x : K} (h : ¬ InRange lo hi x) :
    eraseRange s lo hi x = s x := by
  simp [eraseRange, h]

def eraseRanges (s : Store K V) (rs : List (K × K)) : Store K V :=
  rs.foldl (fun s r => eraseRange s r.1 r.2) s

@[simp] theorem eraseRanges_nil (s : Store K V) : eraseRanges s [] = s := rfl

@[simp] theorem eraseRanges_cons (s : Store K V) (r : K × K) (rs : List (K × K)) :
    eraseRanges s (r :: rs) = eraseRanges (eraseRange s r.1 r.2) rs := rfl

theorem eraseRanges_of_not_inRange (s : Store K V) (rs : List (K × K)) {x : K}
    (h : ∀ r ∈ rs, ¬ InRange r.1 r.2 x) : eraseRanges s rs x = s x := by
  induction rs generalizing s with
  | nil => rfl
  | cons r rs ih =>
    rw [eraseRanges_cons, ih _ (fun r' hr' => h r' (List.mem_cons_of_mem r hr')),
      eraseRange_of_not_inRange _ (h r List.mem_cons_self)]

theorem eraseRanges_of_inRange (s : Store K V) (rs : List (K × K)) {lo hi x : K}
    (hr : (lo, hi) ∈ rs) (h : InRange lo hi x) : eraseRanges s rs x = none := by
  induction rs generalizing s lo hi with
  | nil => simp at hr
  | cons r rs ih =>
    rw [eraseRanges_cons]
    by_cases hIn : ∃ r' ∈ rs, InRange r'.1 r'.2 x
    · obtain ⟨⟨lo', hi'⟩, hr', hx⟩ := hIn
      exact ih _ hr' hx
    · have hrs : ∀ r' ∈ rs, ¬ InRange r'.1 r'.2 x := fun r' hr' hx => hIn ⟨r', hr', hx⟩
      have hEq : r = (lo, hi) := by
        rcases List.mem_cons.mp hr with hEq | hMem
        · exact hEq.symm
        · exact absurd h (hrs _ hMem)
      rw [eraseRanges_of_not_inRange _ _ hrs, hEq, eraseRange_of_inRange _ h]

end Range

/-! ## Groups of writes -/

section Groups

variable [DecidableEq K]

def putAll (s : Store K V) (ps : List (K × V)) : Store K V :=
  ps.foldl (fun s p => put s p.1 p.2) s

def eraseAll (s : Store K V) (ks : List K) : Store K V := ks.foldl erase s

@[simp] theorem putAll_nil (s : Store K V) : putAll s [] = s := rfl

@[simp] theorem eraseAll_nil (s : Store K V) : eraseAll s [] = s := rfl

@[simp] theorem putAll_cons (s : Store K V) (p : K × V) (ps : List (K × V)) :
    putAll s (p :: ps) = putAll (put s p.1 p.2) ps := rfl

@[simp] theorem eraseAll_cons (s : Store K V) (k : K) (ks : List K) :
    eraseAll s (k :: ks) = eraseAll (erase s k) ks := rfl

theorem putAll_append (s : Store K V) (ps qs : List (K × V)) :
    putAll s (ps ++ qs) = putAll (putAll s ps) qs :=
  List.foldl_append

theorem putAll_of_not_mem (s : Store K V) (ps : List (K × V)) {x : K}
    (h : x ∉ ps.map Prod.fst) : putAll s ps x = s x := by
  induction ps generalizing s with
  | nil => rfl
  | cons p ps ih =>
    simp only [List.map_cons, List.mem_cons, not_or] at h
    rw [putAll_cons, ih _ h.2, put_of_ne _ _ h.1]

theorem eraseAll_of_not_mem (s : Store K V) (ks : List K) {x : K} (h : x ∉ ks) :
    eraseAll s ks x = s x := by
  induction ks generalizing s with
  | nil => rfl
  | cons k ks ih =>
    simp only [List.mem_cons, not_or] at h
    rw [eraseAll_cons, ih _ h.2, erase_of_ne _ h.1]

theorem eraseAll_of_mem (s : Store K V) (ks : List K) {x : K} (h : x ∈ ks) :
    eraseAll s ks x = none := by
  induction ks generalizing s with
  | nil => simp at h
  | cons k ks ih =>
    rw [eraseAll_cons]
    by_cases hx : x ∈ ks
    · exact ih _ hx
    · have hk : x = k := by simpa [hx] using h
      rw [eraseAll_of_not_mem _ _ hx, hk, erase_self]

def allPresent (s : Store K V) : List K → Bool
  | [] => true
  | k :: ks => (s k).isSome && allPresent (erase s k) ks

@[simp] theorem allPresent_nil (s : Store K V) : allPresent s [] = true := rfl

@[simp] theorem allPresent_cons (s : Store K V) (k : K) (ks : List K) :
    allPresent s (k :: ks) = ((s k).isSome && allPresent (erase s k) ks) := rfl

end Groups

/-! ## Batches -/

section Batches

variable [DecidableEq K] [Ord K]

/-- The writes of one batch, each group in the order it was added. -/
structure Batch (K V : Type) where
  puts : List (K × V)
  deletes : List K
  deleteRanges : List (K × K)

def Batch.apply (b : Batch K V) (s : Store K V) : Store K V :=
  eraseRanges (eraseAll (putAll s b.puts) b.deletes) b.deleteRanges

def Batch.withoutRanges (b : Batch K V) : Batch K V := { b with deleteRanges := [] }

@[simp] theorem Batch.apply_withoutRanges (b : Batch K V) (s : Store K V) :
    b.withoutRanges.apply s = eraseAll (putAll s b.puts) b.deletes := rfl

theorem Batch.apply_of_inRange (b : Batch K V) (s : Store K V) {lo hi x : K}
    (hr : (lo, hi) ∈ b.deleteRanges) (h : InRange lo hi x) : b.apply s x = none :=
  eraseRanges_of_inRange _ _ hr h

end Batches

end KVStore
