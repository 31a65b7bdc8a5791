import Mathlib

/-! # The fan-out of a pull query (`pull/exec/remote_executor.go`)

`RemoteExecutor.GetRows` asks the shards of a pull query for rows, in rounds:
it splits the rows still wanted between the getters that are not complete
(`totToGet / (numGetters - completeCount)`, at least one), stops requesting
once the requests add up to the rows wanted, and counts a getter complete
when it returns fewer rows than it was asked for.

A getter holds the rows its shard has still to return. The remote pull query
is sent `uint32(limit)`: with that limit `n` it returns the next `n` rows, or
all that are left, and a limit of 0 closes the query and returns none. The
getter counts itself complete when fewer rows than `limit` came back. The
query is taken to succeed, and the getters of a round run one after another,
which gives the rows the order the collecting loop appends them in. The single
point get, which calls one shard directly, is left out.

`completeCount` is the number of complete getters. The executor carries that
as a field, and the loop terminates because each round lowers the rows still
on the shards plus the getters not complete. A getter that is complete has no
rows left (`Sound`) only while every limit is below `2^32`: a call for
`2^32` rows sends 0, and the getter is complete with all its rows unreturned
(`GetRows_fan_out_limit_wraps`).
-/

namespace PranaDB
set_option autoImplicit false

variable {ρ : Type}

/-- A `clusterGetter` and the rows its shard has still to return. -/
structure ClusterGetter (ρ : Type) where
  shardID : Nat
  remaining : List ρ
  complete : Bool

/-- `clusterGetter.GetRows`: the remote query asked for `uint32(limit)` rows,
and the getter complete when fewer than `limit` came back. -/
def ClusterGetter.GetRows (c : ClusterGetter ρ) (limit : Nat) : ClusterGetter ρ × List ρ :=
  let sent := limit % 2 ^ 32
  (⟨c.shardID, c.remaining.drop sent, decide ((c.remaining.take sent).length < limit)⟩, c.remaining.take sent)

def ClusterGetter.Sound (c : ClusterGetter ρ) : Prop := c.complete = true → c.remaining = []

/-- How `RemoteExecutor.GetRows` fails. -/
inductive RemoteError where
  | invalidLimit (limit : Int)
  | panic (msg : String)
deriving DecidableEq, Repr

/-- The first loop of a round: each getter not complete is called for `toGet`
rows, until the rows requested reach `totToGet`. The getters after it, and for
each getter called, in order, the getter after its call and the rows it
returned. -/
def requestGetters (toGet totToGet : Nat) :
    Nat → List (ClusterGetter ρ) → List (ClusterGetter ρ) × List (ClusterGetter ρ × List ρ)
  | _, [] => ([], [])
  | getsRequested, getter :: getters =>
    if getter.complete then
      let r := requestGetters toGet totToGet getsRequested getters
      (getter :: r.1, r.2)
    else
      let called := getter.GetRows toGet
      if getsRequested + toGet = totToGet then (called.1 :: getters, [called])
      else
        let r := requestGetters toGet totToGet (getsRequested + toGet) getters
        (called.1 :: r.1, called :: r.2)

/-- The second loop of a round, over the getters called: the rows of each
appended in order, and `completeCount` counted up for each now complete. -/
def collectRows (toGet : Nat) :
    List ρ → Nat → List (ClusterGetter ρ × List ρ) → Except RemoteError (List ρ × Nat)
  | rows, completeCount, [] => .ok (rows, completeCount)
  | rows, completeCount, (getter, res) :: results =>
    if res.length > toGet then .error (.panic "returned too many rows")
    else collectRows toGet (rows ++ res) (if getter.complete then completeCount + 1 else completeCount) results

/-- The fields of `RemoteExecutor` that the fan-out reads and writes. -/
structure RemoteExecutor (ρ : Type) where
  clusterGetters : List (ClusterGetter ρ)
  completeCount : Nat
  completeCount_eq : completeCount = clusterGetters.countP ClusterGetter.complete

def total (getters : List (ClusterGetter ρ)) : Nat := (getters.map (·.remaining.length)).sum

/-- What the loop has still to do: the rows on the shards and the getters not
complete. -/
def pendingOf (getters : List (ClusterGetter ρ)) : Nat := total getters + getters.countP (!·.complete)

/-! ## One round -/

section Round

variable (toGet totToGet : Nat)

@[simp] theorem total_nil : total ([] : List (ClusterGetter ρ)) = 0 := rfl

@[simp] theorem total_cons (g : ClusterGetter ρ) (gs : List (ClusterGetter ρ)) :
    total (g :: gs) = g.remaining.length + total gs := by
  simp [total]

theorem GetRows_remaining (g : ClusterGetter ρ) (n : Nat) :
    (g.GetRows n).2 ++ (g.GetRows n).1.remaining = g.remaining :=
  List.take_append_drop _ g.remaining

theorem length_GetRows_le (g : ClusterGetter ρ) (n : Nat) : (g.GetRows n).2.length ≤ n :=
  (List.length_take_le _ g.remaining).trans (Nat.mod_le n _)

theorem sound_GetRows (g : ClusterGetter ρ) {n : Nat} (hn : n < 2 ^ 32) : (g.GetRows n).1.Sound := by
  intro hComplete
  simp only [ClusterGetter.GetRows, Nat.mod_eq_of_lt hn, decide_eq_true_eq, List.length_take] at hComplete ⊢
  exact List.drop_eq_nil_of_le (by omega)

theorem pendingOf_cons (g : ClusterGetter ρ) (gs : List (ClusterGetter ρ)) :
    pendingOf (g :: gs) = g.remaining.length + (if g.complete then 0 else 1) + pendingOf gs := by
  simp only [pendingOf, total_cons, List.countP_cons]
  cases g.complete <;> simp <;> omega

theorem pending_GetRows_lt (g : ClusterGetter ρ) {n : Nat} (hn : 0 < n) :
    (g.GetRows n).1.remaining.length + (if (g.GetRows n).1.complete then 0 else 1) < g.remaining.length + 1 := by
  have hSent : n % 2 ^ 32 ≤ n := Nat.mod_le n _
  simp only [ClusterGetter.GetRows, List.length_drop, List.length_take, decide_eq_true_eq]
  split <;> omega

theorem countP_requestGetters : ∀ (getsRequested : Nat) (gs : List (ClusterGetter ρ)),
    (requestGetters toGet totToGet getsRequested gs).1.countP ClusterGetter.complete =
      gs.countP ClusterGetter.complete + (requestGetters toGet totToGet getsRequested gs).2.countP (·.1.complete)
  | _, [] => rfl
  | getsRequested, g :: gs => by
    by_cases hg : g.complete
    · simp only [requestGetters, hg, ↓reduceIte, List.countP_cons_of_pos hg]
      rw [countP_requestGetters getsRequested gs]
      omega
    · simp only [requestGetters, hg, Bool.false_eq_true, ↓reduceIte]
      split
      · simp [List.countP_cons, hg]
      · simp only [List.countP_cons, hg, Bool.false_eq_true, ↓reduceIte, countP_requestGetters]
        omega

theorem collectRows_ok_inv : ∀ {rows : List ρ} {completeCount : Nat} {results : List (ClusterGetter ρ × List ρ)}
    {rows' : List ρ} {completeCount' : Nat},
    collectRows toGet rows completeCount results = .ok (rows', completeCount') →
      rows' = rows ++ results.flatMap (·.2) ∧ completeCount' = completeCount + results.countP (·.1.complete)
  | _, _, [], _, _, h => by
    cases h
    simp
  | rows, completeCount, (getter, res) :: results, _, _, h => by
    rw [collectRows] at h
    split at h
    · cases h
    · obtain ⟨hRows, hCount⟩ := collectRows_ok_inv h
      refine ⟨by simp [hRows], ?_⟩
      rw [hCount, List.countP_cons]
      split <;> omega

theorem pendingOf_requestGetters_le (hToGet : 0 < toGet) : ∀ (getsRequested : Nat) (gs : List (ClusterGetter ρ)),
    pendingOf (requestGetters toGet totToGet getsRequested gs).1 ≤ pendingOf gs
  | _, [] => Nat.le_refl _
  | getsRequested, g :: gs => by
    by_cases hg : g.complete
    · simp only [requestGetters, hg, ↓reduceIte, pendingOf_cons]
      have := pendingOf_requestGetters_le hToGet getsRequested gs
      omega
    · have hCall := pending_GetRows_lt g hToGet
      simp only [requestGetters, hg, Bool.false_eq_true, ↓reduceIte]
      split
      · simp only [pendingOf_cons, hg, Bool.false_eq_true, ↓reduceIte]
        omega
      · simp only [pendingOf_cons, hg, Bool.false_eq_true, ↓reduceIte]
        have := pendingOf_requestGetters_le hToGet (getsRequested + toGet) gs
        omega

theorem pendingOf_requestGetters_lt (hToGet : 0 < toGet) : ∀ (getsRequested : Nat) (gs : List (ClusterGetter ρ)),
    0 < gs.countP (!·.complete) → pendingOf (requestGetters toGet totToGet getsRequested gs).1 < pendingOf gs
  | _, [], h => by simp at h
  | getsRequested, g :: gs, h => by
    by_cases hg : g.complete
    · have hRest : 0 < gs.countP (!·.complete) := by simpa [List.countP_cons, hg] using h
      have ih := pendingOf_requestGetters_lt hToGet getsRequested gs hRest
      simp only [requestGetters, hg, ↓reduceIte, pendingOf_cons]
      omega
    · have hCall := pending_GetRows_lt g hToGet
      simp only [requestGetters, hg, Bool.false_eq_true, ↓reduceIte]
      split
      · simp only [pendingOf_cons, hg, Bool.false_eq_true, ↓reduceIte]
        omega
      · simp only [pendingOf_cons, hg, Bool.false_eq_true, ↓reduceIte]
        have := pendingOf_requestGetters_le toGet totToGet hToGet (getsRequested + toGet) gs
        omega

theorem shardID_GetRows (g : ClusterGetter ρ) (n : Nat) : (g.GetRows n).1.shardID = g.shardID := rfl

theorem sound_requestGetters (hToGet : toGet < 2 ^ 32) : ∀ (getsRequested : Nat) (gs : List (ClusterGetter ρ)),
    (∀ g ∈ gs, g.Sound) → ∀ g ∈ (requestGetters toGet totToGet getsRequested gs).1, g.Sound
  | _, [], _ => by simp [requestGetters]
  | getsRequested, g :: gs, hSound => by
    have hTail : ∀ g' ∈ gs, g'.Sound := fun g' hg' => hSound g' (List.mem_cons_of_mem g hg')
    by_cases hg : g.complete
    · simp only [requestGetters, hg, ↓reduceIte]
      intro g' hg'
      rcases List.mem_cons.mp hg' with rfl | hg'
      · exact hSound _ List.mem_cons_self
      · exact sound_requestGetters hToGet getsRequested gs hTail g' hg'
    · simp only [requestGetters, hg, Bool.false_eq_true, ↓reduceIte]
      split
      · intro g' hg'
        rcases List.mem_cons.mp hg' with rfl | hg'
        · exact sound_GetRows g hToGet
        · exact hTail g' hg'
      · intro g' hg'
        rcases List.mem_cons.mp hg' with rfl | hg'
        · exact sound_GetRows g hToGet
        · exact sound_requestGetters hToGet (getsRequested + toGet) gs hTail g' hg'

theorem map_shardID_requestGetters : ∀ (getsRequested : Nat) (gs : List (ClusterGetter ρ)),
    (requestGetters toGet totToGet getsRequested gs).1.map (·.shardID) = gs.map (·.shardID)
  | _, [] => rfl
  | getsRequested, g :: gs => by
    by_cases hg : g.complete
    · simp only [requestGetters, hg, ↓reduceIte, List.map_cons, map_shardID_requestGetters getsRequested gs]
    · simp only [requestGetters, hg, Bool.false_eq_true, ↓reduceIte]
      split
      · rfl
      · simp only [List.map_cons, shardID_GetRows, map_shardID_requestGetters (getsRequested + toGet) gs]

theorem mem_requestGetters : ∀ (getsRequested : Nat) (gs : List (ClusterGetter ρ)),
    ∀ p ∈ (requestGetters toGet totToGet getsRequested gs).2, ∃ g ∈ gs, p = g.GetRows toGet
  | _, [] => by simp [requestGetters]
  | getsRequested, g :: gs => by
    by_cases hg : g.complete
    · simp only [requestGetters, hg, ↓reduceIte]
      intro p hp
      obtain ⟨g', hg', rfl⟩ := mem_requestGetters getsRequested gs p hp
      exact ⟨g', List.mem_cons_of_mem g hg', rfl⟩
    · simp only [requestGetters, hg, Bool.false_eq_true, ↓reduceIte]
      split
      · intro p hp
        rw [List.mem_singleton.mp hp]
        exact ⟨g, List.mem_cons_self, rfl⟩
      · intro p hp
        rcases List.mem_cons.mp hp with rfl | hp
        · exact ⟨g, List.mem_cons_self, rfl⟩
        · obtain ⟨g', hg', rfl⟩ := mem_requestGetters (getsRequested + toGet) gs p hp
          exact ⟨g', List.mem_cons_of_mem g hg', rfl⟩

theorem length_requestGetters_add_total : ∀ (getsRequested : Nat) (gs : List (ClusterGetter ρ)),
    ((requestGetters toGet totToGet getsRequested gs).2.flatMap (·.2)).length +
      total (requestGetters toGet totToGet getsRequested gs).1 = total gs
  | _, [] => rfl
  | getsRequested, g :: gs => by
    have hCall := congrArg List.length (GetRows_remaining g toGet)
    rw [List.length_append] at hCall
    by_cases hg : g.complete
    · simp only [requestGetters, hg, ↓reduceIte, total_cons]
      have := length_requestGetters_add_total getsRequested gs
      omega
    · simp only [requestGetters, hg, Bool.false_eq_true, ↓reduceIte]
      split
      · simp only [List.flatMap_cons, List.flatMap_nil, List.append_nil, total_cons]
        omega
      · simp only [List.flatMap_cons, List.length_append, total_cons]
        have := length_requestGetters_add_total (getsRequested + toGet) gs
        omega

theorem length_requestGetters_le : ∀ (getsRequested : Nat) (gs : List (ClusterGetter ρ)),
    getsRequested + toGet * gs.countP (!·.complete) ≤ totToGet ∨ (toGet = 1 ∧ getsRequested < totToGet) →
      getsRequested + ((requestGetters toGet totToGet getsRequested gs).2.flatMap (·.2)).length ≤ totToGet
  | _, [], h => by
    simp only [requestGetters, List.flatMap_nil, List.length_nil, List.countP_nil, Nat.mul_zero] at h ⊢
    omega
  | getsRequested, g :: gs, h => by
    have hLen := length_GetRows_le g toGet
    by_cases hg : g.complete
    · simp only [List.countP_cons, hg, Bool.not_true, Bool.false_eq_true, ↓reduceIte, Nat.add_zero] at h
      simp only [requestGetters, hg, ↓reduceIte]
      exact length_requestGetters_le getsRequested gs h
    · simp only [List.countP_cons, hg, Bool.not_false, ↓reduceIte, Nat.mul_add, Nat.mul_one] at h
      simp only [requestGetters, hg, Bool.false_eq_true, ↓reduceIte]
      split
      · simp only [List.flatMap_cons, List.flatMap_nil, List.append_nil]
        omega
      · rename_i hNe
        have hRest := length_requestGetters_le (getsRequested + toGet) gs (by omega)
        simp only [List.flatMap_cons, List.length_append]
        omega

theorem length_le_of_mem_requestGetters (getsRequested : Nat) (gs : List (ClusterGetter ρ)) :
    ∀ p ∈ (requestGetters toGet totToGet getsRequested gs).2, p.2.length ≤ toGet := by
  intro p hp
  obtain ⟨g, -, rfl⟩ := mem_requestGetters toGet totToGet getsRequested gs p hp
  exact length_GetRows_le g toGet

theorem collectRows_of_le : ∀ (rows : List ρ) (completeCount : Nat) (results : List (ClusterGetter ρ × List ρ)),
    (∀ p ∈ results, p.2.length ≤ toGet) →
      collectRows toGet rows completeCount results =
        .ok (rows ++ results.flatMap (·.2), completeCount + results.countP (·.1.complete))
  | rows, completeCount, [], _ => by simp [collectRows]
  | rows, completeCount, (getter, res) :: results, h => by
    rw [collectRows, if_neg (Nat.not_lt.mpr (h _ List.mem_cons_self)),
      collectRows_of_le _ _ results (fun p hp => h p (List.mem_cons_of_mem _ hp))]
    congr 2
    · simp
    · rw [List.countP_cons]
      split <;> omega

end Round

/-! ## Which shard each row came from -/

def fromShard (out : List ρ) (src : List Nat) (shardID : Nat) : List ρ :=
  ((out.zip src).filter fun p => p.2 == shardID).map Prod.fst

/-- `out` is what the getters gave up between `before` and `after`: each row
has a shard, and each shard's rows in order, followed by what it still has,
are what it had. -/
def Returned (out : List ρ) (before after : List (ClusterGetter ρ)) : Prop :=
  ∃ src : List Nat, src.length = out.length ∧
    List.Forall₂ (fun g g' => g'.shardID = g.shardID ∧ fromShard out src g.shardID ++ g'.remaining = g.remaining)
      before after

theorem fromShard_append {out₁ : List ρ} {src₁ : List Nat} (h : out₁.length = src₁.length) (out₂ : List ρ)
    (src₂ : List Nat) (shardID : Nat) :
    fromShard (out₁ ++ out₂) (src₁ ++ src₂) shardID = fromShard out₁ src₁ shardID ++ fromShard out₂ src₂ shardID := by
  simp [fromShard, List.zip_append h]

theorem fromShard_cons (x : ρ) (rows : List ρ) (s : Nat) (src : List Nat) (shardID : Nat) :
    fromShard (x :: rows) (s :: src) shardID =
      if s = shardID then x :: fromShard rows src shardID else fromShard rows src shardID := by
  by_cases hs : s = shardID <;> simp [fromShard, hs]

theorem fromShard_replicate (rows : List ρ) (s shardID : Nat) :
    fromShard rows (List.replicate rows.length s) shardID = if s = shardID then rows else [] := by
  induction rows with
  | nil => simp [fromShard]
  | cons x rows ih =>
    rw [List.length_cons, List.replicate_succ, fromShard_cons, ih]
    by_cases hs : s = shardID <;> simp [hs]

theorem returned_nil (gs : List (ClusterGetter ρ)) : Returned [] gs gs :=
  ⟨[], rfl, List.forall₂_same.mpr fun _ _ => ⟨rfl, rfl⟩⟩

theorem Returned.trans {out₁ out₂ : List ρ} {gs₀ gs₁ gs₂ : List (ClusterGetter ρ)}
    (h₁ : Returned out₁ gs₀ gs₁) (h₂ : Returned out₂ gs₁ gs₂) : Returned (out₁ ++ out₂) gs₀ gs₂ := by
  obtain ⟨src₁, hLen₁, hRel₁⟩ := h₁
  obtain ⟨src₂, hLen₂, hRel₂⟩ := h₂
  refine ⟨src₁ ++ src₂, by simp [hLen₁, hLen₂], ?_⟩
  induction hRel₁ generalizing gs₂ with
  | nil =>
    cases hRel₂
    exact List.Forall₂.nil
  | @cons g₀ g₁ gs₀ gs₁ hHead _ ih =>
    cases hRel₂ with
    | @cons _ g₂ _ gs₂ hHead₂ hTail₂ =>
      refine List.Forall₂.cons ⟨hHead₂.1.trans hHead.1, ?_⟩ (ih hTail₂)
      have hMiddle : fromShard out₂ src₂ g₀.shardID ++ g₂.remaining = g₁.remaining := by
        rw [← hHead.1]
        exact hHead₂.2
      rw [fromShard_append hLen₁.symm, List.append_assoc, hMiddle, hHead.2]

theorem fromShard_of_drained {out : List ρ} {src : List Nat} :
    ∀ {before after : List (ClusterGetter ρ)},
      List.Forall₂ (fun g g' => g'.shardID = g.shardID ∧ fromShard out src g.shardID ++ g'.remaining = g.remaining)
        before after → total after = 0 → ∀ g ∈ before, fromShard out src g.shardID = g.remaining
  | _, _, .nil, _ => fun _ h => absurd h List.not_mem_nil
  | _, _, .cons (a := g) (b := g') hHead hTail, hTotal => by
    rw [total_cons] at hTotal
    have hEmpty : g'.remaining = [] := List.eq_nil_of_length_eq_zero (by omega)
    intro g₀ hg₀
    rcases List.mem_cons.mp hg₀ with rfl | hg₀
    · rw [← hHead.2, hEmpty, List.append_nil]
    · exact fromShard_of_drained hTail (by omega) g₀ hg₀

theorem fromShard_flatMap (results : List (ClusterGetter ρ × List ρ)) (shardID : Nat) :
    fromShard (results.flatMap (·.2)) (results.flatMap fun p => List.replicate p.2.length p.1.shardID) shardID =
      (results.filter (·.1.shardID == shardID)).flatMap (·.2) := by
  induction results with
  | nil => rfl
  | cons p results ih =>
    rw [List.flatMap_cons, List.flatMap_cons, fromShard_append (by simp), fromShard_replicate, ih,
      List.filter_cons]
    by_cases hp : p.1.shardID = shardID <;> simp [hp]

theorem forall₂_requestGetters (toGet totToGet : Nat) : ∀ (getsRequested : Nat) (gs : List (ClusterGetter ρ)),
    (gs.map (·.shardID)).Nodup →
      List.Forall₂ (fun g g' => g'.shardID = g.shardID ∧
          ((requestGetters toGet totToGet getsRequested gs).2.filter (·.1.shardID == g.shardID)).flatMap (·.2) ++
            g'.remaining = g.remaining)
        gs (requestGetters toGet totToGet getsRequested gs).1
  | _, [], _ => List.Forall₂.nil
  | getsRequested, g :: gs, hIDs => by
    rw [List.map_cons] at hIDs
    obtain ⟨hNotMem, hIDsTail⟩ := List.nodup_cons.mp hIDs
    have hOthers : ∀ getsRequested', ((requestGetters toGet totToGet getsRequested' gs).2.filter
        (·.1.shardID == g.shardID)) = [] := by
      intro getsRequested'
      rw [List.filter_eq_nil_iff]
      intro p hp hEq
      obtain ⟨g', hg', rfl⟩ := mem_requestGetters toGet totToGet getsRequested' gs p hp
      exact hNotMem (List.mem_map.mpr ⟨g', hg', beq_iff_eq.mp hEq⟩)
    have hCalledHead : ((g.GetRows toGet).1.shardID == g.shardID) = true := beq_iff_eq.mpr rfl
    have hCalledOther : ∀ g' ∈ gs, ((g.GetRows toGet).1.shardID == g'.shardID) = false := by
      intro g' hg'
      refine beq_eq_false_iff_ne.mpr fun hEq => hNotMem ?_
      exact List.mem_map.mpr ⟨g', hg', hEq.symm⟩
    by_cases hg : g.complete
    · simp only [requestGetters, hg, ↓reduceIte]
      refine List.Forall₂.cons ⟨rfl, ?_⟩ (forall₂_requestGetters toGet totToGet getsRequested gs hIDsTail)
      rw [hOthers, List.flatMap_nil, List.nil_append]
    · simp only [requestGetters, hg, Bool.false_eq_true, ↓reduceIte]
      split
      · -- the round stops at `g`: only its rows are taken
        refine List.Forall₂.cons ⟨rfl, ?_⟩ (List.forall₂_same.mpr fun g' hg' => ⟨rfl, ?_⟩)
        · simp only [List.filter_singleton, hCalledHead, cond_true, List.flatMap_cons, List.flatMap_nil,
            List.append_nil]
          exact GetRows_remaining g toGet
        · simp only [List.filter_singleton, hCalledOther g' hg', cond_false, List.flatMap_nil,
            List.nil_append]
      · refine List.Forall₂.cons ⟨rfl, ?_⟩ ?_
        · simp only [List.filter_cons, hCalledHead, ↓reduceIte, hOthers, List.flatMap_cons,
            List.flatMap_nil, List.append_nil]
          exact GetRows_remaining g toGet
        · have ih := (List.forall₂_and_left _ _).mpr ⟨fun _ h => h,
            forall₂_requestGetters toGet totToGet (getsRequested + toGet) gs hIDsTail⟩
          refine ih.imp fun g' _ h => ⟨h.2.1, ?_⟩
          simp only [List.filter_cons, hCalledOther g' h.1, Bool.false_eq_true, ↓reduceIte]
          exact h.2.2

theorem returned_requestGetters (toGet totToGet getsRequested : Nat) (gs : List (ClusterGetter ρ))
    (hIDs : (gs.map (·.shardID)).Nodup) :
    Returned ((requestGetters toGet totToGet getsRequested gs).2.flatMap (·.2)) gs
      (requestGetters toGet totToGet getsRequested gs).1 := by
  refine ⟨(requestGetters toGet totToGet getsRequested gs).2.flatMap fun p => List.replicate p.2.length p.1.shardID,
    by simp [List.length_flatMap], ?_⟩
  refine (forall₂_requestGetters toGet totToGet getsRequested gs hIDs).imp fun {g g'} h => ⟨h.1, ?_⟩
  rw [fromShard_flatMap]
  exact h.2

/-! ## The loop -/

theorem countP_complete_add_countP_not (gs : List (ClusterGetter ρ)) :
    gs.countP ClusterGetter.complete + gs.countP (!·.complete) = gs.length := by
  induction gs with
  | nil => rfl
  | cons g gs ih =>
    simp only [List.countP_cons, List.length_cons]
    cases g.complete <;> simp <;> omega

theorem total_eq_zero_of_complete {gs : List (ClusterGetter ρ)} (hSound : ∀ g ∈ gs, g.Sound)
    (h : ∀ g ∈ gs, g.complete = true) : total gs = 0 := by
  induction gs with
  | nil => rfl
  | cons g gs ih =>
    rw [total_cons, hSound g List.mem_cons_self (h g List.mem_cons_self), List.length_nil,
      ih (fun g' hg' => hSound g' (List.mem_cons_of_mem g hg')) fun g' hg' => h g' (List.mem_cons_of_mem g hg')]

namespace RemoteExecutor

def Sound (e : RemoteExecutor ρ) : Prop := ∀ g ∈ e.clusterGetters, g.Sound

theorem countP_not_complete (e : RemoteExecutor ρ) :
    e.clusterGetters.countP (!·.complete) = e.clusterGetters.length - e.completeCount := by
  have h := countP_complete_add_countP_not e.clusterGetters
  rw [e.completeCount_eq]
  omega

theorem total_eq_zero (e : RemoteExecutor ρ) (hSound : e.Sound) (h : ¬e.completeCount < e.clusterGetters.length) :
    total e.clusterGetters = 0 := by
  have hNone := e.countP_not_complete
  refine total_eq_zero_of_complete hSound fun g hg => ?_
  have hZero : e.clusterGetters.countP (!·.complete) = 0 := by omega
  simpa using List.countP_eq_zero.mp hZero g hg

/-- The rows each getter not complete is asked for in a round:
`totToGet / (numGetters - completeCount)`, and at least one. -/
def toGetOf (e : RemoteExecutor ρ) (totToGet : Nat) : Nat :=
  let toGet := totToGet / (e.clusterGetters.length - e.completeCount)
  if toGet = 0 then 1 else toGet

/-- One pass of the loop of `GetRows`: the getters requested, then their rows
collected onto `rows`. -/
def round (e : RemoteExecutor ρ) (limit : Nat) (rows : List ρ) : Except RemoteError (RemoteExecutor ρ × List ρ) :=
  let totToGet := limit - rows.length
  let toGet := e.toGetOf totToGet
  let requested := requestGetters toGet totToGet 0 e.clusterGetters
  match hCollect : collectRows toGet rows e.completeCount requested.2 with
  | .error err => .error err
  | .ok (rows', completeCount') =>
    .ok (⟨requested.1, completeCount', by
      rw [(collectRows_ok_inv toGet hCollect).2, countP_requestGetters, e.completeCount_eq]⟩, rows')

theorem toGetOf_pos (e : RemoteExecutor ρ) (totToGet : Nat) : 0 < e.toGetOf totToGet := by
  unfold toGetOf
  dsimp only
  split
  · exact Nat.one_pos
  · exact Nat.pos_of_ne_zero ‹_›

theorem toGetOf_lt (e : RemoteExecutor ρ) {totToGet : Nat} (hTot : totToGet < 2 ^ 32) :
    e.toGetOf totToGet < 2 ^ 32 := by
  unfold toGetOf
  dsimp only
  split
  · exact Nat.one_lt_two_pow (by decide)
  · exact lt_of_le_of_lt (Nat.div_le_self _ _) hTot

theorem toGetOf_fits (e : RemoteExecutor ρ) {totToGet : Nat} (hTot : 0 < totToGet) :
    e.toGetOf totToGet * e.clusterGetters.countP (!·.complete) ≤ totToGet ∨
      (e.toGetOf totToGet = 1 ∧ 0 < totToGet) := by
  rw [countP_not_complete]
  unfold toGetOf
  dsimp only
  split
  · exact Or.inr ⟨rfl, hTot⟩
  · exact Or.inl (Nat.div_mul_le_self totToGet _)

theorem pendingOf_round_lt {e e' : RemoteExecutor ρ} {limit : Nat} {rows rows' : List ρ}
    (hLoop : e.completeCount < e.clusterGetters.length) (h : e.round limit rows = .ok (e', rows')) :
    pendingOf e'.clusterGetters < pendingOf e.clusterGetters := by
  unfold round at h
  dsimp only at h
  split at h
  · cases h
  · cases h
    refine pendingOf_requestGetters_lt _ _ (toGetOf_pos e _) 0 e.clusterGetters ?_
    rw [countP_not_complete]
    omega

theorem round_spec (e : RemoteExecutor ρ) (limit : Nat) (rows : List ρ)
    (hIDs : (e.clusterGetters.map (·.shardID)).Nodup) (hSound : e.Sound) (hLimit : limit < 2 ^ 32)
    (hRows : rows.length < limit) :
    ∃ e' out, e.round limit rows = .ok (e', rows ++ out) ∧ out.length ≤ limit - rows.length ∧
      out.length + total e'.clusterGetters = total e.clusterGetters ∧
      Returned out e.clusterGetters e'.clusterGetters ∧
      e'.clusterGetters.map (·.shardID) = e.clusterGetters.map (·.shardID) ∧ e'.Sound := by
  have hBound := length_requestGetters_le (e.toGetOf (limit - rows.length)) (limit - rows.length) 0
    e.clusterGetters (by rw [Nat.zero_add]; exact e.toGetOf_fits (by omega))
  unfold round
  dsimp only
  split
  · -- no getter returns more than it was asked for, so collecting cannot fail
    rename_i err hErr
    rw [collectRows_of_le _ _ _ _ (length_le_of_mem_requestGetters _ _ 0 _)] at hErr
    cases hErr
  · rename_i rows' completeCount' hOk
    obtain ⟨rfl, -⟩ := collectRows_ok_inv _ hOk
    refine ⟨_, _, rfl, by omega, length_requestGetters_add_total _ _ 0 _,
      returned_requestGetters _ _ 0 _ hIDs, map_shardID_requestGetters _ _ 0 _,
      sound_requestGetters _ _ (e.toGetOf_lt (by omega)) 0 _ hSound⟩

set_option linter.unusedVariables false in
/-- The loop of `RemoteExecutor.GetRows`: rounds until the rows reach the
limit or every getter is complete, with its two sanity checks. -/
def getRowsLoop (e : RemoteExecutor ρ) (limit : Nat) (rows : List ρ) :
    Except RemoteError (RemoteExecutor ρ × List ρ) :=
  if hLoop : e.completeCount < e.clusterGetters.length then
    match hRound : e.round limit rows with
    | .error err => .error err
    | .ok (e', rows') =>
      if rows'.length > limit then .error (.panic "too many total rows")
      else if rows'.length = limit then .ok (e', rows')
      else getRowsLoop e' limit rows'
  else .ok (e, rows)
termination_by pendingOf e.clusterGetters
decreasing_by exact pendingOf_round_lt hLoop hRound

/-- `RemoteExecutor.GetRows` on an executor with getters. -/
def GetRows (e : RemoteExecutor ρ) (limit : Int) : Except RemoteError (RemoteExecutor ρ × List ρ) :=
  if limit < 1 then .error (.invalidLimit limit) else e.getRowsLoop limit.toNat []

/-- `RemoteExecutor.createGetters`: one getter, not complete, for each shard,
given with the rows its query returns. -/
def createGetters (shards : List (Nat × List ρ)) : RemoteExecutor ρ :=
  ⟨shards.map fun s => ⟨s.1, s.2, false⟩, 0, by
    simp [Function.comp_def]⟩

theorem getRowsLoop_spec (e : RemoteExecutor ρ) (limit : Nat) (rows : List ρ)
    (hIDs : (e.clusterGetters.map (·.shardID)).Nodup) (hSound : e.Sound) (hLimit : limit < 2 ^ 32)
    (hRows : rows.length < limit) :
    ∃ e' out, e.getRowsLoop limit rows = .ok (e', rows ++ out) ∧
      out.length = min (limit - rows.length) (total e.clusterGetters) ∧
      out.length + total e'.clusterGetters = total e.clusterGetters ∧
      Returned out e.clusterGetters e'.clusterGetters ∧
      e'.clusterGetters.map (·.shardID) = e.clusterGetters.map (·.shardID) ∧ e'.Sound := by
  rw [getRowsLoop]
  split
  · rename_i hLoop
    obtain ⟨e₁, out₁, hRound, hLen₁, hTotal₁, hRet₁, hIDs₁, hSound₁⟩ :=
      e.round_spec limit rows hIDs hSound hLimit hRows
    split
    · rename_i hErr
      rw [hRound] at hErr
      cases hErr
    · rename_i e₁' rows₁ hOk
      rw [hRound] at hOk
      obtain ⟨rfl, rfl⟩ := Prod.mk.inj (Except.ok.inj hOk)
      rw [List.length_append]
      have hDone : ¬rows.length + out₁.length > limit := by omega
      rw [if_neg hDone]
      split
      · -- the limit is reached
        refine ⟨e₁, out₁, rfl, by omega, hTotal₁, hRet₁, hIDs₁, hSound₁⟩
      · -- fewer rows than the limit: the loop goes on from the round's executor
        have hMore : (rows ++ out₁).length < limit := by
          rw [List.length_append]
          omega
        have _ : pendingOf e₁.clusterGetters < pendingOf e.clusterGetters := pendingOf_round_lt hLoop hRound
        obtain ⟨e₂, out₂, hLoop₂, hLen₂, hTotal₂, hRet₂, hIDs₂, hSound₂⟩ :=
          e₁.getRowsLoop_spec limit (rows ++ out₁) (hIDs₁ ▸ hIDs) hSound₁ hLimit hMore
        refine ⟨e₂, out₁ ++ out₂, by rw [hLoop₂, List.append_assoc], ?_, ?_, hRet₁.trans hRet₂,
          hIDs₂.trans hIDs₁, hSound₂⟩
        · rw [List.length_append] at hLen₂ ⊢
          omega
        · rw [List.length_append]
          omega
  · rename_i hLoop
    refine ⟨e, [], by rw [List.append_nil], ?_, ?_, returned_nil _, rfl, hSound⟩
    · rw [e.total_eq_zero hSound hLoop, List.length_nil, Nat.min_zero]
    · rw [List.length_nil, Nat.zero_add]
termination_by pendingOf e.clusterGetters

theorem GetRows_spec (e : RemoteExecutor ρ) (limit : Int) (hIDs : (e.clusterGetters.map (·.shardID)).Nodup)
    (hSound : e.Sound) (hLimit : 1 ≤ limit) (hBelow : limit < 2 ^ 32) :
    ∃ e' rows, e.GetRows limit = .ok (e', rows) ∧ rows.length = min limit.toNat (total e.clusterGetters) ∧
      rows.length + total e'.clusterGetters = total e.clusterGetters ∧
      Returned rows e.clusterGetters e'.clusterGetters ∧
      e'.clusterGetters.map (·.shardID) = e.clusterGetters.map (·.shardID) ∧ e'.Sound := by
  obtain ⟨e', out, hLoop, hLen, hRest⟩ := e.getRowsLoop_spec limit.toNat [] hIDs hSound (by omega) (by simp; omega)
  refine ⟨e', out, ?_, by simpa using hLen, hRest⟩
  rw [GetRows, if_neg (by omega), hLoop, List.nil_append]

def runGetRows : RemoteExecutor ρ → List Int → Except RemoteError (RemoteExecutor ρ × List (List ρ))
  | e, [] => .ok (e, [])
  | e, limit :: limits =>
    match e.GetRows limit with
    | .error err => .error err
    | .ok (e', rows) =>
      match runGetRows e' limits with
      | .error err => .error err
      | .ok (e'', batches) => .ok (e'', rows :: batches)

theorem total_createGetters (shards : List (Nat × List ρ)) :
    total (createGetters shards).clusterGetters = (shards.map (·.2.length)).sum := by
  simp [createGetters, total, Function.comp_def]

theorem map_shardID_createGetters (shards : List (Nat × List ρ)) :
    (createGetters shards).clusterGetters.map (·.shardID) = shards.map Prod.fst := by
  simp [createGetters, Function.comp_def]

theorem sound_createGetters (shards : List (Nat × List ρ)) : (createGetters shards).Sound := by
  intro g hg hComplete
  obtain ⟨s, -, rfl⟩ := List.mem_map.mp hg
  cases hComplete

theorem runGetRows_spec : ∀ (e : RemoteExecutor ρ) (limits : List Int),
    (e.clusterGetters.map (·.shardID)).Nodup → e.Sound → (∀ l ∈ limits, 1 ≤ l ∧ l < 2 ^ 32) →
      ∃ e' batches, e.runGetRows limits = .ok (e', batches) ∧ batches.length = limits.length ∧
        Returned batches.flatten e.clusterGetters e'.clusterGetters ∧
        batches.flatten.length + total e'.clusterGetters = total e.clusterGetters ∧
        (total e.clusterGetters ≤ (limits.map Int.toNat).sum → total e'.clusterGetters = 0)
  | e, [], _, _, _ => ⟨e, [], rfl, rfl, returned_nil _, Nat.zero_add _, fun h => by simpa using h⟩
  | e, limit :: limits, hIDs, hSound, hLimits => by
    obtain ⟨hLow, hHigh⟩ := hLimits limit List.mem_cons_self
    obtain ⟨e₁, rows, hCall, hLen, hTotal, hRet, hIDs₁, hSound₁⟩ := e.GetRows_spec limit hIDs hSound hLow hHigh
    obtain ⟨e₂, batches, hRun, hCount, hRet₂, hTotal₂, hDrain⟩ :=
      runGetRows_spec e₁ limits (hIDs₁ ▸ hIDs) hSound₁ fun l hl => hLimits l (List.mem_cons_of_mem limit hl)
    refine ⟨e₂, rows :: batches, ?_, by rw [List.length_cons, hCount, List.length_cons],
      hRet.trans hRet₂, ?_, ?_⟩
    · rw [runGetRows, hCall]
      dsimp only
      rw [hRun]
    · rw [List.flatten_cons, List.length_append]
      omega
    · -- the first call takes the limit's worth, or everything
      intro hEnough
      rw [List.map_cons, List.sum_cons] at hEnough
      exact hDrain (by omega)

theorem GetRows_of_complete (e : RemoteExecutor ρ) (hAll : e.completeCount = e.clusterGetters.length)
    {limit : Int} (hLimit : 1 ≤ limit) : e.GetRows limit = .ok (e, []) := by
  rw [GetRows, if_neg (by omega), getRowsLoop, dif_neg (by omega)]

theorem GetRows_wraps_one_shard (shardID : Nat) (rows : List ρ) {limit : Nat} (hm : 0 < limit)
    (hWrap : limit % 2 ^ 32 = 0) :
    (createGetters [(shardID, rows)]).GetRows limit =
      .ok (⟨[⟨shardID, rows, true⟩], 1, rfl⟩, []) := by
  have hToGet : (createGetters [(shardID, rows)]).toGetOf limit = limit := by
    simp [toGetOf, createGetters, Nat.pos_iff_ne_zero.mp hm]
  have hCalled : (⟨shardID, rows, false⟩ : ClusterGetter ρ).GetRows limit = (⟨shardID, rows, true⟩, []) := by
    have hSent : limit % 4294967296 = 0 := hWrap
    simp [ClusterGetter.GetRows, hSent, hm]
  have hReq : requestGetters limit limit 0 (createGetters [(shardID, rows)]).clusterGetters =
      ([⟨shardID, rows, true⟩], [(⟨shardID, rows, true⟩, [])]) := by
    simp [createGetters, requestGetters, hCalled]
  have hRound : (createGetters [(shardID, rows)]).round limit [] = .ok (⟨[⟨shardID, rows, true⟩], 1, rfl⟩, []) := by
    unfold round
    dsimp only
    split
    · rename_i err hErr
      rw [List.length_nil, Nat.sub_zero, hToGet, hReq] at hErr
      simp [collectRows] at hErr
    · rename_i rows' completeCount' hOk
      rw [List.length_nil, Nat.sub_zero, hToGet, hReq] at hOk
      simp only [collectRows, List.length_nil, gt_iff_lt, Nat.not_lt_zero, ↓reduceIte, List.append_nil,
        Except.ok.injEq, Prod.mk.injEq] at hOk
      obtain ⟨rfl, rfl⟩ := hOk
      simp only [List.length_nil, Nat.sub_zero, hToGet, hReq]
      rfl
  rw [GetRows, if_neg (by omega), Int.toNat_natCast, getRowsLoop, dif_pos (by simp [createGetters])]
  split
  · rename_i hErr
    rw [hRound] at hErr
    cases hErr
  · rename_i e' rows' hOk
    rw [hRound] at hOk
    obtain ⟨rfl, rfl⟩ := Prod.mk.inj (Except.ok.inj hOk)
    rw [if_neg (by simp), if_neg (by simp; omega), getRowsLoop, dif_neg (by simp)]

theorem GetRows_fan_out_limit_wraps :
    (∀ (e : RemoteExecutor ρ) (limit : Int), (e.clusterGetters.map (·.shardID)).Nodup → e.Sound →
      1 ≤ limit → limit < 2 ^ 32 →
      ∃ e' rows, e.GetRows limit = .ok (e', rows) ∧ rows.length = min limit.toNat (total e.clusterGetters) ∧
        Returned rows e.clusterGetters e'.clusterGetters ∧
        e'.clusterGetters.map (·.shardID) = e.clusterGetters.map (·.shardID)) ∧
    (∀ (shards : List (Nat × List ρ)) (limits : List Int), (shards.map Prod.fst).Nodup →
      (∀ l ∈ limits, 1 ≤ l ∧ l < 2 ^ 32) →
      ∃ e' batches, (createGetters shards).runGetRows limits = .ok (e', batches) ∧
        Returned batches.flatten (createGetters shards).clusterGetters e'.clusterGetters ∧
        batches.flatten.length + total e'.clusterGetters = (shards.map (·.2.length)).sum ∧
        ((shards.map (·.2.length)).sum ≤ (limits.map Int.toNat).sum →
          batches.flatten.length = (shards.map (·.2.length)).sum ∧
          ∃ src : List Nat, src.length = batches.flatten.length ∧
            ∀ s ∈ shards, fromShard batches.flatten src s.1 = s.2)) ∧
    (∀ (shardID : Nat) (rows : List ρ) (limit : Nat), 0 < limit → limit % 2 ^ 32 = 0 →
      ∃ e', (createGetters [(shardID, rows)]).GetRows limit = .ok (e', []) ∧
        e'.clusterGetters.map (·.remaining) = [rows] ∧
        ∀ limit' : Int, 1 ≤ limit' → e'.GetRows limit' = .ok (e', [])) := by
  refine ⟨fun e limit hIDs hSound hLimit hBelow => ?_, fun shards limits hIDs hLimits => ?_,
    fun shardID rows limit hm hWrap => ?_⟩
  · obtain ⟨e', rows, hCall, hLen, -, hRet, hIDs', -⟩ := e.GetRows_spec limit hIDs hSound hLimit hBelow
    exact ⟨e', rows, hCall, hLen, hRet, hIDs'⟩
  · have hIDs₀ : ((createGetters shards).clusterGetters.map (·.shardID)).Nodup := by
      rw [map_shardID_createGetters]
      exact hIDs
    obtain ⟨e', batches, hRun, -, hRet, hTotal, hDrain⟩ :=
      runGetRows_spec _ limits hIDs₀ (sound_createGetters shards) hLimits
    rw [total_createGetters] at hTotal hDrain
    refine ⟨e', batches, hRun, hRet, hTotal, fun hEnough => ?_⟩
    have hZero := hDrain hEnough
    obtain ⟨src, hLen, hRel⟩ := hRet
    refine ⟨by omega, src, hLen, fun s hs => ?_⟩
    -- the getter of shard `s` has given up all of its rows
    exact fromShard_of_drained hRel hZero ⟨s.1, s.2, false⟩ (List.mem_map_of_mem hs)
  · -- the getter is complete with every row of its shard still there, and is never called again
    exact ⟨_, GetRows_wraps_one_shard shardID rows hm hWrap, rfl,
      fun limit' hLimit' => GetRows_of_complete _ rfl hLimit'⟩

theorem GetRows_fan_out_limit_wraps_five_rows :
    (∃ e' rows, (createGetters [((0 : Nat), [1, 2, 3]), (1, [4])]).GetRows 2 = .ok (e', rows) ∧
      rows.length = 2) ∧
    ∃ e', (createGetters [((0 : Nat), [1, 2, 3, 4, 5])]).GetRows 4294967296 = .ok (e', []) ∧
      e'.clusterGetters.map (·.remaining) = [[1, 2, 3, 4, 5]] := by
  constructor
  · obtain ⟨e', rows, hCall, hLen, -⟩ :=
      GetRows_fan_out_limit_wraps.1 (createGetters [((0 : Nat), [1, 2, 3]), (1, [4])]) 2 (by decide)
        (sound_createGetters _) (by decide) (by decide)
    exact ⟨e', rows, hCall, by rw [hLen]; decide⟩
  · obtain ⟨e', hCall, hRemaining, -⟩ :=
      GetRows_fan_out_limit_wraps.2.2 (0 : Nat) [1, 2, 3, 4, 5] 4294967296 (by decide) (by decide)
    exact ⟨e', hCall, hRemaining⟩

end RemoteExecutor

end PranaDB
