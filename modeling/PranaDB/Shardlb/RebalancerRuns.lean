import PranaDB.Shardlb.Rebalancer
import PranaDB.Lib.ExceptRun

/-! # The rebalancer's bookkeeping over whole runs

A valid cluster (`Cluster.Valid`) has its partitions' node counts equal to the
length of its node totals, leaders that are replicas, and each node total equal
to the sum of that node's positive scores. Every swap that passes its checks
keeps that, and moves a partition's scores without changing them or the nodes
without a replica (`Keeps`). A swap is undone by the swap back, so the log of
swaps a simulation keeps is undone last first, and replayed first first.
-/

namespace PranaDB
namespace Shardlb
set_option autoImplicit false

open UndoLog

theorem ext_getD_zero {l₁ l₂ : List Int} (hLen : l₁.length = l₂.length)
    (h : ∀ i, l₁.getD i 0 = l₂.getD i 0) : l₁ = l₂ := by
  apply List.ext_getElem hLen
  intro i h₁ h₂
  have hi := h i
  simpa only [List.getD_eq_getElem?_getD, List.getElem?_eq_getElem h₁, List.getElem?_eq_getElem h₂,
    Option.getD_some] using hi

namespace Partition

theorem Rearranged.refl (p : Partition) : Rearranged p p :=
  ⟨List.Perm.refl _, fun _ => Iff.rfl⟩

theorem Rearranged.trans {p q r : Partition} (hpq : Rearranged p q) (hqr : Rearranged q r) :
    Rearranged p r :=
  ⟨hqr.perm.trans hpq.perm, fun i => (hqr.nonReplicas i).trans (hpq.nonReplicas i)⟩

variable {p : Partition} {newLeaderIndex : Int}

def swappedTo (p : Partition) (newLeaderIndex : Int) : Partition :=
  ⟨p.replicaScores.swap p.leaderIndex.toNat newLeaderIndex.toNat, newLeaderIndex⟩

@[simp] theorem swappedTo_leaderIndex : (p.swappedTo newLeaderIndex).leaderIndex = newLeaderIndex :=
  rfl

section Swap

variable (hLeader : p.LeaderIsReplica) (hNew : 0 ≤ newLeaderIndex ∧ newLeaderIndex < p.Nodes)
  (hScore : 0 ≤ scoreAt p.replicaScores newLeaderIndex)

include hLeader hNew in
theorem getD_swappedTo (i : Nat) :
    (p.swappedTo newLeaderIndex).replicaScores.getD i 0 =
      if i = p.leaderIndex.toNat then scoreAt p.replicaScores newLeaderIndex
      else if i = newLeaderIndex.toNat then scoreAt p.replicaScores p.leaderIndex
      else p.replicaScores.getD i 0 := by
  have hL : p.leaderIndex.toNat < p.replicaScores.length := by
    have := hLeader.2.1
    have := hLeader.1
    unfold Nodes at *
    omega
  have hN : newLeaderIndex.toNat < p.replicaScores.length := by
    have := hNew.2
    unfold Nodes at this
    omega
  exact getD_swap hL hN i 0

include hLeader hNew hScore in
theorem rearranged_swappedTo : Rearranged p (p.swappedTo newLeaderIndex) := by
  refine ⟨List.swap_perm _ _ _, fun i => ?_⟩
  rw [getD_swappedTo hLeader hNew i]
  have hOld := hLeader.2.2
  unfold scoreAt at hScore hOld ⊢
  split_ifs with hiL hiN
  · subst hiL
    omega
  · subst hiN
    omega
  · rfl

include hLeader hNew hScore in
theorem max_getD_swappedTo (i : Nat) :
    max ((p.swappedTo newLeaderIndex).replicaScores.getD i 0) 0 = max (p.replicaScores.getD i 0) 0 +
      (if i = p.leaderIndex.toNat then scoreAt p.replicaScores newLeaderIndex - scoreAt p.replicaScores p.leaderIndex
        else 0) +
      (if i = newLeaderIndex.toNat then -scoreAt p.replicaScores newLeaderIndex + scoreAt p.replicaScores p.leaderIndex
        else 0) := by
  rw [getD_swappedTo hLeader hNew]
  have hOld := hLeader.2.2
  unfold scoreAt at hScore hOld ⊢
  by_cases hiL : i = p.leaderIndex.toNat
  · subst hiL
    by_cases hiN : p.leaderIndex.toNat = newLeaderIndex.toNat
    · -- the leader swapped with itself: the two moves cancel
      rw [← hiN] at hScore ⊢
      simp only [if_true]
      omega
    · simp only [if_true, if_neg hiN]
      omega
  · by_cases hiN : i = newLeaderIndex.toNat
    · subst hiN
      simp only [if_neg hiL, if_true]
      omega
    · simp only [if_neg hiL, if_neg hiN]
      omega

include hLeader hNew in
theorem scoreAt_swappedTo_old :
    scoreAt (p.swappedTo newLeaderIndex).replicaScores p.leaderIndex = scoreAt p.replicaScores newLeaderIndex := by
  unfold scoreAt
  rw [getD_swappedTo hLeader hNew, if_pos rfl]
  rfl

include hLeader hNew in
theorem scoreAt_swappedTo_new :
    scoreAt (p.swappedTo newLeaderIndex).replicaScores newLeaderIndex = scoreAt p.replicaScores p.leaderIndex := by
  unfold scoreAt
  rw [getD_swappedTo hLeader hNew]
  split_ifs with hNL
  · -- the leader swapped with itself
    unfold scoreAt
    rw [hNL]
  · rfl
  · exact absurd rfl ‹_›

include hLeader hNew in
theorem leaderIsReplica_swappedTo : (p.swappedTo newLeaderIndex).LeaderIsReplica := by
  have hOld := hLeader.2.2
  refine ⟨hNew.1, ?_, ?_⟩
  · simpa [swappedTo, Nodes] using hNew.2
  · -- the new leader holds the old leader's score
    show 0 ≤ scoreAt (p.swappedTo newLeaderIndex).replicaScores newLeaderIndex
    rw [scoreAt_swappedTo_new hLeader hNew]
    exact hOld

@[simp] theorem swappedTo_swappedTo : (p.swappedTo newLeaderIndex).swappedTo p.leaderIndex = p := by
  simp [swappedTo]

@[simp] theorem swappedTo_self : p.swappedTo p.leaderIndex = p := by
  simp [swappedTo]

end Swap

end Partition

namespace Cluster

/-- The bookkeeping of a cluster that `NewCluster` built from partitions whose
leaders are replicas. -/
structure Valid (c : Cluster) : Prop where
  nonempty : c.partitions ≠ []
  nodes : ∀ p ∈ c.partitions, p.replicaScores.length = c.perNodeScores.length
  leaders : ∀ p ∈ c.partitions, p.LeaderIsReplica
  scores : ∀ i, c.perNodeScores.getD i 0 = (c.partitions.map fun p => max (p.replicaScores.getD i 0) 0).sum

/-- A valid cluster whose partitions are those of `start` with their leaders moved. -/
structure Keeps (start c : Cluster) : Prop where
  valid : c.Valid
  rearranged : List.Forall₂ Partition.Rearranged start.partitions c.partitions

variable {c : Cluster} {partitionIndex : Nat} {p : Partition} {newLeaderIndex : Int}

@[simp] theorem swapped_partitions :
    (c.swapped partitionIndex p newLeaderIndex).partitions = c.partitions.set partitionIndex (p.swappedTo newLeaderIndex) :=
  rfl

@[simp] theorem length_swapped_perNodeScores :
    (c.swapped partitionIndex p newLeaderIndex).perNodeScores.length = c.perNodeScores.length := by
  simp [swapped]

theorem getD_swapped_perNodeScores (hL : p.leaderIndex.toNat < c.perNodeScores.length)
    (hN : newLeaderIndex.toNat < c.perNodeScores.length) (i : Nat) :
    (c.swapped partitionIndex p newLeaderIndex).perNodeScores.getD i 0 = c.perNodeScores.getD i 0 +
      (if i = p.leaderIndex.toNat then scoreAt p.replicaScores newLeaderIndex - scoreAt p.replicaScores p.leaderIndex
        else 0) +
      (if i = newLeaderIndex.toNat then -scoreAt p.replicaScores newLeaderIndex + scoreAt p.replicaScores p.leaderIndex
        else 0) := by
  unfold swapped
  dsimp only
  rw [getD_modify_add (by simpa using hN), getD_modify_add hL]

theorem Valid.index_lt (h : c.Valid) (hp : p ∈ c.partitions) {i : Int} (hi : 0 ≤ i ∧ i < p.Nodes) :
    i.toNat < c.perNodeScores.length := by
  have hLen := h.nodes p hp
  have := hi.2
  unfold Partition.Nodes at this
  omega

theorem Valid.swapped (h : c.Valid) (hp : c.partitions[partitionIndex]? = some p)
    (hNew : 0 ≤ newLeaderIndex ∧ newLeaderIndex < p.Nodes) (hScore : 0 ≤ scoreAt p.replicaScores newLeaderIndex) :
    (c.swapped partitionIndex p newLeaderIndex).Valid := by
  have hMem := List.mem_of_getElem? hp
  have hLeader := h.leaders p hMem
  have hL := h.index_lt hMem ⟨hLeader.1, hLeader.2.1⟩
  have hN := h.index_lt hMem hNew
  have hParts : ∀ q ∈ (c.swapped partitionIndex p newLeaderIndex).partitions,
      q ∈ c.partitions ∨ q = p.swappedTo newLeaderIndex :=
    fun q hq => List.mem_or_eq_of_mem_set hq
  refine ⟨?_, ?_, ?_, ?_⟩
  · simpa [List.set_eq_nil_iff] using h.nonempty
  · intro q hq
    rw [length_swapped_perNodeScores]
    rcases hParts q hq with hq | rfl
    · exact h.nodes q hq
    · simpa [Partition.swappedTo] using h.nodes p hMem
  · intro q hq
    rcases hParts q hq with hq | rfl
    · exact h.leaders q hq
    · exact Partition.leaderIsReplica_swappedTo hLeader hNew
  · intro i
    rw [swapped_partitions, sum_map_set _ _ _ _ _ hp, ← h.scores i, getD_swapped_perNodeScores hL hN,
      Partition.max_getD_swappedTo hLeader hNew hScore]
    omega

theorem Keeps.swapped {start : Cluster} (h : Keeps start c) (hp : c.partitions[partitionIndex]? = some p)
    (hNew : 0 ≤ newLeaderIndex ∧ newLeaderIndex < p.Nodes) (hScore : 0 ≤ scoreAt p.replicaScores newLeaderIndex) :
    Keeps start (c.swapped partitionIndex p newLeaderIndex) := by
  have hLeader := h.valid.leaders p (List.mem_of_getElem? hp)
  refine ⟨h.valid.swapped hp hNew hScore, forall₂_set h.rearranged hp fun q hq => ?_⟩
  exact hq.trans (Partition.rearranged_swappedTo hLeader hNew hScore)

theorem set_of_getElem? {α : Type} {l : List α} {n : Nat} {a : α} (h : l[n]? = some a) : l.set n a = l := by
  obtain ⟨hLt, rfl⟩ := List.getElem?_eq_some_iff.mp h
  exact List.set_getElem_self hLt

theorem swapped_swappedTo (h : c.Valid) (hp : c.partitions[partitionIndex]? = some p)
    (hNew : 0 ≤ newLeaderIndex ∧ newLeaderIndex < p.Nodes) :
    (c.swapped partitionIndex p newLeaderIndex).swapped partitionIndex (p.swappedTo newLeaderIndex) p.leaderIndex =
      c := by
  have hMem := List.mem_of_getElem? hp
  have hLeader := h.leaders p hMem
  have hL := h.index_lt hMem ⟨hLeader.1, hLeader.2.1⟩
  have hN := h.index_lt hMem hNew
  have hPns : ((c.swapped partitionIndex p newLeaderIndex).swapped partitionIndex (p.swappedTo newLeaderIndex)
      p.leaderIndex).perNodeScores = c.perNodeScores := by
    apply ext_getD_zero (by simp)
    intro i
    rw [getD_swapped_perNodeScores (by simpa [Partition.swappedTo] using hN) (by simpa using hL),
      getD_swapped_perNodeScores hL hN]
    simp only [Partition.swappedTo_leaderIndex, Partition.scoreAt_swappedTo_old hLeader hNew,
      Partition.scoreAt_swappedTo_new hLeader hNew]
    split_ifs <;> omega
  apply Cluster.ext _ hPns
  rw [swapped_partitions, swapped_partitions, List.set_set, Partition.swappedTo_swappedTo]
  exact set_of_getElem? hp

theorem swapped_self (h : c.Valid) (hp : c.partitions[partitionIndex]? = some p) :
    c.swapped partitionIndex p p.leaderIndex = c := by
  have hMem := List.mem_of_getElem? hp
  have hLeader := h.leaders p hMem
  have hL := h.index_lt hMem ⟨hLeader.1, hLeader.2.1⟩
  have hPns : (c.swapped partitionIndex p p.leaderIndex).perNodeScores = c.perNodeScores := by
    apply ext_getD_zero (by simp)
    intro i
    rw [getD_swapped_perNodeScores hL hL]
    split_ifs <;> omega
  apply Cluster.ext _ hPns
  rw [swapped_partitions, Partition.swappedTo_self]
  exact set_of_getElem? hp

theorem SwapLeader_self {partitionIndex : Int} (h : c.Valid) (hp : c.partitions[partitionIndex.toNat]? = some p)
    (hpi : 0 ≤ partitionIndex) :
    c.SwapLeader partitionIndex p.leaderIndex = (.ok ⟨partitionIndex, p.leaderIndex, p.leaderIndex⟩, c) := by
  have hLeader := h.leaders p (List.mem_of_getElem? hp)
  rw [SwapLeader_eq_swapped hp hpi ⟨hLeader.1, hLeader.2.1⟩ hLeader.2.2, swapped_self h hp]

theorem Undo_swapped {partitionIndex : Int} (h : c.Valid) (hp : c.partitions[partitionIndex.toNat]? = some p)
    (hpi : 0 ≤ partitionIndex) (hNew : 0 ≤ newLeaderIndex ∧ newLeaderIndex < p.Nodes)
    (hScore : 0 ≤ scoreAt p.replicaScores newLeaderIndex) :
    (c.swapped partitionIndex.toNat p newLeaderIndex).Undo ⟨partitionIndex, p.leaderIndex, newLeaderIndex⟩ =
      (.ok (), c) := by
  have hLeader := h.leaders p (List.mem_of_getElem? hp)
  have hLt := (List.getElem?_eq_some_iff.mp hp).1
  have hp' : (c.swapped partitionIndex.toNat p newLeaderIndex).partitions[partitionIndex.toNat]? =
      some (p.swappedTo newLeaderIndex) := by
    rw [swapped_partitions]
    exact List.getElem?_set_self hLt
  have hBack : 0 ≤ p.leaderIndex ∧ p.leaderIndex < (p.swappedTo newLeaderIndex).Nodes :=
    ⟨hLeader.1, by simpa [Partition.swappedTo, Partition.Nodes] using hLeader.2.1⟩
  have hBackScore : 0 ≤ scoreAt (p.swappedTo newLeaderIndex).replicaScores p.leaderIndex := by
    rw [Partition.scoreAt_swappedTo_old hLeader hNew]
    exact hScore
  simp only [Undo]
  rw [SwapLeader_eq_swapped hp' hpi hBack hBackScore, swapped_swappedTo h hp hNew]
  rfl

theorem Keeps.SwapLeader {start : Cluster} (h : Keeps start c) (partitionIndex newLeaderIndex : Int) :
    Keeps start (c.SwapLeader partitionIndex newLeaderIndex).2 := by
  rcases SwapLeader_cases c partitionIndex newLeaderIndex with ⟨-, hc⟩ | ⟨p, hp, -, hNew, hScore, hEq⟩
  · rw [hc]
    exact h
  · rw [hEq]
    exact h.swapped hp hNew hScore

/-- `swap` was applied to the valid cluster `x` and gave `y`: a step of the log
of swaps a simulation keeps. -/
def Applied (x : Cluster) (swap : Swap) (y : Cluster) : Prop :=
  x.Valid ∧ x.SwapLeader swap.PartitionIndex swap.NewLeaderIndex = (.ok swap, y)

def Undone (y : Cluster) (swap : Swap) (x : Cluster) : Prop :=
  y.Undo swap = (.ok (), x)

theorem Applied.undone {x y : Cluster} {swap : Swap} (h : Applied x swap y) : Undone y swap x := by
  obtain ⟨partitionIndex, oldLeaderIndex, newLeaderIndex⟩ := swap
  obtain ⟨hValid, hEq⟩ := h
  rcases SwapLeader_cases x partitionIndex newLeaderIndex with ⟨⟨e, he⟩, -⟩ | ⟨p, hp, hpi, hNew, hScore, hEq'⟩
  · rw [hEq] at he
    cases he
  · -- the swap is the one `SwapLeader` returned, and `y` its result
    rw [hEq'] at hEq
    simp only [Prod.mk.injEq, Except.ok.injEq, Swap.mk.injEq, true_and, and_true] at hEq
    obtain ⟨rfl, rfl⟩ := hEq
    exact Undo_swapped hValid hp hpi hNew hScore

theorem Applied.keeps {start x y : Cluster} {swap : Swap} (hx : Keeps start x) (h : Applied x swap y) :
    Keeps start y := by
  have hKeeps := hx.SwapLeader swap.PartitionIndex swap.NewLeaderIndex
  rwa [h.2] at hKeeps

theorem keeps_of_trace {start x y : Cluster} {swaps : List Swap} (h : Trace Applied x swaps y) (hx : Keeps start x) :
    Keeps start y :=
  h.invariant (Keeps start) (fun _ _ _ hKeeps hStep => hStep.keeps hKeeps) hx

theorem undoLoop_of_trace {x y : Cluster} {swaps : List Swap} (h : Trace Undone y swaps x) :
    y.undoLoop swaps = (.ok (), x) := by
  induction h with
  | nil => rfl
  | cons hStep _ ih =>
    have hUndo : _ = _ := hStep
    simp only [undoLoop, hUndo]
    exact ih

theorem UndoSwaps_of_trace {x y : Cluster} {swaps : List Swap} (h : Trace Applied x swaps y) :
    y.UndoSwaps swaps = (.ok (), x) :=
  undoLoop_of_trace (h.reverse_of_inverse fun _ _ _ hStep => hStep.undone)

theorem applySwaps_of_trace {x y : Cluster} {swaps : List Swap} (h : Trace Applied x swaps y) :
    x.applySwaps swaps = y :=
  h.foldl_eq _ fun _ _ _ hStep => by rw [hStep.2]

section Random

variable {σ : Type}

theorem exists_cons_partitions (h : c.Valid) : ∃ p ps, c.partitions = p :: ps :=
  List.exists_cons_of_ne_nil h.nonempty

theorem SwapRandom_applied (h : c.Valid) (randSrc : RandSource σ) (s : σ) (excluded : List Int) :
    Applied c (c.SwapRandom randSrc s excluded).1 (c.SwapRandom randSrc s excluded).2.1 := by
  obtain ⟨p₀, ps, hc⟩ := exists_cons_partitions h
  have hNo : Applied c ⟨0, p₀.leaderIndex, p₀.leaderIndex⟩ c :=
    ⟨h, SwapLeader_self h (by simp [hc]) (Int.le_refl 0)⟩
  have hPick := reservoirPick_picked randSrc (fun i => !decide ((i : Int) ∈ excluded)) c.partitions.length s
  rcases hR : c.randomPartitionIndex randSrc s excluded with ⟨partitionIndex, s₁⟩
  rw [randomPartitionIndex] at hR
  rw [hR] at hPick
  simp only [SwapRandom, hc, randomPartitionIndex]
  rw [← hc, hR]
  dsimp only
  split
  · exact hNo
  · rcases hPick with hNeg | ⟨i, hi, -, rfl⟩
    · omega
    obtain ⟨q, hq⟩ : ∃ q, c.partitions[i]? = some q := ⟨_, List.getElem?_eq_getElem hi⟩
    have hqD : c.partitions.getD (i : Int).toNat ⟨[], 0⟩ = q := by
      simp [List.getD_eq_getElem?_getD, hq]
    rw [hqD]
    have hFollow := reservoirPick_picked randSrc q.isFollower q.replicaScores.length s₁
    rcases hF : q.RandomFollowerIndex randSrc s₁ with ⟨newLeaderIndex, s₂⟩
    rw [Partition.RandomFollowerIndex] at hF
    rw [hF] at hFollow
    dsimp only
    split
    · exact hNo
    · rcases hFollow with hNeg | ⟨j, hj, hjFollow, rfl⟩
      · omega
      have hScore : 0 ≤ scoreAt q.replicaScores (j : Int) := by
        simp only [Partition.isFollower, Bool.not_eq_true', Bool.or_eq_false_iff, decide_eq_false_iff_not] at hjFollow
        unfold scoreAt
        simpa using hjFollow.1
      have hEq := @SwapLeader_eq_swapped c (i : Int) (j : Int) q
        (by simpa using hq) (by omega) ⟨by omega, by simpa [Partition.Nodes] using hj⟩ hScore
      rw [hEq]
      exact ⟨h, hEq⟩

theorem annealTry_trace {start c : Cluster} (hKeeps : Keeps start c) (randSrc : RandSource σ)
    (config : saConfig) (temperature : Float) :
    ∀ (n : Nat) (st : saState σ), Trace Applied c st.swaps st.cluster →
      Trace Applied c (annealTry randSrc config temperature n st).swaps
        (annealTry randSrc config temperature n st).cluster
  | 0, _, h => h
  | n + 1, st, h => by
    have hA := SwapRandom_applied (keeps_of_trace h hKeeps).valid randSrc st.rand st.excludedPartitions
    rcases hR : st.cluster.SwapRandom randSrc st.rand st.excludedPartitions with ⟨swap, y, s⟩
    rw [hR] at hA
    have hBack : (y.Undo swap).2 = st.cluster := by rw [hA.undone]
    have hKept : Trace Applied c (st.swaps ++ [swap]) y := h.snoc hA
    have hUndone : ∀ s' : σ, Trace Applied c
        (annealTry randSrc config temperature n { st with cluster := (y.Undo swap).2, rand := s' }).swaps
        (annealTry randSrc config temperature n { st with cluster := (y.Undo swap).2, rand := s' }).cluster := by
      intro s'
      apply annealTry_trace hKeeps randSrc config temperature n
      rw [hBack]
      exact h
    simp only [annealTry, hR]
    split <;> split
    · exact hKept
    · exact hUndone _
    · exact hKept
    · exact hUndone _

theorem annealLoop_trace {start c : Cluster} (hKeeps : Keeps start c) (randSrc : RandSource σ)
    (config : saConfig) :
    ∀ (n : Nat) (acc : Float × saState σ), Trace Applied c acc.2.swaps acc.2.cluster →
      Trace Applied c (annealLoop randSrc config n acc).2.swaps (annealLoop randSrc config n acc).2.cluster
  | 0, _, h => h
  | n + 1, (_, st), h =>
    annealLoop_trace hKeeps randSrc config n _ (annealTry_trace hKeeps randSrc config _ _ st h)

theorem SimulatedAnnealing_trace {start c : Cluster} (hKeeps : Keeps start c) (randSrc : RandSource σ) (s : σ)
    (options : List SAOption) :
    Trace Applied c (c.SimulatedAnnealing randSrc s options).1 (c.SimulatedAnnealing randSrc s options).2.1 :=
  annealLoop_trace hKeeps randSrc _ _ _ (.nil c)

/-- The simulations `Rebalance` runs: each from `c`, the random source going on
from one to the next. -/
def simulationsFrom (c : Cluster) (randSrc : RandSource σ) (options : List SAOption) :
    Nat → σ → List (List Swap × Cluster × σ)
  | 0, _ => []
  | n + 1, s =>
    let sim := c.SimulatedAnnealing randSrc s options
    sim :: c.simulationsFrom randSrc options n sim.2.2

/-- The choice of `Rebalance` between the best so far and a simulation: a lower
score, or the same score with fewer swaps. -/
def preferSimulation (best : Float × List Swap) (sim : List Swap × Cluster × σ) : Float × List Swap :=
  if sim.2.1.Score < best.1 then (sim.2.1.Score, sim.1)
  else if sim.2.1.Score == best.1 && sim.1.length < best.2.length then (sim.2.1.Score, sim.1)
  else best

/-- What `Rebalance` is for: the best of `n` simulations from `c` with its
score, or no swaps when none is preferred to `c` as it is. -/
def bestSimulation (c : Cluster) (randSrc : RandSource σ) (options : List SAOption) (n : Nat) (s : σ) :
    Float × List Swap :=
  (c.simulationsFrom randSrc options n s).foldl preferSimulation (c.Score, [])

theorem rebalanceLoop_eq {start c : Cluster} (hKeeps : Keeps start c) (randSrc : RandSource σ)
    (options : List SAOption) :
    ∀ (n : Nat) (s : σ) (best : Float × List Swap),
      rebalanceLoop randSrc options n ⟨c, s, best.1, best.2⟩ =
        ⟨c, (c.simulationsFrom randSrc options n s).foldl (fun _ sim => sim.2.2) s,
          ((c.simulationsFrom randSrc options n s).foldl preferSimulation best).1,
          ((c.simulationsFrom randSrc options n s).foldl preferSimulation best).2⟩
  | 0, _, _ => rfl
  | n + 1, s, best => by
    have hTrace := SimulatedAnnealing_trace hKeeps randSrc s options
    rcases hSA : c.SimulatedAnnealing randSrc s options with ⟨swaps, c₁, s₁⟩
    rw [hSA] at hTrace
    have hUndo : (c₁.UndoSwaps swaps).2 = c := by rw [UndoSwaps_of_trace hTrace]
    have hStep : rebalanceLoop randSrc options (n + 1) ⟨c, s, best.1, best.2⟩ =
        rebalanceLoop randSrc options n
          ⟨c, s₁, (preferSimulation best (swaps, c₁, s₁)).1, (preferSimulation best (swaps, c₁, s₁)).2⟩ := by
      simp only [rebalanceLoop, hSA, hUndo, preferSimulation]
    rw [hStep, rebalanceLoop_eq hKeeps randSrc options n s₁]
    simp only [simulationsFrom, hSA, List.foldl_cons]

theorem mem_simulationsFrom {c : Cluster} {randSrc : RandSource σ} {options : List SAOption} :
    ∀ {n : Nat} {s : σ} {sim : List Swap × Cluster × σ}, sim ∈ c.simulationsFrom randSrc options n s →
      ∃ s₀, c.SimulatedAnnealing randSrc s₀ options = sim
  | 0, _, _, h => absurd h List.not_mem_nil
  | _ + 1, s, _, h => by
    rcases List.mem_cons.mp h with rfl | h
    · exact ⟨s, rfl⟩
    · exact mem_simulationsFrom h

theorem foldl_preferSimulation :
    ∀ (sims : List (List Swap × Cluster × σ)) (best : Float × List Swap),
      sims.foldl preferSimulation best = best ∨
        ∃ sim ∈ sims, sims.foldl preferSimulation best = (sim.2.1.Score, sim.1)
  | [], _ => .inl rfl
  | sim :: sims, best => by
    rw [List.foldl_cons]
    rcases foldl_preferSimulation sims (preferSimulation best sim) with h | ⟨sim', hMem, h⟩
    · rw [h]
      unfold preferSimulation
      split_ifs
      · exact .inr ⟨sim, List.mem_cons_self, rfl⟩
      · exact .inr ⟨sim, List.mem_cons_self, rfl⟩
      · exact .inl rfl
    · exact .inr ⟨sim', List.mem_cons_of_mem _ hMem, h⟩

theorem Rebalance_best {start c : Cluster} (hKeeps : Keeps start c) (randSrc : RandSource σ) (s : σ)
    (simulations : Int) (options : List SAOption) :
    c.Rebalance randSrc s simulations options =
        ((c.bestSimulation randSrc options simulations.toNat s).2,
          c.applySwaps (c.bestSimulation randSrc options simulations.toNat s).2,
          (c.simulationsFrom randSrc options simulations.toNat s).foldl (fun _ sim => sim.2.2) s) ∧
      ((c.bestSimulation randSrc options simulations.toNat s).2 = [] ∨
        ∃ sim ∈ c.simulationsFrom randSrc options simulations.toNat s,
          (∃ s₀, c.SimulatedAnnealing randSrc s₀ options = sim) ∧
          c.bestSimulation randSrc options simulations.toNat s = (sim.2.1.Score, sim.1) ∧
          c.applySwaps sim.1 = sim.2.1) := by
  have hLoop : rebalanceLoop randSrc options simulations.toNat ⟨c, s, c.Score, []⟩ = _ :=
    rebalanceLoop_eq hKeeps randSrc options simulations.toNat s (c.Score, [])
  refine ⟨by simp only [Rebalance, hLoop, bestSimulation], ?_⟩
  rcases foldl_preferSimulation (c.simulationsFrom randSrc options simulations.toNat s) (c.Score, []) with
    hInit | ⟨sim, hMem, hSim⟩
  · left
    rw [bestSimulation, hInit]
  · right
    obtain ⟨s₀, hSA⟩ := mem_simulationsFrom hMem
    have hTrace := SimulatedAnnealing_trace hKeeps randSrc s₀ options
    rw [hSA] at hTrace
    exact ⟨sim, hMem, ⟨s₀, hSA⟩, hSim, applySwaps_of_trace hTrace⟩

end Random

section Calls

variable {σ : Type} {start : Cluster}

theorem Keeps.Undo (h : Keeps start c) (swap : Swap) : Keeps start (c.Undo swap).2 :=
  h.SwapLeader swap.PartitionIndex swap.OldLeaderIndex

theorem Keeps.undoLoop : ∀ {c : Cluster} (swaps : List Swap), Keeps start c → Keeps start (c.undoLoop swaps).2
  | _, [], h => h
  | c, swap :: swaps, h => by
    have hUndo := h.Undo swap
    rcases hU : c.Undo swap with ⟨err, c'⟩
    rw [hU] at hUndo
    simp only [Cluster.undoLoop, hU]
    cases err with
    | error e => exact hUndo
    | ok u => exact Keeps.undoLoop swaps hUndo

theorem Keeps.UndoSwaps (h : Keeps start c) (swaps : List Swap) : Keeps start (c.UndoSwaps swaps).2 :=
  h.undoLoop swaps.reverse

theorem Keeps.SwapRandom (h : Keeps start c) (randSrc : RandSource σ) (s : σ) (excluded : List Int) :
    Keeps start (c.SwapRandom randSrc s excluded).2.1 :=
  (SwapRandom_applied h.valid randSrc s excluded).keeps h

theorem Keeps.SimulatedAnnealing (h : Keeps start c) (randSrc : RandSource σ) (s : σ) (options : List SAOption) :
    Keeps start (c.SimulatedAnnealing randSrc s options).2.1 :=
  keeps_of_trace (SimulatedAnnealing_trace h randSrc s options) h

theorem Keeps.Rebalance (h : Keeps start c) (randSrc : RandSource σ) (s : σ) (simulations : Int)
    (options : List SAOption) : Keeps start (c.Rebalance randSrc s simulations options).2.1 := by
  obtain ⟨hEq, hBest⟩ := Rebalance_best h randSrc s simulations options
  rw [hEq]
  rcases hBest with hNil | ⟨sim, -, ⟨s₀, hSA⟩, hSim, hApply⟩
  · rw [hNil]
    exact h
  · rw [hSim, hApply, ← hSA]
    exact h.SimulatedAnnealing randSrc s₀ options

end Calls

end Cluster

section NewCluster

open ExceptRun

theorem checkCounts_ok {counts counts' : Int × Int} {p : Partition} (h : checkCounts counts p = .ok counts') :
    (counts.1 = -1 ∨ counts.1 = p.Nodes) ∧ counts' = (p.Nodes, p.Replicas) := by
  obtain ⟨nodes, replicas⟩ := counts
  unfold checkCounts at h
  dsimp only at h
  split_ifs at h with hNodes hReplicas
  exact ⟨by omega, (pure_eq_ok.mp h).symm⟩

theorem foldlM_checkCounts : ∀ (l : List Partition) (acc res : Int × Int), acc.1 ≠ -1 →
    l.foldlM checkCounts acc = .ok res → res.1 = acc.1 ∧ ∀ p ∈ l, p.Nodes = acc.1
  | [], acc, res, _, h => by
    rw [List.foldlM_nil, pure_eq_ok] at h
    subst h
    exact ⟨rfl, fun _ hp => absurd hp List.not_mem_nil⟩
  | p :: l, acc, res, hAcc, h => by
    rw [List.foldlM_cons, bind_eq_ok] at h
    obtain ⟨acc', hStep, hRest⟩ := h
    obtain ⟨hNodes, rfl⟩ := checkCounts_ok hStep
    have hEq : p.Nodes = acc.1 := by
      rcases hNodes with hNeg | hEq
      · exact absurd hNeg hAcc
      · exact hEq.symm
    obtain ⟨hRes, hAll⟩ := foldlM_checkCounts l _ res (by simpa [hEq] using hAcc) hRest
    refine ⟨hRes.trans hEq, fun q hq => ?_⟩
    rcases List.mem_cons.mp hq with rfl | hq
    · exact hEq
    · exact (hAll q hq).trans hEq

theorem getD_addScore {perNodeScores : List Int} {a : Int} {k : Nat} (hk : k < perNodeScores.length) (i : Nat) :
    (addScore perNodeScores (a, k)).getD i 0 = perNodeScores.getD i 0 + if i = k then max a 0 else 0 := by
  unfold addScore
  dsimp only
  split_ifs with hPos hik hik
  · rw [getD_modify_add hk, if_pos hik]
    omega
  · rw [getD_modify_add hk, if_neg hik]
  · omega
  · omega

@[simp] theorem length_addScore (perNodeScores : List Int) (entry : Int × Nat) :
    (addScore perNodeScores entry).length = perNodeScores.length := by
  unfold addScore
  split_ifs <;> simp

theorem getD_foldl_addScore (l : List Int) : ∀ (k : Nat) (perNodeScores : List Int),
    k + l.length ≤ perNodeScores.length →
      ((l.zipIdx k).foldl addScore perNodeScores).length = perNodeScores.length ∧
      ∀ i, ((l.zipIdx k).foldl addScore perNodeScores).getD i 0 =
        perNodeScores.getD i 0 + if k ≤ i ∧ i < k + l.length then max (l.getD (i - k) 0) 0 else 0 := by
  induction l with
  | nil => exact fun _ _ _ => ⟨rfl, fun i => by simp⟩
  | cons a l ih =>
    intro k perNodeScores hLen
    simp only [List.zipIdx_cons, List.foldl_cons, List.length_cons] at hLen ⊢
    obtain ⟨hLen', hGet⟩ := ih (k + 1) (addScore perNodeScores (a, k)) (by simp; omega)
    refine ⟨by simpa using hLen', fun i => ?_⟩
    rw [hGet, getD_addScore (by omega)]
    by_cases hik : i = k
    · subst hik
      rw [if_pos rfl, if_neg (by omega), if_pos (by omega), Nat.sub_self, List.getD_cons_zero]
      omega
    · by_cases hRange : k + 1 ≤ i ∧ i < k + 1 + l.length
      · obtain ⟨j, rfl⟩ : ∃ j, i = k + 1 + j := ⟨i - (k + 1), by omega⟩
        have hj : k + 1 + j - k = j + 1 := by omega
        simp only [if_neg hik, if_pos hRange, if_pos (show k ≤ k + 1 + j ∧ k + 1 + j < k + (l.length + 1) by omega),
          hj, List.getD_cons_succ, Nat.add_sub_cancel_left]
        omega
      · rw [if_neg hik, if_neg hRange, if_neg (by omega)]
        omega

theorem getD_addScores {perNodeScores : List Int} {p : Partition} (hLen : p.replicaScores.length ≤ perNodeScores.length)
    (i : Nat) :
    (addScores perNodeScores p).getD i 0 = perNodeScores.getD i 0 + max (p.replicaScores.getD i 0) 0 := by
  obtain ⟨-, hGet⟩ := getD_foldl_addScore p.replicaScores 0 perNodeScores (by omega)
  rw [addScores, hGet]
  split_ifs with hi
  · simp
  · -- a node past the partition's scores gets nothing
    have hOut : p.replicaScores.getD i 0 = 0 := by
      rw [List.getD_eq_getElem?_getD, List.getElem?_eq_none (by omega)]
      rfl
    rw [hOut]
    omega

theorem length_addScores (perNodeScores : List Int) (p : Partition) (hLen : p.replicaScores.length ≤ perNodeScores.length) :
    (addScores perNodeScores p).length = perNodeScores.length :=
  (getD_foldl_addScore p.replicaScores 0 perNodeScores (by omega)).1

theorem foldl_addScores : ∀ (partitions : List Partition) (perNodeScores : List Int),
    (∀ p ∈ partitions, p.replicaScores.length = perNodeScores.length) →
      (partitions.foldl addScores perNodeScores).length = perNodeScores.length ∧
      ∀ i, (partitions.foldl addScores perNodeScores).getD i 0 =
        perNodeScores.getD i 0 + (partitions.map fun p => max (p.replicaScores.getD i 0) 0).sum
  | [], _, _ => ⟨rfl, fun i => by simp⟩
  | p :: partitions, perNodeScores, hLen => by
    have hp : p.replicaScores.length ≤ perNodeScores.length := Nat.le_of_eq (hLen p List.mem_cons_self)
    have hNext := length_addScores perNodeScores p hp
    obtain ⟨hLen', hGet⟩ := foldl_addScores partitions (addScores perNodeScores p)
      (fun q hq => (hLen q (List.mem_cons_of_mem p hq)).trans hNext.symm)
    refine ⟨hLen'.trans hNext, fun i => ?_⟩
    rw [List.foldl_cons, hGet, getD_addScores hp, List.map_cons, List.sum_cons]
    omega

theorem getD_replicate_zero (n i : Nat) : (List.replicate n (0 : Int)).getD i 0 = 0 := by
  rw [List.getD_eq_getElem?_getD, List.getElem?_replicate]
  split_ifs <;> rfl

theorem NewCluster_valid {partitions : List Partition} {c : Cluster} (h : NewCluster partitions = .ok c)
    (hLeaders : ∀ p ∈ partitions, p.LeaderIsReplica) : c.partitions = partitions ∧ c.Valid := by
  unfold NewCluster at h
  split_ifs at h with hEmpty
  rw [bind_eq_ok] at h
  obtain ⟨⟨nodes, replicas⟩, hCounts, h⟩ := h
  rw [pure_eq_ok] at h
  subst h
  obtain ⟨p₀, ps, rfl⟩ := List.exists_cons_of_ne_nil (by simpa using hEmpty)
  rw [List.foldlM_cons, bind_eq_ok] at hCounts
  obtain ⟨acc, hFirst, hRest⟩ := hCounts
  obtain ⟨-, rfl⟩ := checkCounts_ok hFirst
  have hNonneg : 0 ≤ p₀.Nodes := by
    unfold Partition.Nodes
    omega
  obtain ⟨hRes, hAll⟩ := foldlM_checkCounts ps _ _ (by dsimp only; omega) hRest
  have hNodes : ∀ p ∈ p₀ :: ps, p.replicaScores.length = (List.replicate nodes.toNat (0 : Int)).length := by
    intro p hp
    have hpNodes : p.Nodes = nodes := by
      rcases List.mem_cons.mp hp with rfl | hp
      · exact hRes.symm
      · exact (hAll p hp).trans hRes.symm
    unfold Partition.Nodes at hpNodes
    rw [List.length_replicate]
    omega
  obtain ⟨hLen, hGet⟩ := foldl_addScores (p₀ :: ps) _ hNodes
  refine ⟨rfl, ⟨List.cons_ne_nil p₀ ps, fun p hp => (hNodes p hp).trans hLen.symm, hLeaders, fun i => ?_⟩⟩
  rw [hGet, getD_replicate_zero, Int.zero_add]

end NewCluster

/-- A call a user of the cluster makes; its result is dropped. -/
inductive Call
  | swapLeader (partitionIndex newLeaderIndex : Int)
  | undo (swap : Swap)
  | undoSwaps (swaps : List Swap)
  | swapRandom (excludedPartitionIndexes : List Int)
  | simulatedAnnealing (options : List SAOption)
  | rebalance (simulations : Int) (options : List SAOption)

section Runs

variable {σ : Type}

def Call.run (randSrc : RandSource σ) : Cluster × σ → Call → Cluster × σ
  | (c, s), .swapLeader partitionIndex newLeaderIndex => ((c.SwapLeader partitionIndex newLeaderIndex).2, s)
  | (c, s), .undo swap => ((c.Undo swap).2, s)
  | (c, s), .undoSwaps swaps => ((c.UndoSwaps swaps).2, s)
  | (c, s), .swapRandom excluded => (c.SwapRandom randSrc s excluded).2
  | (c, s), .simulatedAnnealing options => (c.SimulatedAnnealing randSrc s options).2
  | (c, s), .rebalance simulations options => (c.Rebalance randSrc s simulations options).2

def runCalls (randSrc : RandSource σ) (state : Cluster × σ) (calls : List Call) : Cluster × σ :=
  calls.foldl (Call.run randSrc) state

theorem Cluster.Keeps.run {start : Cluster} (randSrc : RandSource σ) :
    ∀ (state : Cluster × σ) (call : Call), start.Keeps state.1 → start.Keeps (Call.run randSrc state call).1
  | (_, _), .swapLeader partitionIndex newLeaderIndex, h => h.SwapLeader partitionIndex newLeaderIndex
  | (_, _), .undo swap, h => h.Undo swap
  | (_, _), .undoSwaps swaps, h => h.UndoSwaps swaps
  | (_, s), .swapRandom excluded, h => h.SwapRandom randSrc s excluded
  | (_, s), .simulatedAnnealing options, h => h.SimulatedAnnealing randSrc s options
  | (_, s), .rebalance simulations options, h => h.Rebalance randSrc s simulations options

theorem Cluster.Keeps.runCalls {start : Cluster} (randSrc : RandSource σ) :
    ∀ (calls : List Call) (state : Cluster × σ), start.Keeps state.1 →
      start.Keeps (runCalls randSrc state calls).1
  | [], _, h => h
  | call :: calls, state, h => Cluster.Keeps.runCalls randSrc calls _ (h.run randSrc state call)

end Runs

end Shardlb
end PranaDB
