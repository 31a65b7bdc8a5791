import Mathlib
import PranaDB.Lib.UndoLog

/-! # The leader rebalancer (`shardlb/rebalancer.go`)

A partition holds the score of each node's replica, negative on a node without
one, and the index of its leader. A cluster holds its partitions and the sum of
each node's positive scores, which `SwapLeader` updates in place from the two
scores it reads before the swap. The Go methods take the cluster by value but
mutate the slices it shares with its caller, so each mutator here returns the
cluster after the call beside its result, also when it returns an error.

The random source is any pair of draws on a state of its own: `Intn` is only
compared with zero, and `Float64` only with the acceptance threshold of the
annealing, so nothing is assumed of either. The scores are `Float` as in the
source; no result depends on their values, only on the swaps they let through.

Go panics when an index is out of range. On a cluster that `NewCluster` built
from partitions whose leaders are replicas (`Cluster.Valid`) every index the
methods read is in range; the model reads such a score as `getD` and swaps
with `List.swap`, which agree with Go on an index in range.

Slices are values here: partitions that share one scores slice, which the Go
constructors allow, are outside the model.
-/

namespace PranaDB
namespace Shardlb
set_option autoImplicit false

def scoreAt (scores : List Int) (i : Int) : Int :=
  scores.getD i.toNat 0

/-- A source of random draws with a state of its own. -/
structure RandSource (σ : Type) where
  Intn : σ → Int → Int × σ
  Float64 : σ → Float × σ

section Reservoir

variable {σ : Type}

/-- One index of the loops of `RandomFollowerIndex` and `randomPartitionIndex`:
the k-th candidate replaces the one picked so far when `Intn k` draws zero. -/
def reservoirStep (randSrc : RandSource σ) (candidate : Nat → Bool) : Int × Int × σ → Nat → Int × Int × σ
  | (picked, seen, s), i =>
    if candidate i then
      let seen := seen + 1
      if seen = 1 then (i, seen, s)
      else
        let (n, s) := randSrc.Intn s seen
        if n = 0 then (i, seen, s) else (picked, seen, s)
    else (picked, seen, s)

def reservoirPick (randSrc : RandSource σ) (candidate : Nat → Bool) (n : Nat) (s : σ) : Int × σ :=
  let (picked, _, s) := (List.range n).foldl (reservoirStep randSrc candidate) (-1, 0, s)
  (picked, s)

def Picked (candidate : Nat → Bool) (n : Nat) (picked : Int) : Prop :=
  picked = -1 ∨ ∃ i < n, candidate i = true ∧ picked = i

theorem picked_reservoirStep {randSrc : RandSource σ} {candidate : Nat → Bool} {n i : Nat}
    {acc : Int × Int × σ} (h : Picked candidate n acc.1) (hi : i < n) :
    Picked candidate n (reservoirStep randSrc candidate acc i).1 := by
  obtain ⟨picked, seen, s⟩ := acc
  simp only [reservoirStep]
  cases hc : candidate i with
  | false => simpa using h
  | true =>
    have hI : Picked candidate n i := .inr ⟨i, hi, hc, rfl⟩
    simp only [if_true]
    split
    · exact hI
    · split
      · exact hI
      · exact h

theorem reservoirPick_picked (randSrc : RandSource σ) (candidate : Nat → Bool) (n : Nat) (s : σ) :
    Picked candidate n (reservoirPick randSrc candidate n s).1 := by
  have hLoop : ∀ (l : List Nat) (acc : Int × Int × σ), (∀ i ∈ l, i < n) → Picked candidate n acc.1 →
      Picked candidate n (l.foldl (reservoirStep randSrc candidate) acc).1 := by
    intro l
    induction l with
    | nil => exact fun _ _ h => h
    | cons i l ih =>
      intro acc hl h
      exact ih _ (fun j hj => hl j (List.mem_cons_of_mem i hj))
        (picked_reservoirStep h (hl i List.mem_cons_self))
  exact hLoop _ (-1, 0, s) (fun i hi => List.mem_range.mp hi) (.inl rfl)

end Reservoir

/-- A partition: the score of each node's replica, negative on a node without
one, and the index of its leader. -/
structure Partition where
  replicaScores : List Int
  leaderIndex : Int
deriving Repr, DecidableEq

namespace Partition

variable {σ : Type}

def Nodes (p : Partition) : Int :=
  p.replicaScores.length

def Replicas (p : Partition) : Int :=
  p.replicaScores.countP fun score => score ≥ 0

def NewPartition (scores : List Int) (leaderIndex : Int) : Except String Partition :=
  let partition : Partition := ⟨scores, leaderIndex⟩
  if partition.Nodes = 0 then throw "cannot create partition with no nodes"
  else if partition.Replicas = 0 then throw "cannot create partition with no replicas"
  else if ¬(0 ≤ leaderIndex ∧ leaderIndex < scores.length) ∨ scoreAt scores leaderIndex < 0 then
    throw "invalid leader index"
  else pure partition

/-- `SwapLeader`: the new leader trades scores with the old one. -/
def SwapLeader (p : Partition) (newLeaderIndex : Int) : Except String Unit × Partition :=
  if ¬(0 ≤ newLeaderIndex ∧ newLeaderIndex < p.Nodes) ∨ scoreAt p.replicaScores newLeaderIndex < 0 then
    (throw "invalid new leader index", p)
  else
    (pure (), ⟨p.replicaScores.swap p.leaderIndex.toNat newLeaderIndex.toNat, newLeaderIndex⟩)

def isFollower (p : Partition) (replicaIndex : Nat) : Bool :=
  !(decide (p.replicaScores.getD replicaIndex 0 < 0) || decide ((replicaIndex : Int) = p.leaderIndex))

def RandomFollowerIndex (p : Partition) (randSrc : RandSource σ) (s : σ) : Int × σ :=
  reservoirPick randSrc p.isFollower p.replicaScores.length s

def LeaderIsReplica (p : Partition) : Prop :=
  0 ≤ p.leaderIndex ∧ p.leaderIndex < p.Nodes ∧ 0 ≤ scoreAt p.replicaScores p.leaderIndex

instance (p : Partition) : Decidable p.LeaderIsReplica :=
  inferInstanceAs (Decidable (_ ∧ _ ∧ _))

/-- `q` holds the scores of `p` in some order, with the same nodes without a
replica. -/
structure Rearranged (p q : Partition) : Prop where
  perm : q.replicaScores.Perm p.replicaScores
  nonReplicas : ∀ i, q.replicaScores.getD i 0 < 0 ↔ p.replicaScores.getD i 0 < 0

end Partition

structure Swap where
  PartitionIndex : Int
  OldLeaderIndex : Int
  NewLeaderIndex : Int
deriving Repr, DecidableEq

@[ext] structure Cluster where
  partitions : List Partition
  perNodeScores : List Int
deriving Repr, DecidableEq

/-- One partition of `NewCluster`'s first loop: the node and replica counts
must equal those of the partitions before it. -/
def checkCounts (counts : Int × Int) (partition : Partition) : Except String (Int × Int) :=
  let (nodes, replicas) := counts
  if nodes ≠ -1 ∧ nodes ≠ partition.Nodes then throw "cluster partitions must have equal node count"
  else if replicas ≠ -1 ∧ replicas ≠ partition.Replicas then
    throw "cluster partitions must have equal replica count"
  else pure (partition.Nodes, partition.Replicas)

def addScore (perNodeScores : List Int) (entry : Int × Nat) : List Int :=
  if entry.1 > 0 then perNodeScores.modify entry.2 (· + entry.1) else perNodeScores

def addScores (perNodeScores : List Int) (partition : Partition) : List Int :=
  partition.replicaScores.zipIdx.foldl addScore perNodeScores

def NewCluster (partitions : List Partition) : Except String Cluster :=
  if partitions.isEmpty then throw "cluster partitions cannot be empty"
  else do
    let (nodes, _) ← partitions.foldlM checkCounts (-1, -1)
    let perNodeScores := partitions.foldl addScores (List.replicate nodes.toNat 0)
    pure ⟨partitions, perNodeScores⟩

section Lists

variable {α : Type}

theorem getElem?_swap {xs : List α} {a b : Nat} (ha : a < xs.length) (hb : b < xs.length) (i : Nat) :
    (xs.swap a b)[i]? = if i = a then xs[b]? else if i = b then xs[a]? else xs[i]? := by
  rw [List.swap_eq_of_lt ha hb, List.getElem?_set, List.getElem?_set, List.length_set]
  by_cases hia : i = a
  · subst hia
    by_cases hib : i = b
    · subst hib
      simp [ha]
    · simp [ha, Ne.symm hib]
  · by_cases hib : i = b
    · subst hib
      simp [hb, hia]
    · simp [Ne.symm hia, Ne.symm hib, hia, hib]

theorem getD_swap {xs : List α} {a b : Nat} (ha : a < xs.length) (hb : b < xs.length) (i : Nat) (d : α) :
    (xs.swap a b).getD i d = if i = a then xs.getD b d else if i = b then xs.getD a d else xs.getD i d := by
  simp only [List.getD_eq_getElem?_getD, getElem?_swap ha hb]
  split_ifs <;> rfl

theorem getD_modify_add {xs : List Int} {j : Nat} (hj : j < xs.length) (k : Int) (i : Nat) :
    (xs.modify j (· + k)).getD i 0 = xs.getD i 0 + if i = j then k else 0 := by
  simp only [List.getD_eq_getElem?_getD, List.getElem?_modify]
  by_cases hi : i = j
  · subst hi
    simp [List.getElem?_eq_getElem hj]
  · cases xs[i]? <;> simp [Ne.symm hi, hi]

theorem sum_map_set (f : α → Int) :
    ∀ (l : List α) (n : Nat) (x a : α), l[n]? = some x → ((l.set n a).map f).sum = (l.map f).sum + (f a - f x)
  | [], _, _, _, h => by simp at h
  | y :: l, 0, x, a, h => by
    simp only [List.getElem?_cons_zero, Option.some.injEq] at h
    subst h
    simp only [List.set_cons_zero, List.map_cons, List.sum_cons]
    omega
  | y :: l, n + 1, x, a, h => by
    simp only [List.getElem?_cons_succ] at h
    simp only [List.set_cons_succ, List.map_cons, List.sum_cons, sum_map_set f l n x a h]
    omega

theorem forall₂_set {β : Type} {R : α → β → Prop} {l₁ : List α} {l₂ : List β}
    (h : List.Forall₂ R l₁ l₂) {n : Nat} {b b' : β} (hb : l₂[n]? = some b) (hR : ∀ a, R a b → R a b') :
    List.Forall₂ R l₁ (l₂.set n b') := by
  induction h generalizing n with
  | nil => simp at hb
  | cons hHead hTail ih =>
    cases n with
    | zero =>
      simp only [List.getElem?_cons_zero, Option.some.injEq] at hb
      subst hb
      exact .cons (hR _ hHead) hTail
    | succ n =>
      simp only [List.getElem?_cons_succ] at hb
      exact .cons hHead (ih hb)

end Lists

namespace Cluster

variable {σ : Type}

def Partitions (c : Cluster) : Int :=
  c.partitions.length

def Nodes (c : Cluster) : Int :=
  match c.partitions with
  | [] => 0
  | p :: _ => p.Nodes

/-- `SwapLeader`: the partition's scores are swapped first, then the two nodes'
totals move by the difference of the scores read before the swap. -/
def SwapLeader (c : Cluster) (partitionIndex newLeaderIndex : Int) : Except String Swap × Cluster :=
  if h : 0 ≤ partitionIndex ∧ partitionIndex < c.partitions.length then
    have : partitionIndex.toNat < c.partitions.length := by omega
    let partition := c.partitions[partitionIndex.toNat]
    if ¬(0 ≤ newLeaderIndex ∧ newLeaderIndex < partition.Nodes) then (throw "invalid new leader index", c)
    else
      let oldLeaderIndex := partition.leaderIndex
      let oldLeaderScore := scoreAt partition.replicaScores oldLeaderIndex
      let newLeaderScore := scoreAt partition.replicaScores newLeaderIndex
      let (err, partition) := partition.SwapLeader newLeaderIndex
      let c := { c with partitions := c.partitions.set partitionIndex.toNat partition }
      match err with
      | .error e => (throw e, c)
      | .ok () =>
        let perNodeScores := (c.perNodeScores.modify oldLeaderIndex.toNat (· + (newLeaderScore - oldLeaderScore))).modify
          newLeaderIndex.toNat (· + (-newLeaderScore + oldLeaderScore))
        (pure ⟨partitionIndex, oldLeaderIndex, newLeaderIndex⟩, { c with perNodeScores })
  else (throw "invalid partition index", c)

/-- The cluster after a swap of the partition at `partitionIndex`, whose state
was `p`, that passed its checks. -/
def swapped (c : Cluster) (partitionIndex : Nat) (p : Partition) (newLeaderIndex : Int) : Cluster :=
  let oldLeaderScore := scoreAt p.replicaScores p.leaderIndex
  let newLeaderScore := scoreAt p.replicaScores newLeaderIndex
  ⟨c.partitions.set partitionIndex ⟨p.replicaScores.swap p.leaderIndex.toNat newLeaderIndex.toNat, newLeaderIndex⟩,
    (c.perNodeScores.modify p.leaderIndex.toNat (· + (newLeaderScore - oldLeaderScore))).modify
      newLeaderIndex.toNat (· + (-newLeaderScore + oldLeaderScore))⟩

theorem SwapLeader_eq_swapped {c : Cluster} {partitionIndex newLeaderIndex : Int} {p : Partition}
    (hp : c.partitions[partitionIndex.toNat]? = some p) (hpi : 0 ≤ partitionIndex)
    (hnl : 0 ≤ newLeaderIndex ∧ newLeaderIndex < p.Nodes) (hScore : 0 ≤ scoreAt p.replicaScores newLeaderIndex) :
    c.SwapLeader partitionIndex newLeaderIndex =
      (.ok ⟨partitionIndex, p.leaderIndex, newLeaderIndex⟩, c.swapped partitionIndex.toNat p newLeaderIndex) := by
  obtain ⟨hLt, rfl⟩ := List.getElem?_eq_some_iff.mp hp
  have hIn : 0 ≤ partitionIndex ∧ partitionIndex < c.partitions.length := ⟨hpi, by omega⟩
  have hGuard : ¬(¬(0 ≤ newLeaderIndex ∧ newLeaderIndex < c.partitions[partitionIndex.toNat].Nodes) ∨
      scoreAt c.partitions[partitionIndex.toNat].replicaScores newLeaderIndex < 0) := by omega
  simp only [SwapLeader, dif_pos hIn, if_neg (not_not_intro hnl), Partition.SwapLeader, if_neg hGuard]
  rfl

theorem SwapLeader_cases (c : Cluster) (partitionIndex newLeaderIndex : Int) :
    ((∃ e, (c.SwapLeader partitionIndex newLeaderIndex).1 = .error e) ∧
        (c.SwapLeader partitionIndex newLeaderIndex).2 = c) ∨
    ∃ p, c.partitions[partitionIndex.toNat]? = some p ∧ 0 ≤ partitionIndex ∧
      (0 ≤ newLeaderIndex ∧ newLeaderIndex < p.Nodes) ∧ 0 ≤ scoreAt p.replicaScores newLeaderIndex ∧
      c.SwapLeader partitionIndex newLeaderIndex =
        (.ok ⟨partitionIndex, p.leaderIndex, newLeaderIndex⟩, c.swapped partitionIndex.toNat p newLeaderIndex) := by
  by_cases hIn : 0 ≤ partitionIndex ∧ partitionIndex < c.partitions.length
  · have hLt : partitionIndex.toNat < c.partitions.length := by omega
    have hp : c.partitions[partitionIndex.toNat]? = some c.partitions[partitionIndex.toNat] :=
      List.getElem?_eq_getElem hLt
    by_cases hnl : 0 ≤ newLeaderIndex ∧ newLeaderIndex < c.partitions[partitionIndex.toNat].Nodes
    · by_cases hScore : 0 ≤ scoreAt c.partitions[partitionIndex.toNat].replicaScores newLeaderIndex
      · exact .inr ⟨_, hp, hIn.1, hnl, hScore, SwapLeader_eq_swapped hp hIn.1 hnl hScore⟩
      · -- the partition refuses a node without a replica before it changes anything
        left
        have hGuard : ¬(0 ≤ newLeaderIndex ∧ newLeaderIndex < c.partitions[partitionIndex.toNat].Nodes) ∨
            scoreAt c.partitions[partitionIndex.toNat].replicaScores newLeaderIndex < 0 := by omega
        simp only [SwapLeader, dif_pos hIn, if_neg (not_not_intro hnl), Partition.SwapLeader, if_pos hGuard,
          List.set_getElem_self]
        exact ⟨⟨_, rfl⟩, rfl⟩
    · left
      simp only [SwapLeader, dif_pos hIn, if_pos hnl]
      exact ⟨⟨_, rfl⟩, trivial⟩
  · left
    simp only [SwapLeader, dif_neg hIn]
    exact ⟨⟨_, rfl⟩, trivial⟩

def randomPartitionIndex (c : Cluster) (randSrc : RandSource σ) (s : σ) (excludedPartitions : List Int) :
    Int × σ :=
  reservoirPick randSrc (fun partitionIndex => !decide ((partitionIndex : Int) ∈ excludedPartitions))
    c.partitions.length s

/-- `SwapRandom`: a random follower of a random partition that is not excluded
becomes its leader; with no such partition or follower, the swap of partition
0's leader with itself is returned and nothing changes. -/
def SwapRandom (c : Cluster) (randSrc : RandSource σ) (s : σ) (excludedPartitionIndexes : List Int) :
    Swap × Cluster × σ :=
  -- Go panics on a cluster without partitions
  let leader := match c.partitions with
    | [] => 0
    | p :: _ => p.leaderIndex
  let noSwap : Swap := ⟨0, leader, leader⟩
  let (randomPartitionIndex, s) := c.randomPartitionIndex randSrc s excludedPartitionIndexes
  if randomPartitionIndex < 0 then (noSwap, c, s)
  else
    let randomPartition := c.partitions.getD randomPartitionIndex.toNat ⟨[], 0⟩
    let (newLeaderIndex, s) := randomPartition.RandomFollowerIndex randSrc s
    if newLeaderIndex < 0 then (noSwap, c, s)
    else
      let (swap, c) := c.SwapLeader randomPartitionIndex newLeaderIndex
      -- the error is dropped and the swap is then the zero value
      match swap with
      | .ok swap => (swap, c, s)
      | .error _ => (⟨0, 0, 0⟩, c, s)

/-- `Score`: the standard deviation of the node totals. -/
def Score (c : Cluster) : Float :=
  let totalScore := c.perNodeScores.foldl (· + ·) 0
  let nodes := Float.ofInt c.Nodes
  let meanScore := Float.ofInt totalScore / nodes
  let variance := c.perNodeScores.foldl (fun variance score =>
    let delta := Float.ofInt score - meanScore
    variance + delta * delta) 0
  Float.sqrt (variance / nodes)

def Undo (c : Cluster) (s : Swap) : Except String Unit × Cluster :=
  let (err, c) := c.SwapLeader s.PartitionIndex s.OldLeaderIndex
  (err.map fun _ => (), c)

def undoLoop (c : Cluster) : List Swap → Except String Unit × Cluster
  | [] => (pure (), c)
  | swap :: swaps =>
    match c.Undo swap with
    | (.error e, c) => (throw e, c)
    | (.ok (), c) => undoLoop c swaps

def UndoSwaps (c : Cluster) (swaps : List Swap) : Except String Unit × Cluster :=
  c.undoLoop swaps.reverse

end Cluster

structure saConfig where
  coolingFraction : Float
  k : Float
  repeats : Int

abbrev SAOption := saConfig → saConfig

def saConfig.applyOptions (config : saConfig) (options : List SAOption) : saConfig :=
  options.foldl (fun config option => option config) config

def defaultSAConfig : saConfig :=
  ⟨0.8, 1, 5⟩

def SACoolingFraction (coolingFraction : Float) : SAOption := fun config =>
  let coolingFraction := if coolingFraction > 1 then 1 else coolingFraction
  let coolingFraction := if coolingFraction < 0 then 0 else coolingFraction
  { config with coolingFraction }

def SAK (k : Float) : SAOption := fun config =>
  { config with k }

def SARetries (repeats : Int) : SAOption := fun config =>
  { config with repeats }

/-- The variables of `SimulatedAnnealing`'s loops. -/
structure saState (σ : Type) where
  cluster : Cluster
  rand : σ
  currentScore : Float
  excludedPartitions : List Int
  swaps : List Swap

namespace Cluster

variable {σ : Type}

/-- The inner loop of `SimulatedAnnealing`, with `n` tries left: a random swap
is kept and ends the loop when it lowers the score or passes the Boltzmann
test, and is undone otherwise. -/
def annealTry (randSrc : RandSource σ) (config : saConfig) (temperature : Float) :
    Nat → saState σ → saState σ
  | 0, st => st
  | n + 1, st =>
    let (swap, c, s) := st.cluster.SwapRandom randSrc st.rand st.excludedPartitions
    let newScore := c.Score
    let acceptWin := decide (newScore < st.currentScore)
    let (acceptLoss, s) :=
      if newScore > st.currentScore then
        let exponent := (1 - newScore / st.currentScore) / (config.k * temperature)
        let (threshold, s) := randSrc.Float64 s
        (decide (Float.exp exponent > threshold), s)
      else (false, s)
    if acceptWin || acceptLoss then
      { cluster := c, rand := s, currentScore := newScore, swaps := st.swaps ++ [swap],
        excludedPartitions := swap.PartitionIndex :: st.excludedPartitions }
    else annealTry randSrc config temperature n { st with cluster := (c.Undo swap).2, rand := s }

/-- The outer loop of `SimulatedAnnealing`, with `n` rounds left and the
temperature cooled once a round. -/
def annealLoop (randSrc : RandSource σ) (config : saConfig) : Nat → Float × saState σ → Float × saState σ
  | 0, acc => acc
  | n + 1, (temperature, st) =>
    let temperature := temperature * config.coolingFraction
    annealLoop randSrc config n (temperature, annealTry randSrc config temperature config.repeats.toNat st)

/-- `SimulatedAnnealing`: one round per partition; the swaps it keeps are
returned and stay applied. -/
def SimulatedAnnealing (c : Cluster) (randSrc : RandSource σ) (s : σ) (options : List SAOption) :
    List Swap × Cluster × σ :=
  let config := defaultSAConfig.applyOptions options
  let (_, st) := annealLoop randSrc config c.partitions.length (1, ⟨c, s, c.Score, [], []⟩)
  (st.swaps, st.cluster, st.rand)

end Cluster

/-- The variables of `Rebalance`'s loop. -/
structure rebalanceState (σ : Type) where
  cluster : Cluster
  rand : σ
  bestScore : Float
  bestSwaps : List Swap

namespace Cluster

variable {σ : Type}

/-- The loop of `Rebalance`, with `n` simulations left: each simulation is
scored, remembered when it is the best so far, and undone. -/
def rebalanceLoop (randSrc : RandSource σ) (options : List SAOption) : Nat → rebalanceState σ → rebalanceState σ
  | 0, st => st
  | n + 1, st =>
    let (swaps, c, s) := st.cluster.SimulatedAnnealing randSrc st.rand options
    let newScore := c.Score
    let (bestScore, bestSwaps) :=
      if newScore < st.bestScore then (newScore, swaps)
      else if newScore == st.bestScore && swaps.length < st.bestSwaps.length then (newScore, swaps)
      else (st.bestScore, st.bestSwaps)
    rebalanceLoop randSrc options n ⟨(c.UndoSwaps swaps).2, s, bestScore, bestSwaps⟩

def applySwaps (c : Cluster) (swaps : List Swap) : Cluster :=
  swaps.foldl (fun c swap => (c.SwapLeader swap.PartitionIndex swap.NewLeaderIndex).2) c

/-- `Rebalance`: the swaps of the best simulation, applied again to the cluster. -/
def Rebalance (c : Cluster) (r : RandSource σ) (s : σ) (simulations : Int) (options : List SAOption) :
    List Swap × Cluster × σ :=
  let st := rebalanceLoop r options simulations.toNat ⟨c, s, c.Score, []⟩
  (st.bestSwaps, st.cluster.applySwaps st.bestSwaps, st.rand)

end Cluster

end Shardlb
end PranaDB
