import YunhouUsers.StableSort
import YunhouUsers.Inference.Gateway.Dispatch

/-!
The accounts a health pass probes (`workers/upstream_health.go`, `ListUpstreamAccountsForHealth`).
-/

namespace YunhouUsers.Inference.Health

open Gateway (UpstreamAccountStatus)

structure Account where
  id : Nat
  status : UpstreamAccountStatus
  updatedAt : Int
deriving DecidableEq

structure Config where
  batchLimit : Int
  cooldown : Int

def eligible (cooldownDueBefore : Int) (a : Account) : Bool :=
  a.status = .active || a.status = .cooldown && a.updatedAt ≤ cooldownDueBefore
    || a.status = .refreshing

def effectiveLimit (limit : Int) : Nat := if limit ≤ 0 ∨ 500 < limit then 100 else limit.toNat

def listUpstreamAccountsForHealth (rows : List Account) (cooldownDueBefore : Int) (limit : Int) :
    List Account :=
  (sortStable (fun a b => decide (a.id < b.id)) (rows.filter (eligible cooldownDueBefore))).take
    (effectiveLimit limit)

/-- A pass, and what becomes of the accounts up to the next one: the probes of the listed accounts
(`Credentials.Refresh`) and everyone else write them. -/
structure Pass where
  now : Int
  written : List Account → List Account

/-- The accounts it probes, and the table the next pass finds. -/
def runPass (cfg : Config) (p : Pass) (rows : List Account) : List Account × List Account :=
  let accounts := listUpstreamAccountsForHealth rows (p.now - cfg.cooldown) cfg.batchLimit
  (accounts, p.written rows)

def probed (cfg : Config) : List Pass → List Account → List Nat
  | [], _ => []
  | p :: ps, rows => (runPass cfg p rows).1.map (·.id) ++ probed cfg ps (runPass cfg p rows).2

def eligibleIds (rows : List Account) (cooldownDueBefore : Int) : List Nat :=
  (rows.filter (eligible cooldownDueBefore)).map (·.id)

def Steady (cfg : Config) (ids : List Nat) : List Pass → List Account → Prop
  | [], _ => True
  | p :: ps, rows => (eligibleIds rows (p.now - cfg.cooldown)).Perm ids ∧
      Steady cfg ids ps (runPass cfg p rows).2

variable {cfg : Config} {rows : List Account} {ids : List Nat} {due : Int}

theorem listed_eq (same : (eligibleIds rows due).Perm ids) (limit : Int) :
    (listUpstreamAccountsForHealth rows due limit).map (·.id) =
      (ids.insertionSort (· ≤ ·)).take (effectiveLimit limit) := by
  have ranks : Ranks (fun a b : Account => decide (a.id < b.id)) (·.id) := fun a b => by simp
  have sorted : ((sortStable (fun a b => decide (a.id < b.id))
      (rows.filter (eligible due))).map (·.id)).Pairwise (· ≤ ·) :=
    List.pairwise_map.mpr (ranks.sorted _)
  have perm : ((sortStable (fun a b => decide (a.id < b.id))
      (rows.filter (eligible due))).map (·.id)).Perm (ids.insertionSort (· ≤ ·)) :=
    ((List.perm_insertionSort _ _).map _).trans (same.trans (List.perm_insertionSort _ ids).symm)
  rw [listUpstreamAccountsForHealth, List.map_take]
  rw [List.Perm.eq_of_sortedLE sorted.sortedLE
    (List.pairwise_insertionSort (· ≤ ·) ids).sortedLE perm]

theorem mem_probed {passes : List Pass} (steady : Steady cfg ids passes rows) {id : Nat} :
    id ∈ probed cfg passes rows ↔
      passes ≠ [] ∧ id ∈ (ids.insertionSort (· ≤ ·)).take (effectiveLimit cfg.batchLimit) := by
  induction passes generalizing rows with
  | nil => simp [probed]
  | cons p passes ih =>
    obtain ⟨same, later⟩ := steady
    have listed : (runPass cfg p rows).1.map (·.id) = _ := listed_eq same cfg.batchLimit
    rw [probed, List.mem_append, ih later, listed]
    simp only [ne_eq, reduceCtorEq, not_false_eq_true, true_and]
    exact or_iff_left_of_imp fun h => h.2

theorem mem_take_iff (distinct : ids.Nodup) (n : Nat) :
    (∀ id ∈ ids, id ∈ (ids.insertionSort (· ≤ ·)).take n) ↔ ids.length ≤ n := by
  have perm := List.perm_insertionSort (· ≤ ·) ids
  constructor
  · intro all
    have sub := (List.subperm_of_subset distinct all).length_le
    simp only [List.length_take, perm.length_eq] at sub
    omega
  · intro few id mem
    rw [List.take_of_length_le (by rwa [perm.length_eq])]
    exact perm.mem_iff.mpr mem

/-- After as many passes as batches are needed for all accounts every eligible account has been
probed, if and only if one batch takes all of them. -/
theorem every_account_probed_iff (cfg : Config) (rows : List Account) (passes : List Pass)
    (due : Int) (limited : 1 ≤ cfg.batchLimit) (distinct : (rows.map (·.id)).Nodup)
    (count : (passes.length : Int) = (rows.length + cfg.batchLimit - 1) / cfg.batchLimit)
    (steady : Steady cfg (eligibleIds rows due) passes rows) :
    (∀ id ∈ eligibleIds rows due, id ∈ probed cfg passes rows) ↔
      (eligibleIds rows due).length ≤ effectiveLimit cfg.batchLimit := by
  have nodup : (eligibleIds rows due).Nodup := distinct.sublist (List.filter_sublist.map _)
  rw [← mem_take_iff nodup]
  refine forall₂_congr fun id mem => ?_
  rw [mem_probed steady, and_iff_right]
  rintro rfl
  have some_ : 0 < rows.length := by
    obtain ⟨a, inside, -⟩ := List.mem_map.mp mem
    exact List.length_pos_of_mem (List.mem_of_mem_filter inside)
  have one : 1 ≤ ((rows.length : Int) + cfg.batchLimit - 1) / cfg.batchLimit :=
    (Int.le_ediv_iff_mul_le limited).mpr (by omega)
  simp only [List.length_nil, Nat.cast_zero] at count
  omega

def healthyPair : List Account := [⟨1, .active, 0⟩, ⟨2, .active, 0⟩]

/-- A healthy account that is active is left as it is. -/
def healthyPass : Pass := ⟨0, id⟩

theorem pair_probed_in_one_batch :
    (1 ∈ probed ⟨2, 0⟩ [healthyPass] healthyPair ∧ 2 ∈ probed ⟨2, 0⟩ [healthyPass] healthyPair) := by
  have all := (every_account_probed_iff ⟨2, 0⟩ healthyPair [healthyPass] 0 (by decide) (by decide)
    (by decide) ⟨List.Perm.refl _, trivial⟩).mpr (by decide)
  exact ⟨all 1 (by decide), all 2 (by decide)⟩

theorem second_account_never_probed :
    2 ∈ eligibleIds healthyPair 0 ∧
      probed ⟨1, 0⟩ [healthyPass, healthyPass] healthyPair = [1, 1] := by decide

end YunhouUsers.Inference.Health
