import Mathlib.Data.List.Perm.Subperm
import Mathlib.Data.List.Nodup
import Mathlib.Data.Nat.ModEq
import Mathlib.Algebra.BigOperators.Group.List.Basic

/-!
A cursor that walks round a list of `n` items.

A round takes `n` picks. Before its pick each may find that the cursor has moved on by any number
of places since the one before it. A round gives every item its turn exactly if no two of its
picks find the cursor at the same place modulo `n`.
-/

namespace YunhouUsers.RoundRobin

variable {α : Type}

/-- Where the picks of a round find a cursor that starts at `start` and goes on by each of `moves`
after the pick it belongs to. -/
def places (start : Nat) (moves : List Nat) : List Nat :=
  (List.range moves.length).map fun j => start + (moves.take j).sum

variable (xs : List α)

def picks (places : List Nat) : List (Option α) :=
  places.map fun place => xs[place % xs.length]?

@[simp] theorem length_places (start : Nat) (moves : List Nat) :
    (places start moves).length = moves.length := by
  simp [places]

theorem places_cons (start move : Nat) (moves : List Nat) :
    places start (move :: moves) = start :: places (start + move) moves := by
  simp only [places, List.length_cons, List.range_succ_eq_map, List.map_cons, List.map_map,
    List.take_zero, List.sum_nil, Nat.add_zero, List.cons.injEq, true_and]
  apply List.map_congr_left
  intro j _
  simp [Nat.add_assoc]

theorem picks_congr {start other : Nat} (same : start ≡ other [MOD xs.length])
    (moves : List Nat) : picks xs (places start moves) = picks xs (places other moves) := by
  simp only [picks, places, List.map_map]
  apply List.map_congr_left
  intro j _
  have shifted : start + (moves.take j).sum ≡ other + (moves.take j).sum [MOD xs.length] :=
    same.add_right _
  simp only [Function.comp_apply]
  rw [shifted]

def Evenly (moves : List Nat) : Prop :=
  ((List.range moves.length).map fun j => (moves.take j).sum % moves.length).Nodup

instance (moves : List Nat) : Decidable (Evenly moves) :=
  inferInstanceAs (Decidable (List.Nodup _))

theorem evenly_iff (moves : List Nat) (start : Nat) :
    Evenly moves ↔ ((places start moves).map (· % moves.length)).Nodup := by
  rw [Evenly, places, List.map_map, List.nodup_map_iff_inj_on List.nodup_range,
    List.nodup_map_iff_inj_on List.nodup_range]
  have cancel : ∀ i j, (start + (moves.take i).sum) % moves.length
        = (start + (moves.take j).sum) % moves.length
      ↔ (moves.take i).sum % moves.length = (moves.take j).sum % moves.length := by
    intro i j
    constructor
    · intro same
      exact Nat.ModEq.add_left_cancel' start same
    · intro same
      exact Nat.ModEq.add_left start same
  simp only [Function.comp_apply, cancel]

theorem picks_range : picks xs (List.range xs.length) = xs.map some := by
  apply List.ext_getElem?
  intro i
  by_cases inside : i < xs.length
  · simp [picks, inside, Nat.mod_eq_of_lt]
  · simp [picks, inside]

theorem picks_mod (ps : List Nat) : picks xs (ps.map (· % xs.length)) = picks xs ps := by
  simp [picks, Function.comp_def]

theorem each_once_iff [DecidableEq α] {xs : List α} {moves : List Nat} (distinct : xs.Nodup)
    (round : moves.length = xs.length) (start : Nat) :
    (∀ a ∈ xs, (picks xs (places start moves)).count (some a) = 1) ↔ Evenly moves := by
  rw [evenly_iff moves start, round, ← picks_mod]
  have size : ((places start moves).map (· % xs.length)).length = xs.length := by
    simp [round]
  generalize at_ : (places start moves).map (· % xs.length) = ps at size
  have below : ∀ place ∈ ps, place < xs.length := by
    intro place mem
    have some_place : 0 < xs.length := size ▸ List.length_pos_of_mem mem
    rw [← at_] at mem
    obtain ⟨_, _, rfl⟩ := List.mem_map.mp mem
    exact Nat.mod_lt _ some_place
  have wanted : (xs.map some).Nodup := distinct.map (Option.some_injective α)
  constructor
  · intro once
    -- every item is picked, and there are as many picks as items
    have covers : xs.map some ⊆ picks xs ps := by
      intro found mem
      obtain ⟨a, item, rfl⟩ := List.mem_map.mp mem
      exact List.count_pos_iff.mp (by rw [once a item]; exact Nat.one_pos)
    have perm := (wanted.subperm covers).perm_of_length_le (by simp [picks, size])
    exact List.Nodup.of_map _ (perm.nodup_iff.mp wanted)
  · intro apart a item
    have covers : ps ⊆ List.range xs.length :=
      fun place mem => List.mem_range.mpr (below place mem)
    have perm := (apart.subperm covers).perm_of_length_le (by simp [size])
    have all : (picks xs ps).Perm (xs.map some) := by
      rw [← picks_range]
      exact perm.map _
    rw [all.count_eq]
    exact List.count_eq_one_of_mem wanted (List.mem_map_of_mem item)

theorem evenly_replicate (n k : Nat) (some_item : 0 < n) :
    Evenly (List.replicate n k) ↔ Nat.Coprime k n := by
  have partial_sum : ∀ j ∈ List.range n, ((List.replicate n k).take j).sum % n = j * k % n := by
    intro j mem
    rw [List.take_replicate, List.sum_replicate_nat, Nat.min_eq_left (List.mem_range.mp mem).le]
  rw [Evenly, List.length_replicate, List.map_congr_left partial_sum,
    List.nodup_map_iff_inj_on List.nodup_range]
  simp only [List.mem_range]
  constructor
  · intro apart
    -- after `n / gcd` moves the cursor is back where it was
    by_contra shared
    have factor : 1 < Nat.gcd k n := by
      have positive : 0 < Nat.gcd k n := Nat.gcd_pos_of_pos_right k some_item
      have other : Nat.gcd k n ≠ 1 := shared
      omega
    have early : n / Nat.gcd k n < n := Nat.div_lt_self some_item factor
    have back : n / Nat.gcd k n * k % n = 0 * k % n := by
      have regroup : n / Nat.gcd k n * k = n * (k / Nat.gcd k n) := by
        calc n / Nat.gcd k n * k
            = n / Nat.gcd k n * (Nat.gcd k n * (k / Nat.gcd k n)) := by
              rw [Nat.mul_div_cancel' (Nat.gcd_dvd_left k n)]
          _ = n * (k / Nat.gcd k n) := by
              rw [← Nat.mul_assoc, Nat.div_mul_cancel (Nat.gcd_dvd_right k n)]
      rw [regroup]
      simp
    have stuck := apart _ early 0 some_item back
    have positive : 0 < n / Nat.gcd k n :=
      Nat.div_pos (Nat.le_of_dvd some_item (Nat.gcd_dvd_right k n)) (by omega)
    omega
  · intro coprime i below j below' same
    have cancelled : i ≡ j [MOD n] := Nat.ModEq.cancel_right_of_coprime coprime.symm same
    exact cancelled.eq_of_lt_of_lt below below'

end YunhouUsers.RoundRobin
