import Mathlib.Algebra.GroupWithZero.Nat
import Mathlib.Algebra.Order.BigOperators.Group.List
import Mathlib.Algebra.Order.Group.Int
import Mathlib.Algebra.Ring.Int.Defs
import Mathlib.Data.List.Nodup

/-!
SQL tables as lists of rows: guarded updates, keyed lookups and column sums.
-/

namespace Table

variable {α κ : Type}

def updateWhere (p : α → Bool) (f : α → α) (rows : List α) : List α :=
  rows.map fun r => if p r then f r else r

def total (f : α → Int) (rows : List α) : Int := (rows.map f).sum

@[simp] theorem updateWhere_nil (p : α → Bool) (f : α → α) : updateWhere p f [] = [] := rfl

variable {p : α → Bool} {rows : List α}

theorem forall_mem_concat {P : α → Prop} {a : α} (old : ∀ x ∈ rows, P x) (new : P a) :
    ∀ x ∈ rows ++ [a], P x :=
  List.forall_mem_append.mpr ⟨old, List.forall_mem_singleton.mpr new⟩

theorem mem_updateWhere {f : α → α} {x : α} :
    x ∈ updateWhere p f rows ↔ ∃ r ∈ rows, (if p r then f r else r) = x := by
  simp [updateWhere]

theorem updateWhere_eq_self {f : α → α}
    (miss : ∀ r ∈ rows, p r = false) : updateWhere p f rows = rows := by
  unfold updateWhere
  rw [List.map_congr_left (g := id)]
  · simp
  · intro r hr
    simp [miss r hr]

theorem updateWhere_congr {q : α → Bool} (same : ∀ r ∈ rows, p r = q r)
    (f : α → α) : updateWhere p f rows = updateWhere q f rows := by
  apply List.map_congr_left
  intro r mem
  rw [same r mem]

theorem map_updateWhere (p : α → Bool) (f : α → α) (column : α → κ)
    (same : ∀ r, column (f r) = column r) (rows : List α) :
    (updateWhere p f rows).map column = rows.map column := by
  simp only [updateWhere, List.map_map]
  apply List.map_congr_left
  intro r _
  simp only [Function.comp]
  split
  · exact same r
  · rfl

@[simp] theorem total_nil (f : α → Int) : total f [] = 0 := rfl

@[simp] theorem total_cons (f : α → Int) (r : α) (rows : List α) :
    total f (r :: rows) = f r + total f rows := by
  simp [total]

@[simp] theorem total_append (f : α → Int) (xs ys : List α) :
    total f (xs ++ ys) = total f xs + total f ys := by
  simp [total]

variable {f : α → Int}

theorem total_congr {g : α → Int} (same : ∀ r ∈ rows, f r = g r) : total f rows = total g rows := by
  unfold total
  rw [List.map_congr_left same]

theorem total_updateWhere (f : α → Int) (p : α → Bool) (g : α → α) (rows : List α) :
    total f (updateWhere p g rows) = total (fun r => f (if p r then g r else r)) rows := by
  simp [total, updateWhere, Function.comp_def]

theorem total_add (f g : α → Int) (rows : List α) :
    total (fun r => f r + g r) rows = total f rows + total g rows := by
  simp [total, List.sum_map_add]

theorem total_eq_zero (zero : ∀ r ∈ rows, f r = 0) : total f rows = 0 := by
  unfold total
  apply List.sum_eq_zero
  intro x hx
  obtain ⟨r, hr, rfl⟩ := List.mem_map.mp hx
  exact zero r hr

theorem total_nonneg (nonneg : ∀ r ∈ rows, 0 ≤ f r) : 0 ≤ total f rows := by
  unfold total
  apply List.sum_nonneg
  intro x hx
  obtain ⟨r, hr, rfl⟩ := List.mem_map.mp hx
  exact nonneg r hr

variable {r : α}

theorem le_total (nonneg : ∀ r ∈ rows, 0 ≤ f r) (mem : r ∈ rows) : f r ≤ total f rows :=
  List.single_le_sum (by simpa using nonneg) _ (List.mem_map_of_mem mem)

theorem total_mono {g : α → Int} (le : ∀ r ∈ rows, f r ≤ g r) : total f rows ≤ total g rows :=
  List.sum_le_sum le

variable {xs : List α}

theorem total_perm (f : α → Int) {ys : List α} (perm : xs.Perm ys) : total f xs = total f ys :=
  (perm.map f).sum_eq

theorem total_once (distinct : rows.Nodup)
    (once : ∀ r ∈ rows, ∀ r' ∈ rows, p r = true → p r' = true → r = r') (c : Int) :
    total (fun r => if p r then c else 0) rows = if rows.any p then c else 0 := by
  induction rows with
  | nil => rfl
  | cons r rows ih =>
    rw [List.nodup_cons] at distinct
    have rest := ih distinct.2 fun x mem y mem' =>
      once x (List.mem_cons_of_mem r mem) y (List.mem_cons_of_mem r mem')
    rw [total_cons, rest]
    by_cases counts : p r = true
    · have alone : rows.any p = false := by
        rw [List.any_eq_false]
        intro x mem hx
        have := once r List.mem_cons_self x (List.mem_cons_of_mem r mem) counts hx
        exact distinct.1 (this ▸ mem)
      simp [counts, alone]
    · simp [counts]

theorem total_filter (f : α → Int) (p : α → Bool) (rows : List α) :
    total f (rows.filter p) = total (fun r => if p r then f r else 0) rows := by
  induction rows with
  | nil => rfl
  | cons r rows ih =>
    by_cases h : p r = true
    · simp [List.filter_cons_of_pos h, h, ih]
    · simp [List.filter_cons_of_neg h, h, ih]

section Keyed

variable {key : α → κ}

theorem nodup_concat (unique : (rows.map key).Nodup)
    (fresh : ∀ x ∈ rows, key x ≠ key r) : ((rows ++ [r]).map key).Nodup := by
  rw [List.map_append, List.nodup_append]
  refine ⟨unique, by simp, ?_⟩
  intro a ha b hb
  obtain ⟨x, mem, rfl⟩ := List.mem_map.mp ha
  rw [List.map_singleton, List.mem_singleton] at hb
  exact hb ▸ fresh x mem

theorem injOn_concat {β : Type} {f : α → β} (unique : ∀ x ∈ rows, ∀ y ∈ rows, f x = f y → x = y)
    (fresh : ∀ x ∈ rows, f x ≠ f r) : ∀ x ∈ rows ++ [r], ∀ y ∈ rows ++ [r], f x = f y → x = y := by
  simp only [List.forall_mem_append, List.forall_mem_singleton]
  exact ⟨fun x mem => ⟨unique x mem, fun same => absurd same (fresh x mem)⟩,
    fun y mem same => absurd same.symm (fresh y mem), fun _ => trivial⟩

theorem eq_of_key (unique : (rows.map key).Nodup) {r' : α} (mem : r ∈ rows)
    (mem' : r' ∈ rows) (same : key r = key r') : r = r' :=
  List.inj_on_of_nodup_map unique mem mem' same

variable [DecidableEq κ]

theorem find_key {k : κ}
    (found : rows.find? (fun r => key r = k) = some r) : r ∈ rows ∧ key r = k :=
  ⟨List.mem_of_find?_eq_some found, by simpa using List.find?_some found⟩

theorem find_of_mem (unique : (rows.map key).Nodup) (mem : r ∈ rows) :
    rows.find? (fun x => key x = key r) = some r := by
  cases h : rows.find? (fun x => key x = key r) with
  | none =>
    have := List.find?_eq_none.mp h r mem
    simp at this
  | some r' =>
    obtain ⟨mem', same⟩ := find_key h
    rw [eq_of_key unique mem' mem same]

theorem find_updateWhere {f : α → α} (same : ∀ r, key (f r) = key r) (p : α → Bool) (k : κ)
    (rows : List α) :
    (updateWhere p f rows).find? (fun r => key r = k) =
      (rows.find? (fun r => key r = k)).map (fun r => if p r then f r else r) := by
  have keys : ∀ r, key (if p r then f r else r) = key r := by
    intro r
    split
    · exact same r
    · rfl
  rw [updateWhere, List.find?_map]
  simp only [Function.comp_def, keys]

theorem updateWhere_key (unique : (rows.map key).Nodup) {k : κ}
    (only : ∀ r, p r = true → key r = k) (hit : rows.any p = true) (f : α → α) :
    updateWhere p f rows = updateWhere (fun r => key r = k) f rows := by
  obtain ⟨r₀, mem₀, h₀⟩ := List.any_eq_true.mp hit
  apply updateWhere_congr
  intro r mem
  rw [Bool.eq_iff_iff, decide_eq_true_iff]
  refine ⟨only r, fun h => ?_⟩
  rwa [eq_of_key unique mem mem₀ (h.trans (only r₀ h₀).symm)]

theorem total_key (unique : (rows.map key).Nodup) (mem : r ∈ rows)
    (f : α → Int) : total (fun x => if key x = key r then f x else 0) rows = f r := by
  induction rows with
  | nil => cases mem
  | cons x rows ih =>
    simp only [List.map_cons, List.nodup_cons] at unique
    simp only [total_cons]
    rcases List.mem_cons.mp mem with rfl | mem
    · have rest : total (fun y => if key y = key r then f y else 0) rows = 0 := by
        apply total_eq_zero
        intro y hy
        have : key y ≠ key r := fun e => unique.1 (e ▸ List.mem_map_of_mem hy)
        simp [this]
      simp [rest]
    · have ne : key x ≠ key r := fun e => unique.1 (e ▸ List.mem_map_of_mem mem)
      simp [ne, ih unique.2 mem]

theorem total_updateWhere_key (unique : (rows.map key).Nodup)
    (mem : r ∈ rows) (f : α → Int) (g : α → α) :
    total f (updateWhere (fun x => key x = key r) g rows) = total f rows + (f (g r) - f r) := by
  rw [total_updateWhere, ← total_key unique mem (fun x => f (g x) - f x), ← total_add]
  apply total_congr
  intro x _
  by_cases same : key x = key r
  · simp only [same, decide_true, if_true]
    omega
  · simp [same]

omit [DecidableEq κ] in
theorem total_le_of_key [DecidableEq α] (unique : (xs.map key).Nodup) :
    ∀ {ys : List α}, (∀ y ∈ ys, 0 ≤ f y) → (∀ x ∈ xs, ∃ y ∈ ys, key y = key x ∧ f x ≤ f y) →
      total f xs ≤ total f ys := by
  induction xs with
  | nil => exact fun nonneg _ => total_nonneg nonneg
  | cons x xs ih =>
    intro ys nonneg below
    rw [List.map_cons, List.nodup_cons] at unique
    obtain ⟨⟨y, mem, same, le⟩, below⟩ := List.forall_mem_cons.mp below
    have rest : total f xs ≤ total f (ys.erase y) := by
      refine ih unique.2 (fun z memz => nonneg z (List.mem_of_mem_erase memz)) ?_
      intro x' mem'
      obtain ⟨y', memy', same', le'⟩ := below x' mem'
      have ne : y' ≠ y := by
        rintro rfl
        exact unique.1 (same.symm.trans same' ▸ List.mem_map_of_mem mem')
      exact ⟨y', (List.mem_erase_of_ne ne).mpr memy', same', le'⟩
    rw [total_perm f (List.perm_cons_erase mem), total_cons, total_cons]
    omega

omit [DecidableEq κ] in
theorem total_eq_of_keys {β : Type} [DecidableEq β] {key' : β → κ} {g : β → Int}
    (unique : (xs.map key).Nodup) :
    ∀ {ys : List β}, (ys.map key').Nodup → (∀ x ∈ xs, ∃ y ∈ ys, key' y = key x ∧ g y = f x) →
      (∀ y ∈ ys, ∃ x ∈ xs, key x = key' y) → total f xs = total g ys := by
  induction xs with
  | nil =>
    intro ys _ _ covered
    rw [List.eq_nil_iff_forall_not_mem.mpr fun y mem => (covered y mem).elim fun _ h => nomatch h.1]
    rfl
  | cons x xs ih =>
    intro ys unique' matched covered
    rw [List.map_cons, List.nodup_cons] at unique
    obtain ⟨⟨y, mem, same, value⟩, matched⟩ := List.forall_mem_cons.mp matched
    have rest : total f xs = total g (ys.erase y) := by
      apply ih unique.2 (unique'.sublist ((List.erase_sublist ..).map key'))
      · intro x' mem'
        obtain ⟨y', memy', same', value'⟩ := matched x' mem'
        have ne : y' ≠ y := by
          rintro rfl
          exact unique.1 (same.symm.trans same' ▸ List.mem_map_of_mem mem')
        exact ⟨y', (List.mem_erase_of_ne ne).mpr memy', same', value'⟩
      · intro y' mem'
        obtain ⟨ne, memy'⟩ := (List.Nodup.mem_erase_iff unique'.of_map).mp mem'
        obtain ⟨x', memx', same'⟩ := covered y' memy'
        rcases List.mem_cons.mp memx' with rfl | memx'
        · exact absurd (List.inj_on_of_nodup_map unique' memy' mem (same'.symm.trans same.symm)) ne
        · exact ⟨x', memx', same'⟩
    rw [total_perm g (List.perm_cons_erase mem), total_cons, total_cons, value, rest]

end Keyed

end Table
