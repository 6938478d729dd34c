import Mathlib.Data.List.Pairwise
import Mathlib.Order.MinMax

/-!
Closed intervals kept as a list of pairwise disjoint ones.

A new interval swallows every one it meets. Their union is an interval again, so nothing is covered
afterwards that was not covered before.
-/

namespace YunhouUsers

structure Interval (α : Type) where
  lo : α
  hi : α
deriving DecidableEq

namespace Interval

variable {α : Type} [LinearOrder α]

instance : Membership α (Interval α) where
  mem i x := i.lo ≤ x ∧ x ≤ i.hi

variable {i j w : Interval α} {is : List (Interval α)} {x : α}

theorem mem_iff : x ∈ i ↔ i.lo ≤ x ∧ x ≤ i.hi := Iff.rfl

instance : Decidable (x ∈ i) := inferInstanceAs (Decidable (_ ∧ _))

/-- The comparison of end points that finds the intervals in the way of `w`. -/
def meets (w i : Interval α) : Bool := i.lo ≤ w.hi && i.hi ≥ w.lo

def hull (w i : Interval α) : Interval α where
  lo := min w.lo i.lo
  hi := max w.hi i.hi

def point (x : α) : Interval α := ⟨x, x⟩

theorem mem_point : x ∈ point x := ⟨le_rfl, le_rfl⟩

theorem meets_iff : w.meets i = true ↔ i.lo ≤ w.hi ∧ w.lo ≤ i.hi := by
  simp [meets]

theorem meets_of_common (left : x ∈ w) (right : x ∈ i) : w.meets i = true :=
  meets_iff.mpr ⟨right.1.trans left.2, left.1.trans right.2⟩

theorem mem_hull_of (inside : x ∈ w ∨ x ∈ i) : x ∈ w.hull i := by
  rcases inside with inside | inside
  · exact ⟨min_le_of_left_le inside.1, le_max_of_le_left inside.2⟩
  · exact ⟨min_le_of_right_le inside.1, le_max_of_le_right inside.2⟩

theorem mem_foldl_hull_of (inside : x ∈ w ∨ ∃ i ∈ is, x ∈ i) : x ∈ is.foldl hull w := by
  induction is generalizing w with
  | nil => simpa using inside
  | cons i is ih =>
    apply ih
    rcases inside with inside | ⟨j, mem, inside⟩
    · exact .inl (mem_hull_of (.inl inside))
    · rcases List.mem_cons.mp mem with rfl | later
      · exact .inl (mem_hull_of (.inr inside))
      · exact .inr ⟨j, later, inside⟩

theorem mem_hull (met : w.meets i = true) : x ∈ w.hull i ↔ x ∈ w ∨ x ∈ i := by
  obtain ⟨below, above⟩ := meets_iff.mp met
  constructor
  · rintro ⟨lower, upper⟩
    have lower' : w.lo ≤ x ∨ i.lo ≤ x := min_le_iff.mp lower
    have upper' : x ≤ w.hi ∨ x ≤ i.hi := le_max_iff.mp upper
    by_cases inside : x ∈ w
    · exact .inl inside
    · apply Or.inr
      rw [mem_iff, not_and_or, not_le, not_le] at inside
      rcases inside with early | late
      · exact ⟨lower'.resolve_left early.not_ge, early.le.trans above⟩
      · exact ⟨below.trans late.le, upper'.resolve_left late.not_ge⟩
  · exact mem_hull_of

theorem meets_hull (met : w.meets j = true) : (w.hull i).meets j = true := by
  obtain ⟨below, above⟩ := meets_iff.mp met
  exact meets_iff.mpr ⟨le_max_of_le_left below, min_le_of_left_le above⟩

theorem mem_foldl_hull (met : ∀ i ∈ is, w.meets i = true) :
    x ∈ is.foldl hull w ↔ x ∈ w ∨ ∃ i ∈ is, x ∈ i := by
  induction is generalizing w with
  | nil => simp
  | cons i is ih =>
    have later : ∀ j ∈ is, (w.hull i).meets j = true :=
      fun j mem => meets_hull (met j (List.mem_cons_of_mem _ mem))
    rw [List.foldl_cons, ih later, mem_hull (met i List.mem_cons_self)]
    simp [or_assoc]

def absorb (w : Interval α) (is : List (Interval α)) : List (Interval α) :=
  is.filter (fun i => !w.meets i) ++ [(is.filter w.meets).foldl hull w]

def Apart (is : List (Interval α)) : Prop :=
  is.Pairwise fun i j => ∀ x, x ∈ i → x ∉ j

theorem mem_absorb : (∃ i ∈ absorb w is, x ∈ i) ↔ x ∈ w ∨ ∃ i ∈ is, x ∈ i := by
  have met : ∀ i ∈ is.filter w.meets, w.meets i = true := fun i mem => (List.mem_filter.mp mem).2
  simp only [absorb, List.mem_append, List.mem_singleton, or_and_right, exists_or, exists_eq_left,
    mem_foldl_hull met, List.mem_filter]
  constructor
  · rintro (⟨i, ⟨mem, -⟩, inside⟩ | inside | ⟨i, ⟨mem, -⟩, inside⟩)
    · exact .inr ⟨i, mem, inside⟩
    · exact .inl inside
    · exact .inr ⟨i, mem, inside⟩
  · rintro (inside | ⟨i, mem, inside⟩)
    · exact .inr (.inl inside)
    · by_cases met : w.meets i = true
      · exact .inr (.inr ⟨i, ⟨mem, met⟩, inside⟩)
      · exact .inl ⟨i, ⟨mem, by simpa using met⟩, inside⟩

theorem Apart.disjoint (apart : Apart is) (mem : i ∈ is) (mem' : j ∈ is) (differ : i ≠ j) (x : α)
    (inside : x ∈ i) : x ∉ j := by
  have symm : Std.Symm fun a b : Interval α => ∀ x, x ∈ a → x ∉ b :=
    ⟨fun a b apart x right left => apart x left right⟩
  exact apart.forall mem mem' differ x inside

theorem Apart.absorb (apart : Apart is) (w : Interval α) : Apart (absorb w is) := by
  have met : ∀ i ∈ is.filter w.meets, w.meets i = true := fun i mem => (List.mem_filter.mp mem).2
  apply List.pairwise_append.mpr
  refine ⟨apart.filter _, List.pairwise_singleton _ _, ?_⟩
  intro i kept merged last x inside swallowed
  obtain ⟨mem, clear⟩ := List.mem_filter.mp kept
  rw [List.mem_singleton.mp last, mem_foldl_hull met] at swallowed
  rcases swallowed with new | ⟨j, old, inside'⟩
  · rw [meets_of_common new inside] at clear
    cases clear
  · obtain ⟨mem', meets'⟩ := List.mem_filter.mp old
    apply apart.disjoint mem mem' _ x inside inside'
    rintro rfl
    rw [meets'] at clear
    cases clear

end Interval

end YunhouUsers
