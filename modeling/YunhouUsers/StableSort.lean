import Mathlib.Data.List.Sort

/-!
Stable sorting by a comparison, and the first item of the sorted list that passes a test.

The comparison is read through a key: `Ranks less key` says that `less` compares keys in a linear
order. Where the keys of a list differ, the item found depends on the items only and not on where
they stand.
-/

namespace YunhouUsers

variable {α κ : Type} [LinearOrder κ] (less : α → α → Bool)

/-- An item goes before the first one that is not less than it. -/
def sortStable (xs : List α) : List α :=
  xs.insertionSort (fun a b => less b a = false)

def firstBy (p : α → Bool) (xs : List α) : Option α :=
  (sortStable less xs).find? p

def Ranks (key : α → κ) : Prop :=
  ∀ a b, less a b = true ↔ key a < key b

variable {less : α → α → Bool} {key : α → κ} {p q : α → Bool} {xs ys : List α} {x : α}

@[simp] theorem mem_sortStable : x ∈ sortStable less xs ↔ x ∈ xs :=
  List.mem_insertionSort _

theorem Ranks.not_less (ranks : Ranks less key) (a b : α) :
    less b a = false ↔ key a ≤ key b := by
  rw [← Bool.not_eq_true, ranks b a, not_lt]

theorem Ranks.sorted (ranks : Ranks less key) (xs : List α) :
    (sortStable less xs).Pairwise (fun a b => key a ≤ key b) := by
  have total : Std.Total (fun a b => less b a = false) :=
    ⟨fun a b => by
      rw [ranks.not_less, ranks.not_less]
      exact le_total (key a) (key b)⟩
  have trans : IsTrans α (fun a b => less b a = false) :=
    ⟨fun a b c ab bc => by
      rw [ranks.not_less] at ab bc ⊢
      exact ab.trans bc⟩
  refine (List.pairwise_insertionSort (fun a b => less b a = false) xs).imp ?_
  intro a b le
  exact (ranks.not_less a b).mp le

theorem firstBy_eq_none : firstBy less p xs = none ↔ ∀ y ∈ xs, p y = false := by
  simp [firstBy]

theorem Ranks.firstBy_spec (ranks : Ranks less key) (found : firstBy less p xs = some x) :
    x ∈ xs ∧ p x = true ∧ ∀ y ∈ xs, p y = true → key x ≤ key y := by
  obtain ⟨passes, before, after, split, failing⟩ := List.find?_eq_some_iff_append.mp found
  have sorted := ranks.sorted xs
  rw [split, List.pairwise_append, List.pairwise_cons] at sorted
  have here : ∀ y, y ∈ xs ↔ y ∈ before ∨ y = x ∨ y ∈ after := by
    intro y
    have moved : y ∈ sortStable less xs ↔ y ∈ xs := mem_sortStable
    rw [← moved, split]
    simp
  refine ⟨(here x).mpr (.inr (.inl rfl)), passes, ?_⟩
  intro y mem ok
  rcases (here y).mp mem with early | rfl | late
  · have fails := failing y early
    rw [ok] at fails
    cases fails
  · exact le_rfl
  · exact sorted.2.1.1 y late

theorem Ranks.firstBy_eq_some (ranks : Ranks less key) (distinct : (xs.map key).Nodup) :
    firstBy less p xs = some x ↔ x ∈ xs ∧ p x = true ∧ ∀ y ∈ xs, p y = true → key x ≤ key y := by
  constructor
  · exact ranks.firstBy_spec
  · rintro ⟨mem, passes, least⟩
    cases found : firstBy less p xs with
    | none => simp [firstBy_eq_none.mp found x mem] at passes
    | some y =>
      obtain ⟨mem', passes', least'⟩ := ranks.firstBy_spec found
      have same : key y = key x := le_antisymm (least' x mem passes) (least y mem' passes')
      rw [List.inj_on_of_nodup_map distinct mem' mem same]

theorem Ranks.firstBy_congr (ranks : Ranks less key) (distinct : (xs.map key).Nodup)
    (distinct' : (ys.map key).Nodup) (same : ∀ y, y ∈ xs ∧ p y = true ↔ y ∈ ys ∧ q y = true) :
    firstBy less p xs = firstBy less q ys := by
  have shared : ∀ y, firstBy less p xs = some y ↔ firstBy less q ys = some y := by
    intro y
    rw [ranks.firstBy_eq_some distinct, ranks.firstBy_eq_some distinct']
    grind
  cases found : firstBy less q ys with
  | some y => exact (shared y).mpr found
  | none =>
    rw [firstBy_eq_none] at found ⊢
    intro y mem
    by_contra passes
    have other := (same y).mp ⟨mem, by simpa using passes⟩
    simp [found y other.1] at other

end YunhouUsers
