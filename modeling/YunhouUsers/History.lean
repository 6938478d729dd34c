import Mathlib.Data.List.Basic

/-!
Histories of a state machine: what holds step by step, and what a whole history keeps.
-/

namespace History

variable {σ α : Type} {step : σ → α → σ}

/-- Every step meets `P` in the state it is taken in. -/
def Along (step : σ → α → σ) (P : σ → α → Prop) : σ → List α → Prop
  | _, [] => True
  | s, a :: as => P s a ∧ Along step P (step s a) as

variable {P : σ → α → Prop} {as : List α}

theorem Along.initial {s : σ} {done : List α} (along : Along step P s as)
    (initial : done <+: as) : Along step P s done := by
  obtain ⟨rest, rfl⟩ := initial
  induction done generalizing s with
  | nil => trivial
  | cons a done ih => exact ⟨along.1, ih along.2⟩

theorem along_of_forall {P : α → Prop} {s : σ} (each : ∀ a ∈ as, P a) :
    Along step (fun _ => P) s as := by
  induction as generalizing s with
  | nil => trivial
  | cons a as ih =>
    obtain ⟨first, rest⟩ := List.forall_mem_cons.mp each
    exact ⟨first, ih rest⟩

theorem Along.and {Q : σ → α → Prop} {s : σ} (along : Along step P s as)
    (along' : Along step Q s as) : Along step (fun s a => P s a ∧ Q s a) s as := by
  induction as generalizing s with
  | nil => trivial
  | cons a as ih => exact ⟨⟨along.1, along'.1⟩, ih along.2 along'.2⟩

theorem foldl_keeps {I : σ → Prop} (keeps : ∀ s a, I s → P s a → I (step s a)) {s : σ} (start : I s)
    (along : Along step P s as) : I (as.foldl step s) := by
  induction as generalizing s with
  | nil => exact start
  | cons a as ih => exact ih (keeps s a start along.1) along.2

theorem update_all {ι β : Type} [DecidableEq ι] {parties : ι → β} {Q : ι → β → Prop} {i : ι} {b : β}
    (mine : Q i b) (others : ∀ j, j ≠ i → Q j (parties j)) (j : ι) :
    Q j (Function.update parties i b j) := by
  by_cases same : j = i
  · subst same
    simpa using mine
  · simpa [same] using others j same

end History
