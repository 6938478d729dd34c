import Mathlib.Data.List.Basic

/-!
A subscriber of a keyed table gets a change log and, at some later moment, a snapshot.  It reads
the snapshot first and replays the whole log over it, so changes made before the snapshot are
applied a second time.
-/

namespace Replay

variable {K V : Type} [DecidableEq K]

/-- A change sets a key (`some`) or removes it (`none`). -/
abbrev Change (K V : Type) := K × Option V

def replay (log : List (Change K V)) (view : K → Option V) : K → Option V :=
  log.foldl (fun view change => Function.update view change.1 change.2) view

@[simp] theorem replay_nil (view : K → Option V) : replay [] view = view := rfl

theorem replay_cons (change : Change K V) (log : List (Change K V)) (view : K → Option V) :
    replay (change :: log) view = replay log (Function.update view change.1 change.2) := rfl

theorem replay_append (log more : List (Change K V)) (view : K → Option V) :
    replay (log ++ more) view = replay more (replay log view) :=
  List.foldl_append

theorem replay_keeps_or_sets (log : List (Change K V)) (k : K) :
    (∀ view, replay log view k = view k) ∨ ∃ x, ∀ view, replay log view k = x := by
  induction log with
  | nil => exact .inl fun _ => rfl
  | cons change log ih =>
    rcases ih with keeps | ⟨x, sets⟩
    · by_cases same : k = change.1
      · refine .inr ⟨change.2, fun view => ?_⟩
        rw [replay_cons, keeps, same, Function.update_self]
      · refine .inl fun view => ?_
        rw [replay_cons, keeps, Function.update_of_ne same]
    · exact .inr ⟨x, fun view => sets _⟩

def Announces (changes : List (Change K V)) (before after : K → Option V) (k : K) : Prop :=
  ∀ view : K → Option V, view k = before k → replay changes view k = after k

namespace Announces

variable {log changes : List (Change K V)} {before after table table' : K → Option V} {k : K}

theorem nil (same : after k = before k) : Announces [] before after k := by
  intro view shows
  rw [replay_nil, shows, same]

theorem of_agree (agree : ∀ change ∈ changes, change.2 = after change.1)
    (same : after k = before k) : Announces changes before after k := by
  intro view shows
  rw [← same] at shows
  induction changes generalizing view with
  | nil => exact shows
  | cons change changes ih =>
    rw [replay_cons]
    refine ih (fun c mem => agree c (List.mem_cons_of_mem _ mem)) _ ?_
    by_cases eq : k = change.1
    · rw [eq, Function.update_self, agree change List.mem_cons_self]
    · rw [Function.update_of_ne eq, shows]

theorem of_mention (agree : ∀ change ∈ changes, change.2 = after change.1)
    (mention : ∃ change ∈ changes, change.1 = k) : Announces changes before after k := by
  intro view _
  obtain ⟨change, mem, key⟩ := mention
  obtain ⟨front, back, rfl⟩ := List.append_of_mem mem
  -- from the last but `back` entries on the view is right, and `back` keeps it so
  have settles : Announces back after after k :=
    of_agree (fun c later => agree c (by simp [later])) rfl
  rw [replay_append, replay_cons]
  refine settles _ ?_
  rw [← key, Function.update_self, agree change mem]

theorem shown {base : K → Option V} (announces : Announces changes table table' k)
    (shows : replay log base k = table k) : replay (log ++ changes) base k = table' k := by
  rw [replay_append]
  exact announces _ shows

theorem continued (current : Announces log table table k)
    (announces : Announces changes table table' k) :
    Announces (log ++ changes) table' table' k := by
  intro view shows
  rw [replay_append]
  rcases replay_keeps_or_sets log k with keeps | ⟨x, sets⟩
  · rcases replay_keeps_or_sets changes k with keeps' | ⟨y, sets'⟩
    · rw [keeps', keeps, shows]
    · rw [sets', ← sets' table, announces table rfl]
  · refine announces _ ?_
    rw [sets, ← sets table, current table rfl]

end Announces

end Replay
