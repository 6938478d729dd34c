import YunhouUsers.ReadCommitted.Session

/-!
Rely–guarantee reasoning for READ COMMITTED sessions.

Each program is checked on its own against an invariant `I` of the committed state and
a guarantee `G held db db'`, what a transaction holding the locks `held` may do to the
committed state.  Between two statements a session keeps only knowledge that survives
every commit made under locks compatible with its own.
-/

namespace ReadCommitted

variable {σ κ ℓ ε α β ρ ι η : Type}

def Compatible (xs ys : List (κ × LockMode)) : Prop :=
  ∀ x ∈ xs, ∀ y ∈ ys, x.1 = y.1 → x.2.conflicts y.2 = false

variable {xs ys : List (κ × LockMode)}

theorem Compatible.symm (h : Compatible xs ys) : Compatible ys xs := by
  intro y hy x hx e
  rw [LockMode.conflicts_comm]
  exact h x hx y hy e.symm

theorem Compatible.nil_left (ys : List (κ × LockMode)) : Compatible [] ys := by
  simp [Compatible]

theorem Compatible.append_left {xs' : List (κ × LockMode)} (h : Compatible xs ys)
    (h' : Compatible xs' ys) : Compatible (xs ++ xs') ys := by
  intro x hx
  rcases List.mem_append.mp hx with hx | hx
  · exact h x hx
  · exact h' x hx

theorem Compatible.not_mem (h : Compatible xs ys) {k : κ}
    {m m' : LockMode} (mine : (k, m) ∈ xs) (conflict : m.conflicts m' = true) : (k, m') ∉ ys := by
  intro theirs
  have := h _ mine _ theirs rfl
  simp [conflict] at this

/-- The shared terms: an invariant of the committed state and what one commit may do. -/
structure Discipline (σ κ : Type) where
  inv : σ → Prop
  guarantee : List (κ × LockMode) → σ → σ → Prop
  idle : ∀ held db, guarantee held db db

/-- Knowledge that no commit compatible with the locks `held` can break. -/
def Discipline.Stable (D : Discipline σ κ) (held : List (κ × LockMode)) (K : σ → Prop) : Prop :=
  ∀ other db db', Compatible held other → D.inv db → D.inv db' → D.guarantee other db db' →
    K db → K db'

theorem Discipline.stable_true (D : Discipline σ κ) (held : List (κ × LockMode)) :
    D.Stable held (fun _ => True) := fun _ _ _ _ _ _ _ _ => trivial

variable {D : Discipline σ κ} {held : List (κ × LockMode)} {K : σ → Prop}

theorem Discipline.Stable.mono {held' : List (κ × LockMode)}
    (h : D.Stable held K) (more : held ⊆ held') : D.Stable held' K := by
  intro other db db' compatible
  exact h other db db' (fun x hx => compatible x (more hx))

theorem Discipline.Stable.append (h : D.Stable held K) (more : List (κ × LockMode)) :
    D.Stable (more ++ held) K := h.mono (List.subset_append_right more held)

theorem Discipline.Stable.and {K' : σ → Prop} (h : D.Stable held K) (h' : D.Stable held K') :
    D.Stable held (fun db => K db ∧ K' db) :=
  fun other db db' c i i' g k => ⟨h other db db' c i i' g k.1, h' other db db' c i i' g k.2⟩

namespace Config

variable [DecidableEq ι] (c : Config σ κ ℓ ρ ι)

theorem mem_locksOf (i : ι) (k : κ × LockMode) : k ∈ c.locksOf i ↔ (i, k) ∈ c.held := by
  simp only [locksOf, List.mem_map, List.mem_filter, decide_eq_true_eq]
  constructor
  · rintro ⟨⟨j, k'⟩, ⟨mem, rfl⟩, rfl⟩
    exact mem
  · intro mem
    exact ⟨(i, k), ⟨mem, rfl⟩, rfl⟩

@[simp] theorem locksOf_finish_self (i : ι) (db : σ)
    (code : Proc σ κ ℓ ρ) : (c.finish i db code).locksOf i = [] := by
  simp [locksOf, finish, List.filter_filter]

variable {i j : ι}

theorem locksOf_finish_of_ne (ne : j ≠ i) (db : σ)
    (code : Proc σ κ ℓ ρ) : (c.finish i db code).locksOf j = c.locksOf j := by
  simp only [locksOf, finish, List.filter_filter]
  congr 1
  apply List.filter_congr
  intro l _
  by_cases h : l.1 = j
  · simp [h, ne]
  · simp [h]

@[simp] theorem session_finish_self (i : ι) (db : σ) (code : Proc σ κ ℓ ρ) :
    (c.finish i db code).session i = .fresh code := by
  simp [finish, setSession]

theorem session_finish_of_ne (ne : j ≠ i) (db : σ)
    (code : Proc σ κ ℓ ρ) : (c.finish i db code).session j = c.session j := by
  simp [finish, setSession, Function.update_of_ne ne]

theorem locksOf_afterStmt_self (i : ι) (want : List (κ × LockMode))
    (s : Session σ κ ℓ ρ) : (c.afterStmt i want s).locksOf i = want ++ c.locksOf i := by
  have mine : (want.map (fun k => (i, k))).filter (fun l => l.1 = i) =
      want.map (fun k => (i, k)) := by
    rw [List.filter_eq_self]
    intro l hl
    obtain ⟨k, _, rfl⟩ := List.mem_map.mp hl
    simp
  simp only [locksOf, afterStmt, List.filter_append, mine, List.map_append, List.map_map]
  simp [Function.comp_def]

theorem locksOf_afterStmt_of_ne (ne : j ≠ i) (want : List (κ × LockMode)) (s : Session σ κ ℓ ρ) :
    (c.afterStmt i want s).locksOf j = c.locksOf j := by
  have theirs : (want.map (fun k => (i, k))).filter (fun l => l.1 = j) = [] := by
    rw [List.filter_eq_nil_iff]
    intro l hl
    obtain ⟨k, _, rfl⟩ := List.mem_map.mp hl
    simp [Ne.symm ne]
  simp [locksOf, afterStmt, theirs]

@[simp] theorem session_afterStmt_self (i : ι) (want : List (κ × LockMode)) (s : Session σ κ ℓ ρ) :
    (c.afterStmt i want s).session i = s := by
  simp [afterStmt, setSession]

theorem session_afterStmt_of_ne (ne : j ≠ i) (want : List (κ × LockMode)) (s : Session σ κ ℓ ρ) :
    (c.afterStmt i want s).session j = c.session j := by
  simp [afterStmt, setSession, Function.update_of_ne ne]

def LocksExclude : Prop :=
  ∀ i j, i ≠ j → Compatible (c.locksOf i) (c.locksOf j)

theorem locksExclude_start (db : σ) (code : ι → Proc σ κ ℓ ρ) :
    (start db code).LocksExclude := by
  intro i j _
  simp [Compatible, locksOf, start]

variable {c : Config σ κ ℓ ρ ι}

theorem LocksExclude.finish (ex : c.LocksExclude) (i : ι) (db : σ)
    (code : Proc σ κ ℓ ρ) : (c.finish i db code).LocksExclude := by
  intro a b ne
  by_cases ha : a = i
  · subst ha
    simpa using Compatible.nil_left _
  · by_cases hb : b = i
    · subst hb
      simpa using (Compatible.nil_left _).symm
    · rw [locksOf_finish_of_ne c ha, locksOf_finish_of_ne c hb]
      exact ex a b ne

variable [DecidableEq κ] {want : List (κ × LockMode)}

theorem compatible_of_free (ne : j ≠ i) (free : c.free i want = true) :
    Compatible want (c.locksOf j) := by
  intro x hx y hy same
  have held := (mem_locksOf c j y).mp hy
  simp only [Config.free, List.all_eq_true] at free
  have h := free (j, y) held
  simp only [Bool.or_eq_true, decide_eq_true_eq, ne, false_or, List.all_eq_true] at h
  have := h x hx
  simpa [same] using this

theorem LocksExclude.afterStmt (ex : c.LocksExclude) (i : ι)
    (free : c.free i want = true) (s : Session σ κ ℓ ρ) : (c.afterStmt i want s).LocksExclude := by
  have mine : ∀ j, j ≠ i → Compatible (want ++ c.locksOf i) (c.locksOf j) := fun j ne =>
    (compatible_of_free ne free).append_left (ex i j ne.symm)
  intro a b ne
  by_cases ha : a = i
  · subst ha
    rw [locksOf_afterStmt_self, locksOf_afterStmt_of_ne c ne.symm]
    exact mine b ne.symm
  · rw [locksOf_afterStmt_of_ne c ha]
    by_cases hb : b = i
    · subst hb
      rw [locksOf_afterStmt_self]
      exact (mine a ha).symm
    · rw [locksOf_afterStmt_of_ne c hb]
      exact ex a b ne

def EnvAllowed (D : Discipline σ κ) (env : η → σ → σ) : Prop :=
  ∀ e db, D.inv db → D.inv (env e db) ∧ D.guarantee [] db (env e db)

end Config

end ReadCommitted
