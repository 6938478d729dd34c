import YunhouUsers.ReadCommitted.Txn

/-!
Concurrent sessions under READ COMMITTED.

Every statement is one atomic step.  It sees what is committed when it runs plus the
writes of its own transaction, and it runs only when none of its row locks conflicts
with a lock another open transaction holds.  Locks are kept until the transaction ends.
A blocked session simply has no step; a deadlock victim or a dead connection is `kill`.
-/

namespace ReadCommitted

/-- The program of one session: statements with transaction ends between them. -/
inductive Proc (σ κ ℓ ρ : Type) where
  | done (result : ρ)
  | killed
  | stmt (label : ℓ) (locks : σ → List (κ × LockMode)) (write : σ → σ → σ)
      (next : σ → Proc σ κ ℓ ρ)
  | commit (next : Proc σ κ ℓ ρ)
  | rollback (next : Proc σ κ ℓ ρ)

variable {σ κ ℓ ε α β ρ ι η : Type}

/-- Runs the statements of a body and goes on with its result, inside the same
transaction. -/
def Txn.andThen : Txn σ κ ℓ ε α → (Except ε α → Proc σ κ ℓ ρ) → Proc σ κ ℓ ρ
  | .pure a, k => k (.ok a)
  | .throw e, k => k (.error e)
  | .stmt l ks w n, k => .stmt l ks w (fun view => (n view).andThen k)

/-- Go's transaction bracket: commit when the body returns, roll back when it errs. -/
def Txn.inTx (t : Txn σ κ ℓ ε α) (k : Except ε α → Proc σ κ ℓ ρ) : Proc σ κ ℓ ρ :=
  t.andThen fun
    | .ok a => .commit (k (.ok a))
    | .error e => .rollback (k (.error e))

structure Session (σ κ ℓ ρ : Type) where
  code : Proc σ κ ℓ ρ
  /-- Writes of the open transaction, not yet visible to others. -/
  pending : σ → σ

def Session.fresh (code : Proc σ κ ℓ ρ) : Session σ κ ℓ ρ := ⟨code, id⟩

structure Config (σ κ ℓ ρ ι : Type) where
  db : σ
  held : List (ι × κ × LockMode)
  session : ι → Session σ κ ℓ ρ

/-- What the scheduler may do next; `env` is anything outside the sessions, such as the
passing of time. -/
inductive Action (ι η : Type) where
  | step (i : ι)
  | kill (i : ι)
  | env (e : η)
deriving DecidableEq

namespace Config

variable (c : Config σ κ ℓ ρ ι)

def locksOf [DecidableEq ι] (i : ι) : List (κ × LockMode) :=
  (c.held.filter (fun l => l.1 = i)).map (fun l => l.2)

def free [DecidableEq ι] [DecidableEq κ] (i : ι) (want : List (κ × LockMode)) : Bool :=
  c.held.all fun l => l.1 = i || want.all fun k => k.1 ≠ l.2.1 || !k.2.conflicts l.2.2

def view (i : ι) : σ := (c.session i).pending c.db

def setSession [DecidableEq ι] (i : ι) (s : Session σ κ ℓ ρ) : ι → Session σ κ ℓ ρ :=
  Function.update c.session i s

def finish [DecidableEq ι] (i : ι) (db : σ) (code : Proc σ κ ℓ ρ) : Config σ κ ℓ ρ ι :=
  { db := db
    held := c.held.filter (fun l => l.1 ≠ i)
    session := c.setSession i (.fresh code) }

def afterStmt [DecidableEq ι] (i : ι) (want : List (κ × LockMode))
    (s : Session σ κ ℓ ρ) : Config σ κ ℓ ρ ι :=
  { c with held := want.map (fun k => (i, k)) ++ c.held, session := c.setSession i s }

def next [DecidableEq ι] [DecidableEq κ] (env : η → σ → σ) (c : Config σ κ ℓ ρ ι) :
    Action ι η → Option (Config σ κ ℓ ρ ι)
  | .env e => some { c with db := env e c.db }
  | .kill i => some (c.finish i c.db .killed)
  | .step i =>
    match (c.session i).code with
    | .done _ => none
    | .killed => none
    | .commit n => some (c.finish i (c.view i) n)
    | .rollback n => some (c.finish i c.db n)
    | .stmt _ ks w n =>
      let v := c.view i
      if c.free i (ks v) then
        some (c.afterStmt i (ks v) ⟨n v, fun db => w v ((c.session i).pending db)⟩)
      else
        none

/-- A schedule; `none` when it asks for a step that is not enabled. -/
def run [DecidableEq ι] [DecidableEq κ] (env : η → σ → σ) (c : Config σ κ ℓ ρ ι) :
    List (Action ι η) → Option (Config σ κ ℓ ρ ι)
  | [] => some c
  | a :: as => (c.next env a).bind (fun c' => c'.run env as)

/-- Every step of the schedule meets `P` in the configuration it starts from. -/
def Along [DecidableEq ι] [DecidableEq κ] (env : η → σ → σ)
    (P : Config σ κ ℓ ρ ι → Action ι η → Prop) (c : Config σ κ ℓ ρ ι) :
    List (Action ι η) → Prop
  | [] => True
  | a :: as => P c a ∧ ∀ c', c.next env a = some c' → c'.Along env P as

instance Along.decidable [DecidableEq ι] [DecidableEq κ] (env : η → σ → σ)
    (P : Config σ κ ℓ ρ ι → Action ι η → Prop) [∀ c a, Decidable (P c a)] :
    (c : Config σ κ ℓ ρ ι) → (as : List (Action ι η)) → Decidable (c.Along env P as)
  | _, [] => .isTrue trivial
  | c, a :: as =>
    match stepped : c.next env a with
    | none => decidable_of_iff (P c a) (by simp [Along, stepped])
    | some c' =>
      have := Along.decidable env P c' as
      decidable_of_iff (P c a ∧ c'.Along env P as) (by simp [Along, stepped])

def start (db : σ) (code : ι → Proc σ κ ℓ ρ) : Config σ κ ℓ ρ ι :=
  { db := db, held := [], session := fun i => .fresh (code i) }

variable [DecidableEq ι] [DecidableEq κ] {env : η → σ → σ} {c c' : Config σ κ ℓ ρ ι}

theorem next_cases {a : Action ι η} (stepped : c.next env a = some c') :
    (∃ e, a = .env e ∧ c' = { c with db := env e c.db }) ∨
    (∃ i, a = .kill i ∧ c' = c.finish i c.db .killed) ∨
    (∃ i n, a = .step i ∧ (c.session i).code = .commit n ∧ c' = c.finish i (c.view i) n) ∨
    (∃ i n, a = .step i ∧ (c.session i).code = .rollback n ∧ c' = c.finish i c.db n) ∨
    (∃ i l ks w n, a = .step i ∧ (c.session i).code = .stmt l ks w n ∧
      c.free i (ks (c.view i)) = true ∧
      c' = c.afterStmt i (ks (c.view i))
        ⟨n (c.view i), fun db => w (c.view i) ((c.session i).pending db)⟩) := by
  cases a with
  | env e => exact .inl ⟨e, rfl, (Option.some.inj stepped).symm⟩
  | kill i => exact .inr (.inl ⟨i, rfl, (Option.some.inj stepped).symm⟩)
  | step i =>
    simp only [next] at stepped
    split at stepped
    · contradiction
    · contradiction
    · rename_i n code
      exact .inr (.inr (.inl ⟨i, n, rfl, code, (Option.some.inj stepped).symm⟩))
    · rename_i n code
      exact .inr (.inr (.inr (.inl ⟨i, n, rfl, code, (Option.some.inj stepped).symm⟩)))
    · rename_i l ks w n code
      split at stepped
      · rename_i enabled
        exact .inr (.inr (.inr (.inr
          ⟨i, l, ks, w, n, rfl, code, enabled, (Option.some.inj stepped).symm⟩)))
      · contradiction

theorem run_preserves_of (I : Config σ κ ℓ ρ ι → Prop)
    (P : Config σ κ ℓ ρ ι → Action ι η → Prop)
    (keeps : ∀ c a c', I c → P c a → c.next env a = some c' → I c')
    (as : List (Action ι η)) (inv : I c) (along : c.Along env P as)
    (ran : c.run env as = some c') : I c' := by
  induction as generalizing c with
  | nil => exact Option.some.inj ran ▸ inv
  | cons a as ih =>
    simp only [run, Option.bind_eq_some_iff] at ran
    obtain ⟨m, stepped, rest⟩ := ran
    exact ih (keeps c a m inv along.1 stepped) (along.2 m stepped) rest

theorem Along.mono {P Q : Config σ κ ℓ ρ ι → Action ι η → Prop} (weaker : ∀ c a, P c a → Q c a)
    {as : List (Action ι η)} (along : c.Along env P as) : c.Along env Q as := by
  induction as generalizing c with
  | nil => trivial
  | cons a as ih => exact ⟨weaker c a along.1, fun c' stepped => ih (along.2 c' stepped)⟩

theorem along_true (as : List (Action ι η)) : c.Along env (fun _ _ => True) as := by
  induction as generalizing c with
  | nil => trivial
  | cons a as ih => exact ⟨trivial, fun _ _ => ih⟩

theorem run_append (as bs : List (Action ι η)) :
    c.run env (as ++ bs) = (c.run env as).bind (fun m => m.run env bs) := by
  induction as generalizing c with
  | nil => rfl
  | cons a as ih =>
    simp only [List.cons_append, run, Option.bind_assoc]
    congr 1
    funext m
    exact ih

end Config

end ReadCommitted
