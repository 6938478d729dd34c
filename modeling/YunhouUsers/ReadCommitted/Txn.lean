import Mathlib.Data.List.Basic

/-!
A database transaction as a tree of SQL statements.

A statement reads the rows visible when it runs, may take row locks, may write,
and hands what it read to the rest of the transaction.  `Txn.eval` runs the whole
tree with nobody else on the database; the interleaved meaning is in `Session`.
-/

namespace ReadCommitted

/-- Row-lock modes of PostgreSQL, weakest first. -/
inductive LockMode where
  | keyShare
  | share
  | noKeyUpdate
  | update
deriving DecidableEq

/-- The row-lock conflict table: `FOR UPDATE` excludes everybody, a plain `UPDATE`
(`noKeyUpdate`) lets only foreign-key checks (`keyShare`) through. -/
def LockMode.conflicts : LockMode → LockMode → Bool
  | .update, _ => true
  | _, .update => true
  | .noKeyUpdate, .keyShare => false
  | .keyShare, .noKeyUpdate => false
  | .noKeyUpdate, _ => true
  | _, .noKeyUpdate => true
  | _, _ => false

theorem LockMode.conflicts_comm (a b : LockMode) : a.conflicts b = b.conflicts a := by
  cases a <;> cases b <;> rfl

@[simp] theorem LockMode.update_conflicts (m : LockMode) : LockMode.update.conflicts m = true := by
  cases m <;> rfl

@[simp] theorem LockMode.conflicts_update (m : LockMode) : m.conflicts .update = true := by
  cases m <;> rfl

/-- A transaction body over the database `σ`, with lockable objects `κ`, statement
names `ℓ`, errors `ε` and result `α`.  `write view` is what the statement does to the
database; it is replayed on the committed state when the transaction commits. -/
inductive Txn (σ κ ℓ ε α : Type) where
  | pure (a : α)
  | throw (e : ε)
  | stmt (label : ℓ) (locks : σ → List (κ × LockMode)) (write : σ → σ → σ)
      (next : σ → Txn σ κ ℓ ε α)

namespace Txn

variable {σ κ ℓ ε α β : Type}

def bind : Txn σ κ ℓ ε α → (α → Txn σ κ ℓ ε β) → Txn σ κ ℓ ε β
  | .pure a, f => f a
  | .throw e, _ => .throw e
  | .stmt l ks w n, f => .stmt l ks w (fun s => (n s).bind f)

instance : Monad (Txn σ κ ℓ ε) where
  pure := .pure
  bind := .bind

def query (label : ℓ) (read : σ → α) : Txn σ κ ℓ ε α :=
  .stmt label (fun _ => []) (fun _ db => db) (fun view => .pure (read view))

/-- A read that locks rows (`SELECT … FOR UPDATE`, `FOR SHARE`). -/
def queryLocking (label : ℓ) (locks : σ → List (κ × LockMode)) (read : σ → α) :
    Txn σ κ ℓ ε α :=
  .stmt label locks (fun _ db => db) (fun view => .pure (read view))

/-- A writing statement; `result` is computed from the rows seen before the write. -/
def exec (label : ℓ) (locks : σ → List (κ × LockMode)) (write : σ → σ → σ)
    (result : σ → Except ε α) : Txn σ κ ℓ ε α :=
  .stmt label locks write (fun view =>
    match result view with
    | .ok a => .pure a
    | .error e => .throw e)

def require (ok : Bool) (e : ε) : Txn σ κ ℓ ε Unit :=
  if ok then .pure () else .throw e

def when (c : Bool) (t : Txn σ κ ℓ ε Unit) : Txn σ κ ℓ ε Unit :=
  if c then t else .pure ()

/-- Go's `if err == sql.ErrNoRows { return err }` on a one-row read. -/
def orThrow (row : Option α) (e : ε) : Txn σ κ ℓ ε α :=
  match row with
  | some a => .pure a
  | none => .throw e

/-- The transaction alone on the database: its result and the state it leaves, or the
error that rolls it back. -/
def eval : Txn σ κ ℓ ε α → σ → Except ε (α × σ)
  | .pure a, s => .ok (a, s)
  | .throw e, _ => .error e
  | .stmt _ _ w n, s => (n s).eval (w s s)

def apply (t : Txn σ κ ℓ ε α) (s : σ) : σ :=
  match t.eval s with
  | .ok (_, s') => s'
  | .error _ => s

@[simp] theorem eval_pure (a : α) (s : σ) :
    (Pure.pure a : Txn σ κ ℓ ε α).eval s = .ok (a, s) := rfl

@[simp] theorem eval_pure_node (a : α) (s : σ) :
    (.pure a : Txn σ κ ℓ ε α).eval s = .ok (a, s) := rfl

@[simp] theorem eval_throw (e : ε) (s : σ) :
    (.throw e : Txn σ κ ℓ ε α).eval s = .error e := rfl

theorem map_ok {x : Except ε α} {f : α → β} {b : β} :
    x.map f = .ok b ↔ ∃ a, x = .ok a ∧ f a = b := by
  cases x <;> simp [Except.map]

variable (l : ℓ)

@[simp] theorem eval_query (read : σ → α) (s : σ) :
    (query l read : Txn σ κ ℓ ε α).eval s = .ok (read s, s) := rfl

@[simp] theorem eval_queryLocking (ks : σ → List (κ × LockMode)) (read : σ → α) (s : σ) :
    (queryLocking l ks read : Txn σ κ ℓ ε α).eval s = .ok (read s, s) := rfl

@[simp] theorem eval_exec (ks : σ → List (κ × LockMode)) (w : σ → σ → σ)
    (result : σ → Except ε α) (s : σ) :
    (exec l ks w result).eval s = (result s).map (fun a => (a, w s s)) := by
  simp only [exec, eval]
  cases result s <;> rfl

@[simp] theorem eval_query_bind (read : σ → α) (f : α → Txn σ κ ℓ ε β) (s : σ) :
    (query l read >>= f).eval s = (f (read s)).eval s := rfl

@[simp] theorem eval_queryLocking_bind (ks : σ → List (κ × LockMode)) (read : σ → α)
    (f : α → Txn σ κ ℓ ε β) (s : σ) :
    (queryLocking l ks read >>= f).eval s = (f (read s)).eval s := rfl

variable (x : Txn σ κ ℓ ε α)

theorem eval_bind (f : α → Txn σ κ ℓ ε β) (s : σ) :
    (x >>= f).eval s = (x.eval s).bind (fun r => (f r.1).eval r.2) := by
  show (x.bind f).eval s = _
  induction x generalizing s with
  | pure a => rfl
  | throw e => rfl
  | stmt l ks w n ih => exact ih s (w s s)

theorem eval_bind_of_ok {x : Txn σ κ ℓ ε α} {f : α → Txn σ κ ℓ ε β} {s s' : σ} {a : α}
    (ok : x.eval s = .ok (a, s')) : (x >>= f).eval s = (f a).eval s' := by
  rw [eval_bind, ok]
  rfl

theorem eval_bind_ok (f : α → Txn σ κ ℓ ε β) (s : σ) (r : β × σ) :
    (x >>= f).eval s = .ok r ↔ ∃ a s', x.eval s = .ok (a, s') ∧ (f a).eval s' = .ok r := by
  rw [eval_bind]
  cases h : x.eval s with
  | error e => simp [Except.bind]
  | ok p =>
    obtain ⟨a, s'⟩ := p
    simp [Except.bind]

theorem eval_bind_error (f : α → Txn σ κ ℓ ε β) (s : σ) (e : ε) :
    (x >>= f).eval s = .error e ↔
      x.eval s = .error e ∨ ∃ a s', x.eval s = .ok (a, s') ∧ (f a).eval s' = .error e := by
  rw [eval_bind]
  cases h : x.eval s with
  | error e => simp [Except.bind]
  | ok p =>
    obtain ⟨a, s'⟩ := p
    simp [Except.bind]

theorem eval_require_error (ok : Bool) (e e' : ε) (s : σ) :
    (require ok e : Txn σ κ ℓ ε Unit).eval s = .error e' ↔ ok = false ∧ e' = e := by
  cases ok <;> simp [require, eq_comm]

theorem eval_require_ok (ok : Bool) (e : ε) (s : σ) (r : Unit × σ) :
    (require ok e : Txn σ κ ℓ ε Unit).eval s = .ok r ↔ ok = true ∧ r = ((), s) := by
  cases ok <;> simp [require, eq_comm]

theorem eval_orThrow_ok (row : Option α) (e : ε) (s : σ) (r : α × σ) :
    (orThrow row e : Txn σ κ ℓ ε α).eval s = .ok r ↔ ∃ a, row = some a ∧ r = (a, s) := by
  cases row <;> simp [orThrow, eq_comm]

theorem eval_exec_ok (ks : σ → List (κ × LockMode)) (w : σ → σ → σ)
    (result : σ → Except ε α) (s : σ) (r : α × σ) :
    (exec l ks w result).eval s = .ok r ↔ ∃ a, result s = .ok a ∧ r = (a, w s s) := by
  rw [eval_exec, map_ok]
  simp only [eq_comm]

theorem apply_of_ok {t : Txn σ κ ℓ ε α} {s s' : σ} {a : α} (ok : t.eval s = .ok (a, s')) :
    t.apply s = s' := by
  simp [apply, ok]

theorem apply_of_error {t : Txn σ κ ℓ ε α} {s : σ} {e : ε} (failed : t.eval s = .error e) :
    t.apply s = s := by
  simp [apply, failed]

theorem apply_preserves (t : Txn σ κ ℓ ε α) (I : σ → Prop) (s : σ) (inv : I s)
    (keeps : ∀ a s', t.eval s = .ok (a, s') → I s') : I (t.apply s) := by
  unfold apply
  split
  · rename_i a s' h
    exact keeps a s' h
  · exact inv

end Txn

end ReadCommitted
