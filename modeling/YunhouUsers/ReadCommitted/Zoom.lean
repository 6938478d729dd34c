import YunhouUsers.ReadCommitted.Frame

/-!
A transaction body on a part of a larger database.
-/

namespace ReadCommitted

variable {σ τ κ κ' ℓ ℓ' ε ε' α β π : Type}

/-- The body runs on the part that `get` reads and `put` replaces. -/
def Txn.zoom (get : τ → σ) (put : σ → τ → τ) (key : κ → κ') (name : ℓ → ℓ') (fail : ε → ε') :
    Txn σ κ ℓ ε α → Txn τ κ' ℓ' ε' α
  | .pure a => .pure a
  | .throw e => .throw (fail e)
  | .stmt l ks w n => .stmt (name l) (fun t => (ks (get t)).map fun k => (key k.1, k.2))
      (fun view t => put (w (get view) (get t)) t)
      fun t => (n (get t)).zoom get put key name fail

variable {get : τ → σ} {put : σ → τ → τ} {key : κ → κ'} {name : ℓ → ℓ'} {fail : ε → ε'}

theorem Txn.zoom_keeps {part : τ → π} (apart : ∀ s t, part (put s t) = part t) (t : Txn σ κ ℓ ε α) :
    (t.zoom get put key name fail).Keeps part := by
  induction t with
  | pure a => trivial
  | throw e => trivial
  | stmt l ks w n ih => exact ⟨fun _ _ => apart _ _, fun view => ih _⟩

theorem Txn.zoom_bind (x : Txn σ κ ℓ ε α) (f : α → Txn σ κ ℓ ε β) :
    (x >>= f).zoom get put key name fail
      = x.zoom get put key name fail >>= fun a => (f a).zoom get put key name fail := by
  show (x.bind f).zoom get put key name fail = (x.zoom get put key name fail).bind _
  induction x with
  | pure a => rfl
  | throw e => rfl
  | stmt l ks w n ih =>
    simp only [Txn.bind, Txn.zoom, Txn.stmt.injEq, true_and]
    funext t
    exact ih _

theorem Txn.zoom_exec (label : ℓ) (locks : σ → List (κ × LockMode)) (write : σ → σ → σ)
    (result : σ → Except ε α) :
    (Txn.exec label locks write result).zoom get put key name fail
      = Txn.exec (name label) (fun t => (locks (get t)).map fun k => (key k.1, k.2))
          (fun view t => put (write (get view) (get t)) t)
          (fun t => (result (get t)).mapError fail) := by
  simp only [Txn.exec, Txn.zoom, Txn.stmt.injEq, true_and]
  funext t
  cases result (get t) with
  | ok a => rfl
  | error e => rfl

theorem Txn.zoom_queryLocking (kept : ∀ t, put (get t) t = t) (label : ℓ)
    (locks : σ → List (κ × LockMode)) (read : σ → α) :
    (Txn.queryLocking label locks read : Txn σ κ ℓ ε α).zoom get put key name fail
      = Txn.queryLocking (name label) (fun t => (locks (get t)).map fun k => (key k.1, k.2))
          (fun t => read (get t)) := by
  simp only [Txn.queryLocking, Txn.zoom, Txn.stmt.injEq, true_and, and_true]
  funext _ t
  exact kept t

theorem Txn.zoom_query (kept : ∀ t, put (get t) t = t) (label : ℓ) (read : σ → α) :
    (Txn.query label read : Txn σ κ ℓ ε α).zoom get put key name fail
      = Txn.query (name label) fun t => read (get t) := by
  simp only [Txn.query, Txn.zoom, Txn.stmt.injEq, true_and, and_true]
  refine ⟨rfl, ?_⟩
  funext _ t
  exact kept t

theorem Txn.zoom_orThrow (row : Option α) (e : ε) :
    (Txn.orThrow row e : Txn σ κ ℓ ε α).zoom get put key name fail
      = Txn.orThrow row (fail e) := by
  cases row with
  | none => rfl
  | some a => rfl

theorem Txn.zoom_require (ok : Bool) (e : ε) :
    (Txn.require ok e : Txn σ κ ℓ ε Unit).zoom get put key name fail
      = Txn.require ok (fail e) := by
  cases ok with
  | false => rfl
  | true => rfl

end ReadCommitted
