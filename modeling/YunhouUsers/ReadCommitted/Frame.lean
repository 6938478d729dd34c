import YunhouUsers.ReadCommitted.Session

/-!
Transaction bodies that leave a part of the database alone.
-/

namespace ReadCommitted

variable {σ κ ℓ ε α β π : Type}

def Txn.Keeps (part : σ → π) : Txn σ κ ℓ ε α → Prop
  | .pure _ => True
  | .throw _ => True
  | .stmt _ _ w n => (∀ view db, part (w view db) = part db) ∧ ∀ view, (n view).Keeps part

namespace Txn

variable {part : σ → π}

theorem Keeps.bind {x : Txn σ κ ℓ ε β} {f : β → Txn σ κ ℓ ε α} (hx : x.Keeps part)
    (hf : ∀ b, (f b).Keeps part) : (x >>= f).Keeps part := by
  show (x.bind f).Keeps part
  induction x with
  | pure b => exact hf b
  | throw e => trivial
  | stmt l ks w n ih => exact ⟨hx.1, fun view => ih view (hx.2 view)⟩

theorem Keeps.pure (a : α) : (Pure.pure a : Txn σ κ ℓ ε α).Keeps part := trivial

theorem Keeps.throw (e : ε) : (Txn.throw e : Txn σ κ ℓ ε α).Keeps part := trivial

theorem Keeps.require (ok : Bool) (e : ε) :
    (Txn.require ok e : Txn σ κ ℓ ε Unit).Keeps part := by
  unfold Txn.require
  split <;> trivial

theorem Keeps.orThrow (row : Option α) (e : ε) :
    (Txn.orThrow row e : Txn σ κ ℓ ε α).Keeps part := by
  cases row <;> trivial

theorem Keeps.when {c : Bool} {t : Txn σ κ ℓ ε Unit} (h : t.Keeps part) :
    (Txn.when c t).Keeps part := by
  unfold Txn.when
  split
  · exact h
  · trivial

theorem Keeps.query (label : ℓ) (read : σ → α) :
    (Txn.query label read : Txn σ κ ℓ ε α).Keeps part := ⟨fun _ _ => rfl, fun _ => trivial⟩

theorem Keeps.queryLocking (label : ℓ) (locks : σ → List (κ × LockMode)) (read : σ → α) :
    (Txn.queryLocking label locks read : Txn σ κ ℓ ε α).Keeps part :=
  ⟨fun _ _ => rfl, fun _ => trivial⟩

theorem Keeps.exec {label : ℓ} {locks : σ → List (κ × LockMode)} {write : σ → σ → σ}
    {result : σ → Except ε α} (h : ∀ view db, part (write view db) = part db) :
    (Txn.exec label locks write result : Txn σ κ ℓ ε α).Keeps part := by
  refine ⟨h, fun view => ?_⟩
  cases outcome : result view <;> simp [outcome, Keeps]

theorem Keeps.eval {t : Txn σ κ ℓ ε α} (keeps : t.Keeps part) {s s' : σ} {a : α}
    (ran : t.eval s = .ok (a, s')) : part s' = part s := by
  induction t generalizing s with
  | pure b =>
    cases ran
    rfl
  | throw e => cases ran
  | stmt l ks w n ih => rw [ih s (keeps.2 s) ran, keeps.1 s s]

end Txn

end ReadCommitted
