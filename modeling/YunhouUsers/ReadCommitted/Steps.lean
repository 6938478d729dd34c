import YunhouUsers.ReadCommitted.Contract

/-!
Rules for bodies whose knowledge is stable from where it is found, under contracts that check
nothing.
-/

namespace ReadCommitted

variable {σ κ ℓ ε α β ρ ι η π : Type}
  {t : Txn σ κ ℓ ε α} {f : β → Txn σ κ ℓ ε α} {e : ε} {label : ℓ}
  {locks : σ → List (κ × LockMode)} {read : σ → α} {result : σ → Except ε α}

def Txn.Steps (C : Contract σ κ ℓ) (t : Txn σ κ ℓ ε α) (K : σ → Prop) (held : List (κ × LockMode))
    (pending : σ → σ) (post : Post σ κ (Except ε α)) : Prop :=
  (∀ l held db view, C.checks l held db view) → C.Stable held K →
    t.Follows C K held pending fun r K held pending =>
      (∀ a, r = .ok a → C.Stable held K) ∧ post r K held pending

namespace Txn

variable {C : Contract σ κ ℓ} {K : σ → Prop} {held : List (κ × LockMode)} {pending : σ → σ}
  {post : Post σ κ (Except ε α)}

theorem Steps.mono {post' : Post σ κ (Except ε α)} (h : t.Steps C K held pending post)
    (weaker : ∀ r K held pending, post r K held pending → post' r K held pending) :
    t.Steps C K held pending post' :=
  fun unchecked stable => (h unchecked stable).mono fun r K held pending done =>
    ⟨done.1, weaker r K held pending done.2⟩

theorem Steps.bind {x : Txn σ κ ℓ ε β}
    (h : x.Steps C K held pending (fun r K held pending =>
      match r with
      | .ok b => (f b).Steps C K held pending post
      | .error e => post (.error e) K held pending)) : (x >>= f).Steps C K held pending post := by
  intro unchecked stable
  apply Follows.bind
  apply (h unchecked stable).mono
  intro r K held pending done
  cases r with
  | ok b => exact done.2 unchecked (done.1 b rfl)
  | error e => exact ⟨nofun, done.2⟩

theorem Steps.failAt (h : t.Steps C K held pending post)
    (failed : ∀ K held pending, post (.error e) K held pending) (n : Nat) :
    (t.failAt e n).Steps C K held pending post :=
  fun unchecked stable => (h unchecked stable).failAt (fun _ _ _ => ⟨nofun, failed _ _ _⟩) n

theorem Steps.pure {a : α} (h : post (.ok a) K held pending) :
    (Pure.pure a : Txn σ κ ℓ ε α).Steps C K held pending post :=
  fun _ stable => ⟨fun _ _ => stable, h⟩

theorem Steps.throw (h : post (.error e) K held pending) :
    (Txn.throw e : Txn σ κ ℓ ε α).Steps C K held pending post :=
  fun _ _ => ⟨nofun, h⟩

theorem Steps.require {ok : Bool} {post : Post σ κ (Except ε Unit)}
    (met : ok = true → post (.ok ()) K held pending)
    (missed : ok = false → post (.error e) K held pending) :
    (Txn.require ok e : Txn σ κ ℓ ε Unit).Steps C K held pending post := by
  cases ok with
  | true => exact .pure (met rfl)
  | false => exact .throw (missed rfl)

theorem Steps.queryLocking
    (h : ∀ db, C.inv db → K db → ∃ K', K' db ∧ C.Stable (locks (pending db) ++ held) K' ∧
      post (.ok (read (pending db))) K' (locks (pending db) ++ held) pending) :
    (Txn.queryLocking label locks read : Txn σ κ ℓ ε α).Steps C K held pending post :=
  fun unchecked stable => ⟨stable.at _, fun db inv known _ => by
    obtain ⟨K', k, stable', done⟩ := h db inv known
    exact ⟨unchecked _ _ _ _, K', k, fun _ _ => stable', done⟩⟩

theorem Steps.query
    (h : ∀ db, C.inv db → K db → ∃ K', K' db ∧ C.Stable held K' ∧
      post (.ok (read (pending db))) K' held pending) :
    (Txn.query label read : Txn σ κ ℓ ε α).Steps C K held pending post :=
  show (Txn.queryLocking label (fun _ => []) read).Steps C K held pending post from .queryLocking h

theorem Steps.exec {write : σ → σ → σ}
    (h : ∀ db, C.inv db → K db → C.ready label db → ∃ K', K' db ∧
      C.Stable (locks (pending db) ++ held) K' ∧
      post (result (pending db)) K' (locks (pending db) ++ held)
        (fun d => write (pending db) (pending d))) :
    (Txn.exec label locks write result : Txn σ κ ℓ ε α).Steps C K held pending post :=
  fun unchecked stable => .exec (stable.at _) fun db inv known ready => by
    obtain ⟨K', k, stable', done⟩ := h db inv known ready
    exact ⟨unchecked _ _ _ _, K', k, fun _ _ => stable', done⟩

variable {E : Proc σ κ ℓ ρ → σ → σ → Prop} {k : Except ε α → Proc σ κ ℓ ρ}

theorem Steps.andThen (unchecked : ∀ l held db view, C.checks l held db view)
    (stable : C.Stable held K)
    (h : t.Steps C K held pending fun r K held pending =>
      (∀ a, r = .ok a → C.Stable held K) → (k r).Meets C E K held pending) :
    (t.andThen k).Meets C E K held pending :=
  Follows.andThen ((h unchecked stable).mono fun _ _ _ _ done => done.2 done.1)

theorem Steps.inTx (unchecked : ∀ l held db view, C.checks l held db view)
    (stable : C.Stable held K)
    (h : t.Steps C K held pending fun r K held pending =>
      match r with
      | .ok a => C.Stable held K → (Proc.commit (k (.ok a))).Meets C E K held pending
      | .error e => (Proc.rollback (k (.error e))).Meets C E K held pending) :
    (t.inTx k).Meets C E K held pending := by
  apply Steps.andThen unchecked stable
  apply h.mono
  intro r K held pending done stable
  cases r with
  | ok a => exact done (stable a rfl)
  | error e => exact done

end Txn

variable (D : Discipline σ κ)

def Discipline.contract : Contract σ κ ℓ := { D with }

theorem Discipline.ready (c : Config σ κ ℓ ρ ι) (a : Action ι η) : c.Ready D.contract a := by
  cases a with
  | env e => trivial
  | kill i => trivial
  | step i =>
    show (c.session i).code.ReadyAt D.contract c.db
    cases (c.session i).code <;> trivial

/-- Started with knowledge `K`, locks `held` and writes `pending`, the body reaches `post` if it
returns. -/
def Txn.Runs (t : Txn σ κ ℓ ε α) (K : σ → Prop) (held : List (κ × LockMode))
    (pending : σ → σ) (post : Post σ κ α) : Prop :=
  t.Steps D.contract K held pending (onOk post)

namespace Txn

variable {D : Discipline σ κ} {K : σ → Prop} {held : List (κ × LockMode)} {pending : σ → σ}
  {post : Post σ κ α}

theorem Runs.bind {x : Txn σ κ ℓ ε β}
    (h : x.Runs D K held pending (fun b K held pending => (f b).Runs D K held pending post)) :
    (x >>= f).Runs D K held pending post := by
  apply Steps.bind
  apply Steps.mono h
  intro r K held pending ran
  cases r with
  | ok b => exact ran
  | error e => trivial

theorem Runs.pure {a : α} (h : post a K held pending) :
    (Pure.pure a : Txn σ κ ℓ ε α).Runs D K held pending post :=
  Steps.pure h

theorem Runs.throw (e : ε) : (Txn.throw e : Txn σ κ ℓ ε α).Runs D K held pending post :=
  Steps.throw trivial

theorem Runs.require {ok : Bool} {post : Post σ κ Unit} (h : ok = true → post () K held pending) :
    (Txn.require ok e : Txn σ κ ℓ ε Unit).Runs D K held pending post :=
  Steps.require h fun _ => trivial

theorem Runs.orThrow {row : Option α} (h : ∀ a, row = some a → post a K held pending) :
    (Txn.orThrow row e : Txn σ κ ℓ ε α).Runs D K held pending post := by
  cases row with
  | none => exact .throw e
  | some a => exact .pure (h a rfl)

theorem Runs.queryLocking
    (h : ∀ db, D.inv db → K db → ∃ K', K' db ∧ D.Stable (locks (pending db) ++ held) K' ∧
      post (read (pending db)) K' (locks (pending db) ++ held) pending) :
    (Txn.queryLocking label locks read : Txn σ κ ℓ ε α).Runs D K held pending post :=
  Steps.queryLocking h

theorem Runs.query
    (h : ∀ db, D.inv db → K db → ∃ K', K' db ∧ D.Stable held K' ∧
      post (read (pending db)) K' held pending) :
    (Txn.query label read : Txn σ κ ℓ ε α).Runs D K held pending post :=
  Steps.query h

theorem Runs.exec {write : σ → σ → σ}
    (h : ∀ db a, D.inv db → K db → result (pending db) = .ok a →
      ∃ K', K' db ∧ D.Stable (locks (pending db) ++ held) K' ∧
        post a K' (locks (pending db) ++ held) (fun d => write (pending db) (pending d))) :
    (Txn.exec label locks write result : Txn σ κ ℓ ε α).Runs D K held pending post := by
  apply Steps.exec
  intro db inv known _
  cases outcome : result (pending db) with
  | ok a => exact h db a inv known outcome
  | error e => exact ⟨fun _ => True, trivial, D.stable_true _, trivial⟩

theorem Keeps.runs {part : σ → π} (keeps : t.Keeps part) (stable : D.Stable held K)
    (done : ∀ a held' pending', held ⊆ held' → D.Stable held' K →
      (∀ db, part (pending' db) = part (pending db)) → post a K held' pending') :
    t.Runs D K held pending post := by
  intro unchecked _
  have framed : t.Meets D.contract K held pending fun a K held pending =>
      D.Stable held K ∧ post a K held pending :=
    keeps.meets unchecked stable fun a held' pending' more stable' same =>
      ⟨stable', done a held' pending' more stable' same⟩
  apply Follows.mono framed
  intro r K held pending done
  cases r with
  | ok a => exact ⟨fun _ _ => done.1, done.2⟩
  | error e => exact ⟨nofun, trivial⟩

theorem Runs.inTx (t : Txn σ κ ℓ ε α) (k : Except ε α → Proc σ κ ℓ ρ)
    (rest : ∀ r, (k r).Meets D.contract noTerms (fun _ => True) [] id)
    (h : t.Runs D (fun _ => True) [] id (fun _ K held pending =>
      ∀ db, D.inv db → K db → D.inv (pending db) ∧ D.guarantee held db (pending db))) :
    (t.inTx k).Meets D.contract noTerms (fun _ => True) [] id := by
  apply Follows.andThen
  apply (h (fun _ _ _ _ => trivial) (D.stable_true _)).mono
  intro r K held pending done
  cases r with
  | ok a => exact .commit ⟨(done.1 a rfl).at _, done.2⟩ (fun _ _ _ => trivial) (rest _)
  | error e => exact .rollback (rest _)

end Txn

end ReadCommitted
