import YunhouUsers.ReadCommitted.Frame
import YunhouUsers.ReadCommitted.RelyGuarantee

/-!
Rely–guarantee reasoning for programs and the schedules that spare them.

A contract adds to a discipline what the schedule promises (a statement that does not run in some
states, a read that nobody overtakes) and what has to hold where a statement runs that no rollback
takes back. Between two transactions a program keeps only what no commit breaks.
-/

namespace ReadCommitted

variable {σ κ ℓ ℓ' ε α β ρ ι η π : Type}

inductive Point (ℓ : Type) where
  | before (label : ℓ)
  | commit
  | out

def Proc.point : Proc σ κ ℓ ρ → Point ℓ
  | .stmt l _ _ _ => .before l
  | .commit _ => .commit
  | _ => .out

structure Contract (σ κ ℓ : Type) extends Discipline σ κ where
  /-- The committed state a statement runs in. -/
  ready : ℓ → σ → Prop := fun _ _ => True
  /-- The commits of others while a session stands at a point with its locks. -/
  spares : Point ℓ → List (κ × LockMode) → σ → σ → Prop := fun _ _ _ _ => True
  /-- By the locks of the session, the committed state and what the statement sees. -/
  checks : ℓ → List (κ × LockMode) → σ → σ → Prop := fun _ _ _ _ => True

def Proc.ReadyAt (C : Contract σ κ ℓ) (db : σ) : Proc σ κ ℓ ρ → Prop
  | .stmt l _ _ _ => C.ready l db
  | _ => True

instance Proc.ReadyAt.decidable (C : Contract σ κ ℓ) [∀ l db, Decidable (C.ready l db)] (db : σ) :
    (p : Proc σ κ ℓ ρ) → Decidable (p.ReadyAt C db)
  | .stmt l _ _ _ => inferInstanceAs (Decidable (C.ready l db))
  | .commit _ => .isTrue trivial
  | .rollback _ => .isTrue trivial
  | .done _ => .isTrue trivial
  | .killed => .isTrue trivial

/-- Knowledge that no commit breaks which is compatible with the locks `held` and spares the
point. -/
def Contract.StableAt (C : Contract σ κ ℓ) (p : Point ℓ) (held : List (κ × LockMode))
    (K : σ → Prop) : Prop :=
  ∀ other db db', Compatible held other → C.inv db → C.inv db' → C.guarantee other db db' →
    C.spares p held db db' → K db → K db'

theorem Discipline.Stable.at {C : Contract σ κ ℓ} {held : List (κ × LockMode)} {K : σ → Prop}
    (stable : C.Stable held K) (p : Point ℓ) : C.StableAt p held K :=
  fun other db db' compatible inv inv' allowed _ => stable other db db' compatible inv inv' allowed

abbrev Post (σ κ α : Type) := α → (σ → Prop) → List (κ × LockMode) → (σ → σ) → Prop

/-- The rest of a program keeps to the contract when it starts with knowledge `K`, locks `held` and
uncommitted writes `pending`; `E` is said of every commit and what follows it. -/
def Proc.Meets (C : Contract σ κ ℓ) (E : Proc σ κ ℓ ρ → σ → σ → Prop) :
    Proc σ κ ℓ ρ → (σ → Prop) → List (κ × LockMode) → (σ → σ) → Prop
  | .done _, _, _, _ => True
  | .killed, _, _, _ => True
  | .commit n, K, held, pending =>
    C.StableAt .commit held K ∧
    (∀ db, C.inv db → K db → (C.inv (pending db) ∧ C.guarantee held db (pending db)) ∧
      E n db (pending db)) ∧
    ∃ K', C.Stable [] K' ∧ (∀ db, C.inv db → K db → K' (pending db)) ∧ n.Meets C E K' [] id
  | .rollback n, K, _, _ =>
    ∃ K', C.Stable [] K' ∧ (∀ db, C.inv db → K db → K' db) ∧ n.Meets C E K' [] id
  | .stmt l ks w n, K, held, pending =>
    C.StableAt (.before l) held K ∧
    ∀ db, C.inv db → K db → C.ready l db → C.checks l held db (pending db) ∧
      ∃ K', K' db ∧ (n (pending db)).Meets C E K' (ks (pending db) ++ held)
        (fun d => w (pending db) (pending d))

def noTerms (_ : Proc σ κ ℓ ρ) (_ _ : σ) : Prop := True

/-- The same for a transaction body, up to where it returns or errs. -/
def Txn.Follows (C : Contract σ κ ℓ) :
    Txn σ κ ℓ ε α → (σ → Prop) → List (κ × LockMode) → (σ → σ) → Post σ κ (Except ε α) → Prop
  | .pure a, K, held, pending, post => post (.ok a) K held pending
  | .throw e, K, held, pending, post => post (.error e) K held pending
  | .stmt l ks w n, K, held, pending, post =>
    C.StableAt (.before l) held K ∧
    ∀ db, C.inv db → K db → C.ready l db → C.checks l held db (pending db) ∧
      ∃ K', K' db ∧ (n (pending db)).Follows C K' (ks (pending db) ++ held)
        (fun d => w (pending db) (pending d)) post

def onOk (post : Post σ κ α) : Post σ κ (Except ε α)
  | .ok a, K, held, pending => post a K held pending
  | .error _, _, _, _ => True

/-- `Follows`, where an error rolls back and owes nothing. -/
def Txn.Meets (C : Contract σ κ ℓ) (t : Txn σ κ ℓ ε α) (K : σ → Prop) (held : List (κ × LockMode))
    (pending : σ → σ) (post : Post σ κ α) : Prop :=
  t.Follows C K held pending (onOk post)

def Contract.MayCommit (C : Contract σ κ ℓ) (K : σ → Prop) (held : List (κ × LockMode))
    (pending : σ → σ) : Prop :=
  C.StableAt .commit held K ∧
    ∀ db, C.inv db → K db → C.inv (pending db) ∧ C.guarantee held db (pending db)

variable {C : Contract σ κ ℓ} {E : Proc σ κ ℓ ρ → σ → σ → Prop} {K : σ → Prop}
  {held : List (κ × LockMode)} {pending : σ → σ}

/-! ### Programs -/

namespace Proc

variable {p : Proc σ κ ℓ ρ}

theorem Meets.rollback (rest : p.Meets C E (fun _ => True) [] id) :
    (Proc.rollback p).Meets C E K held pending :=
  ⟨fun _ => True, C.stable_true _, fun _ _ _ => trivial, rest⟩

theorem Meets.commit (may : C.MayCommit K held pending)
    (ends : ∀ db, C.inv db → K db → E p db (pending db))
    (rest : p.Meets C E (fun _ => True) [] id) : (Proc.commit p).Meets C E K held pending :=
  ⟨may.1, fun db inv known => ⟨may.2 db inv known, ends db inv known⟩, fun _ => True,
    C.stable_true _, fun _ _ _ => trivial, rest⟩

theorem Meets.weaken {K' : σ → Prop} (meets : p.Meets C E K held pending)
    (stable : C.Stable held K') (implies : ∀ db, K' db → K db) : p.Meets C E K' held pending := by
  cases p with
  | done r => trivial
  | killed => trivial
  | rollback n =>
    obtain ⟨K'', stable'', learned, rest⟩ := meets
    exact ⟨K'', stable'', fun db inv known => learned db inv (implies db known), rest⟩
  | commit n =>
    obtain ⟨-, may, K'', stable'', learned, rest⟩ := meets
    exact ⟨stable.at _, fun db inv known => may db inv (implies db known), K'', stable'',
      fun db inv known => learned db inv (implies db known), rest⟩
  | stmt l ks w n =>
    exact ⟨stable.at _, fun db inv known => meets.2 db inv (implies db known)⟩

theorem Meets.spared {other : List (κ × LockMode)} {db db' : σ}
    (meets : p.Meets C E K held pending) (known : K db) (compatible : Compatible held other)
    (inv : C.inv db) (inv' : C.inv db') (allowed : C.guarantee other db db')
    (spares : C.spares p.point held db db') : ∃ K', K' db' ∧ p.Meets C E K' held pending := by
  cases p with
  | done r => exact ⟨fun _ => True, trivial, trivial⟩
  | killed => exact ⟨fun _ => True, trivial, trivial⟩
  | rollback n =>
    obtain ⟨K', stable, learned, rest⟩ := meets
    exact ⟨K', stable _ _ _ (Compatible.nil_left _) inv inv' allowed (learned db inv known), K',
      stable, fun _ _ known => known, rest⟩
  | commit n => exact ⟨K, meets.1 _ _ _ compatible inv inv' allowed spares known, meets⟩
  | stmt l ks w n => exact ⟨K, meets.1 _ _ _ compatible inv inv' allowed spares known, meets⟩

end Proc

variable {t : Txn σ κ ℓ ε α}

/-! ### Bodies -/

namespace Txn

def relabel (f : ℓ → ℓ') : Txn σ κ ℓ ε α → Txn σ κ ℓ' ε α
  | .pure a => .pure a
  | .throw e => .throw e
  | .stmt l ks w n => .stmt (f l) ks w (fun view => (n view).relabel f)

variable {f : β → Txn σ κ ℓ ε α} {label : ℓ} {locks : σ → List (κ × LockMode)}
  {result : σ → Except ε α} {k : Except ε α → Proc σ κ ℓ ρ}

def failAt (e : ε) : Nat → Txn σ κ ℓ ε α → Txn σ κ ℓ ε α
  | _, .pure a => .pure a
  | _, .throw e' => .throw e'
  | 0, .stmt .. => .throw e
  | n + 1, .stmt l ks w next => .stmt l ks w fun view => (next view).failAt e n

section General

variable {post : Post σ κ (Except ε α)}

theorem Follows.mono {post' : Post σ κ (Except ε α)} (h : t.Follows C K held pending post)
    (weaker : ∀ r K held pending, post r K held pending → post' r K held pending) :
    t.Follows C K held pending post' := by
  induction t generalizing K held pending with
  | pure a => exact weaker _ _ _ _ h
  | throw e => exact weaker _ _ _ _ h
  | stmt l ks w n ih =>
    refine ⟨h.1, fun db inv known ready => ?_⟩
    obtain ⟨checked, K', k, rest⟩ := h.2 db inv known ready
    exact ⟨checked, K', k, ih _ rest⟩

theorem Follows.bind {x : Txn σ κ ℓ ε β}
    (h : x.Follows C K held pending (fun r K held pending =>
      match r with
      | .ok b => (f b).Follows C K held pending post
      | .error e => post (.error e) K held pending)) : (x >>= f).Follows C K held pending post := by
  show (x.bind f).Follows C K held pending post
  induction x generalizing K held pending with
  | pure b => exact h
  | throw e => exact h
  | stmt l ks w n ih =>
    refine ⟨h.1, fun db inv known ready => ?_⟩
    obtain ⟨checked, K', k, rest⟩ := h.2 db inv known ready
    exact ⟨checked, K', k, ih _ rest⟩

theorem Follows.failAt {e : ε} (h : t.Follows C K held pending post)
    (failed : ∀ K held pending, post (.error e) K held pending) (n : Nat) :
    (t.failAt e n).Follows C K held pending post := by
  induction t generalizing K held pending n with
  | pure a => cases n <;> exact h
  | throw e' => cases n <;> exact h
  | stmt l ks w next ih =>
    cases n with
    | zero => exact failed _ _ _
    | succ n =>
      refine ⟨h.1, fun db inv known ready => ?_⟩
      obtain ⟨checked, K', k, rest⟩ := h.2 db inv known ready
      exact ⟨checked, K', k, ih _ rest n⟩

theorem Follows.exec {write : σ → σ → σ} (stable : C.StableAt (.before label) held K)
    (h : ∀ db, C.inv db → K db → C.ready label db → C.checks label held db (pending db) ∧
      ∃ K', K' db ∧ post (result (pending db)) K' (locks (pending db) ++ held)
        (fun d => write (pending db) (pending d))) :
    (Txn.exec label locks write result : Txn σ κ ℓ ε α).Follows C K held pending post := by
  refine ⟨stable, fun db inv known ready => ?_⟩
  obtain ⟨checked, K', k, ends⟩ := h db inv known ready
  refine ⟨checked, K', k, ?_⟩
  cases outcome : result (pending db) with
  | ok a => simpa [outcome, Follows] using ends
  | error e => simpa [outcome, Follows] using ends

theorem Follows.andThen
    (h : t.Follows C K held pending (fun r K held pending => (k r).Meets C E K held pending)) :
    (t.andThen k).Meets C E K held pending := by
  induction t generalizing K held pending with
  | pure a => exact h
  | throw e => exact h
  | stmt l ks w n ih =>
    refine ⟨h.1, fun db inv known ready => ?_⟩
    obtain ⟨checked, K', kn, rest⟩ := h.2 db inv known ready
    exact ⟨checked, K', kn, ih _ rest⟩

end General

variable {post : Post σ κ α}

theorem Meets.mono {post' : Post σ κ α} (h : t.Meets C K held pending post)
    (weaker : ∀ a K held pending, post a K held pending → post' a K held pending) :
    t.Meets C K held pending post' := by
  apply Follows.mono h
  intro r K held pending done
  cases r with
  | ok a => exact weaker a K held pending done
  | error e => trivial

theorem Meets.bind {x : Txn σ κ ℓ ε β}
    (h : x.Meets C K held pending (fun b K held pending => (f b).Meets C K held pending post)) :
    (x >>= f).Meets C K held pending post := by
  apply Follows.bind
  apply Follows.mono h
  intro r K held pending done
  cases r with
  | ok b => exact done
  | error e => trivial

theorem Meets.pure {a : α} (h : post a K held pending) :
    (Pure.pure a : Txn σ κ ℓ ε α).Meets C K held pending post := h

theorem Meets.require {ok : Bool} {e : ε} {post : Post σ κ Unit}
    (h : ok = true → post () K held pending) :
    (Txn.require ok e : Txn σ κ ℓ ε Unit).Meets C K held pending post := by
  cases ok with
  | false => trivial
  | true => exact h rfl

theorem Meets.orThrow {row : Option α} {e : ε} (h : ∀ a, row = some a → post a K held pending) :
    (Txn.orThrow row e : Txn σ κ ℓ ε α).Meets C K held pending post := by
  cases row with
  | none => trivial
  | some a => exact h a rfl

theorem Meets.queryLocking {read : σ → α} (stable : C.StableAt (.before label) held K)
    (h : ∀ db, C.inv db → K db → C.ready label db → C.checks label held db (pending db) ∧
      ∃ K', K' db ∧ post (read (pending db)) K' (locks (pending db) ++ held) pending) :
    (Txn.queryLocking label locks read : Txn σ κ ℓ ε α).Meets C K held pending post :=
  ⟨stable, fun db inv known ready => h db inv known ready⟩

theorem Meets.query {read : σ → α} (stable : C.StableAt (.before label) held K)
    (h : ∀ db, C.inv db → K db → C.ready label db → C.checks label held db (pending db) ∧
      ∃ K', K' db ∧ post (read (pending db)) K' held pending) :
    (Txn.query label read : Txn σ κ ℓ ε α).Meets C K held pending post :=
  ⟨stable, fun db inv known ready => h db inv known ready⟩

theorem Meets.exec {write : σ → σ → σ} (stable : C.StableAt (.before label) held K)
    (h : ∀ db, C.inv db → K db → C.ready label db → C.checks label held db (pending db) ∧
      ∀ a, result (pending db) = .ok a → ∃ K', K' db ∧
        post a K' (locks (pending db) ++ held) (fun d => write (pending db) (pending d))) :
    (Txn.exec label locks write result : Txn σ κ ℓ ε α).Meets C K held pending post := by
  apply Follows.exec stable
  intro db inv known ready
  obtain ⟨checked, rest⟩ := h db inv known ready
  refine ⟨checked, ?_⟩
  cases outcome : result (pending db) with
  | ok a => exact rest a outcome
  | error e => exact ⟨fun _ => True, trivial, trivial⟩

theorem Keeps.meets {part : σ → π} (keeps : t.Keeps part)
    (unchecked : ∀ l held db view, C.checks l held db view) (stable : C.Stable held K)
    (done : ∀ a held' pending', held ⊆ held' → C.Stable held' K →
      (∀ db, part (pending' db) = part (pending db)) → post a K held' pending') :
    t.Meets C K held pending post := by
  induction t generalizing held pending with
  | pure a => exact done a held pending (List.Subset.refl _) stable fun _ => rfl
  | throw e => trivial
  | stmt l ks w n ih =>
    refine ⟨stable.at _, fun db inv known _ => ⟨unchecked _ _ _ _, K, known, ?_⟩⟩
    apply ih (pending db) (keeps.2 (pending db)) (stable.append _)
    intro a held' pending' more stable' same
    refine done a held' pending' (fun x mem => more (List.mem_append_right _ mem)) stable' ?_
    intro d
    rw [same d]
    exact keeps.1 _ _

theorem Meets.inTx {g : α → Prop} (rest : ∀ a, g a → (k (.ok a)).Meets C E (fun _ => True) [] id)
    (failed : ∀ e, (k (.error e)).Meets C E (fun _ => True) [] id)
    (h : t.Meets C K held pending (fun a K held pending => g a ∧ C.MayCommit K held pending ∧
      ∀ db, C.inv db → K db → E (k (.ok a)) db (pending db))) :
    (t.inTx k).Meets C E K held pending := by
  apply Follows.andThen
  apply Follows.mono h
  intro r K held pending done
  cases r with
  | ok a => exact .commit done.2.1 done.2.2 (rest a done.1)
  | error e => exact .rollback (failed e)

theorem Meets.bracket (rest : ∀ r, (k r).Meets C noTerms (fun _ => True) [] id)
    (h : t.Meets C K held pending fun _ => C.MayCommit) :
    (t.inTx k).Meets C noTerms K held pending :=
  Meets.inTx (g := fun _ => True) (fun _ _ => rest _) (fun _ => rest _)
    (h.mono fun _ _ _ _ may => ⟨trivial, may, fun _ _ _ => trivial⟩)

end Txn

def Point.map (f : ℓ → ℓ') : Point ℓ → Point ℓ'
  | .before l => .before (f l)
  | .commit => .commit
  | .out => .out

def Contract.comap (C : Contract σ κ ℓ') (f : ℓ → ℓ') : Contract σ κ ℓ :=
  { C with
    ready := fun l => C.ready (f l)
    spares := fun p => C.spares (p.map f)
    checks := fun l => C.checks (f l) }

theorem Txn.Meets.relabel {C : Contract σ κ ℓ'} {f : ℓ → ℓ'} {post : Post σ κ α}
    (h : t.Meets (C.comap f) K held pending post) : (t.relabel f).Meets C K held pending post := by
  induction t generalizing K held pending with
  | pure a => exact h
  | throw e => trivial
  | stmt l ks w n ih =>
    refine ⟨h.1, fun db inv known ready => ?_⟩
    obtain ⟨checked, K', k, rest⟩ := h.2 db inv known ready
    exact ⟨checked, K', k, ih _ rest⟩

/-! ### Runs -/

namespace Config

variable [DecidableEq ι] {E : ι → Proc σ κ ℓ ρ → σ → σ → Prop}

def Ready (C : Contract σ κ ℓ) (c : Config σ κ ℓ ρ ι) : Action ι η → Prop
  | .step i => (c.session i).code.ReadyAt C c.db
  | _ => True

instance Ready.decidable [∀ l db, Decidable (C.ready l db)] (c : Config σ κ ℓ ρ ι) :
    (a : Action ι η) → Decidable (c.Ready C a)
  | .step i => inferInstanceAs (Decidable ((c.session i).code.ReadyAt C c.db))
  | .kill _ => .isTrue trivial
  | .env _ => .isTrue trivial

def Admissible (C : Contract σ κ ℓ) (env : η → σ → σ) (c : Config σ κ ℓ ρ ι) :
    Action ι η → Prop
  | .env e => ∀ j, C.spares (c.session j).code.point (c.locksOf j) c.db (env e c.db)
  | .kill _ => True
  | .step i =>
    match (c.session i).code with
    | .stmt l _ _ _ => C.ready l c.db
    | .commit _ => ∀ j, j ≠ i → C.spares (c.session j).code.point (c.locksOf j) c.db (c.view i)
    | _ => True

variable {a : Action ι η} {env : η → σ → σ} {c : Config σ κ ℓ ρ ι}

theorem admissible_of_ready
    (spared : ∀ p held db db', C.spares p held db db') (ready : c.Ready C a) :
    c.Admissible C env a := by
  cases a with
  | env e => exact fun _ => spared _ _ _ _
  | kill i => trivial
  | step i =>
    simp only [Ready] at ready
    simp only [Admissible]
    split
    · rename_i code
      rwa [code] at ready
    · exact fun _ _ => spared _ _ _ _
    · trivial

def Passes (C : Contract σ κ ℓ) (E : ι → Proc σ κ ℓ ρ → σ → σ → Prop) (c : Config σ κ ℓ ρ ι) :
    Action ι η → Prop
  | .step i =>
    match (c.session i).code with
    | .stmt l _ _ _ => C.checks l (c.locksOf i) c.db (c.view i)
    | .commit n => C.guarantee (c.locksOf i) c.db (c.view i) ∧ E i n c.db (c.view i)
    | _ => True
  | _ => True

def MeetsAt (C : Contract σ κ ℓ) (E : ι → Proc σ κ ℓ ρ → σ → σ → Prop) (c : Config σ κ ℓ ρ ι)
    (i : ι) : Prop :=
  ∃ K, K c.db ∧ (c.session i).code.Meets C (E i) K (c.locksOf i) (c.session i).pending

structure Meeting (C : Contract σ κ ℓ) (E : ι → Proc σ κ ℓ ρ → σ → σ → Prop)
    (c : Config σ κ ℓ ρ ι) : Prop where
  inv : C.inv c.db
  exclude : c.LocksExclude
  meets : ∀ i, c.MeetsAt C E i

theorem Meeting.passes (meeting : c.Meeting C E)
    (admissible : c.Admissible C env a) : c.Passes C E a := by
  cases a with
  | env e => trivial
  | kill i => trivial
  | step i =>
    obtain ⟨K, known, rest⟩ := meeting.meets i
    simp only [Passes]
    simp only [Admissible] at admissible
    split
    · rename_i l ks w n code
      rw [code] at rest
      simp only [code] at admissible
      exact (rest.2 c.db meeting.inv known admissible).1
    · rename_i n code
      rw [code] at rest
      obtain ⟨may, ends⟩ := rest.2.1 c.db meeting.inv known
      exact ⟨may.2, ends⟩
    · trivial

theorem Meeting.finish (meeting : c.Meeting C E) (i : ι) (db : σ)
    (code : Proc σ κ ℓ ρ) (inv : C.inv db) (allowed : C.guarantee (c.locksOf i) c.db db)
    (spares : ∀ j, j ≠ i → db = c.db ∨
      C.spares (c.session j).code.point (c.locksOf j) c.db db)
    (known : K db) (rest : code.Meets C (E i) K [] id) : (c.finish i db code).Meeting C E := by
  refine ⟨inv, meeting.exclude.finish i db code, fun j => ?_⟩
  unfold MeetsAt
  by_cases h : j = i
  · subst h
    exact ⟨K, known, by simpa [Session.fresh] using rest⟩
  · obtain ⟨K', known', meets⟩ := meeting.meets j
    rw [locksOf_finish_of_ne c h, session_finish_of_ne c h]
    rcases spares j h with rfl | spared
    · exact ⟨K', known', meets⟩
    · exact meets.spared known' (meeting.exclude j i h) meeting.inv inv allowed spared

variable [DecidableEq κ] {c' : Config σ κ ℓ ρ ι}

theorem Meeting.next (meeting : c.Meeting C E) (outside : EnvAllowed C.toDiscipline env)
    (admissible : c.Admissible C env a) (stepped : c.next env a = some c') :
    c'.Meeting C E ∧ ∃ held, C.guarantee held c.db c'.db := by
  rcases next_cases stepped with ⟨e, rfl, rfl⟩ | ⟨i, rfl, rfl⟩ | ⟨i, n, rfl, code, rfl⟩ |
    ⟨i, n, rfl, code, rfl⟩ | ⟨i, l, ks, w, n, rfl, code, free, rfl⟩
  · obtain ⟨inv, allowed⟩ := outside e c.db meeting.inv
    refine ⟨⟨inv, meeting.exclude, fun j => ?_⟩, [], allowed⟩
    obtain ⟨K, known, rest⟩ := meeting.meets j
    exact rest.spared known (Compatible.nil_left _).symm meeting.inv inv allowed (admissible j)
  · exact ⟨meeting.finish (K := fun _ => True) i _ _ meeting.inv (C.idle _ _) (fun _ _ => .inl rfl)
      trivial trivial, [], C.idle _ _⟩
  · obtain ⟨K, known, rest⟩ := meeting.meets i
    rw [code] at rest
    obtain ⟨-, may, K', -, learned, rest⟩ := rest
    obtain ⟨⟨inv, allowed⟩, -⟩ := may c.db meeting.inv known
    simp only [Admissible, code] at admissible
    exact ⟨meeting.finish i _ _ inv allowed (fun j ne => .inr (admissible j ne))
      (learned c.db meeting.inv known) rest, _, allowed⟩
  · obtain ⟨K, known, rest⟩ := meeting.meets i
    rw [code] at rest
    obtain ⟨K', -, learned, rest⟩ := rest
    exact ⟨meeting.finish i _ _ meeting.inv (C.idle _ _) (fun _ _ => .inl rfl)
      (learned c.db meeting.inv known) rest, [], C.idle _ _⟩
  · refine ⟨⟨meeting.inv, meeting.exclude.afterStmt i free _, fun j => ?_⟩, [], C.idle _ _⟩
    unfold MeetsAt
    by_cases h : j = i
    · subst h
      obtain ⟨K, known, rest⟩ := meeting.meets j
      rw [code] at rest
      simp only [Admissible, code] at admissible
      obtain ⟨-, K', known', rest'⟩ := rest.2 c.db meeting.inv known admissible
      rw [locksOf_afterStmt_self, session_afterStmt_self]
      exact ⟨K', known', rest'⟩
    · rw [locksOf_afterStmt_of_ne c h, session_afterStmt_of_ne c h]
      exact meeting.meets j

variable {code : ι → Proc σ κ ℓ ρ}

omit [DecidableEq κ] in
theorem meeting_start {db : σ} (inv : C.inv db)
    (meets : ∀ i, (code i).Meets C (E i) (fun _ => True) [] id) : (start db code).Meeting C E := by
  refine ⟨inv, locksExclude_start db code, fun i => ⟨fun _ => True, trivial, ?_⟩⟩
  simpa [start, locksOf, Session.fresh] using meets i

variable {as : List (Action ι η)}

theorem Meeting.run_keeps (meeting : c.Meeting C E)
    (outside : EnvAllowed C.toDiscipline env) {I : σ → Prop}
    (keeps : ∀ held db db', C.inv db → C.inv db' → C.guarantee held db db' → I db → I db')
    (start : I c.db) (admissible : c.Along env (Admissible C env) as)
    (ran : c.run env as = some c') : c'.Meeting C E ∧ I c'.db := by
  refine run_preserves_of (fun c => c.Meeting C E ∧ I c.db) (Admissible C env) ?_ as
    ⟨meeting, start⟩ admissible ran
  rintro c a c' ⟨meeting, kept⟩ admissible stepped
  obtain ⟨meeting', held, allowed⟩ := meeting.next outside admissible stepped
  exact ⟨meeting', keeps held _ _ meeting.inv meeting'.inv allowed kept⟩

theorem Meeting.run (meeting : c.Meeting C E) (outside : EnvAllowed C.toDiscipline env)
    (admissible : c.Along env (Admissible C env) as) (ran : c.run env as = some c') :
    c'.Meeting C E :=
  (meeting.run_keeps (I := fun _ => True) outside (fun _ _ _ _ _ _ kept => kept) trivial admissible
    ran).1

theorem inv_run {db : σ} (spared : ∀ p held db db', C.spares p held db db') (inv : C.inv db)
    (outside : EnvAllowed C.toDiscipline env)
    (meets : ∀ i, (code i).Meets C (E i) (fun _ => True) [] id)
    (ready : (start db code).Along env (Ready C) as)
    (ran : (start db code).run env as = some c) : C.inv c.db :=
  ((meeting_start inv meets).run outside (ready.mono fun _ _ => admissible_of_ready spared) ran).inv

theorem Meeting.along (meeting : c.Meeting C E)
    (outside : EnvAllowed C.toDiscipline env) {I : σ → Prop}
    (keeps : ∀ held db db', C.inv db → C.inv db' → C.guarantee held db db' → I db → I db')
    (start : I c.db) (admissible : c.Along env (Admissible C env) as) :
    c.Along env (fun c a => c.Passes C E a ∧ C.inv c.db ∧ I c.db) as := by
  induction as generalizing c with
  | nil => trivial
  | cons a as ih =>
    refine ⟨⟨meeting.passes admissible.1, meeting.inv, start⟩, fun c' stepped => ?_⟩
    obtain ⟨next, held, allowed⟩ := meeting.next outside admissible.1 stepped
    exact ih next (keeps held _ _ meeting.inv next.inv allowed start) (admissible.2 c' stepped)

theorem along_append {P : Config σ κ ℓ ρ ι → Action ι η → Prop} {bs : List (Action ι η)} :
    c.Along env P (as ++ bs) ↔
      c.Along env P as ∧ ∀ c', c.run env as = some c' → c'.Along env P bs := by
  induction as generalizing c with
  | nil => simp [Along, Config.run]
  | cons a as ih =>
    simp only [List.cons_append, Along, Config.run, Option.bind_eq_some_iff, ih, and_assoc]
    refine and_congr_right fun _ => ⟨fun h => ⟨fun m stepped => (h m stepped).1, ?_⟩, fun h m stepped =>
      ⟨h.1 m stepped, fun c' ran => h.2 c' ⟨m, stepped, ran⟩⟩⟩
    rintro c' ⟨m, stepped, ran⟩
    exact (h m stepped).2 c' ran

end Config

end ReadCommitted
