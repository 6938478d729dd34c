import YunhouUsers.Inference.Gateway.Dispatch
import YunhouUsers.Inference.Leases
import YunhouUsers.Inference.Postgres.Frames

/-!
The dispatch loop with its leases (`gateway/service.go` and `routing/service.go` of
`internal/inference`): the steps of `Dispatch`, taken on a table of leases that other requests use
at the same time.
-/

namespace YunhouUsers.Inference.Gateway.Failover

open ReadCommitted Table Postgres

structure Service extends Gateway.Service where
  ownerToken : String
  leaseTTL : Int
deriving DecidableEq

/-- What one attempt meets: the ids it draws, the clock, every answer it gets, and the lease
calls of others before it, before the check of its lease and before the release of it. -/
structure Weather where
  leaseId : Uuid
  newOwner : String
  attemptId : Uuid
  now : Int
  checkedAt : Int
  releasedAt : Int
  /-- `GetUpstreamAccountStatusForUpdateTx`; `none` is not found. -/
  recheck : Except Cause (Option UpstreamAccountStatus)
  checks : Check → Except Cause Unit
  exchange : Exchange
  persist : Fault
  mark : Fault
  finish : Fault
  release : Fault
  before : List LeaseCall
  meanwhile : List LeaseCall
  during : List LeaseCall

def acquireCommand (s : Service) (requestId : Uuid) (cand : Candidate) (now : Int) :
    AcquireLeaseCommand :=
  { scope := .upstreamAccount, scopeId := cand.accountId, requestId := requestId
    ownerToken := s.ownerToken, limit := cand.concurrencyLimit, ttl := s.leaseTTL, now := some now }

def persistBody (s : Service) (cand : Candidate) (a : Attempt) (w : Weather) :
    Tx ConcurrencyLease := do
  let lease ← acquireLeaseTx (acquireCommand s a.requestId cand w.now) w.leaseId w.newOwner w.now
  insertAttemptTx a
  pure lease

/-- `persistAttempt` with `AcquireUpstreamLease`, in a store that `inStore` leads to: a parked
account is full, and one that is no longer active is the sentinel. -/
def persistAttempt {σ κ ι ε : Type} (refuse : Err → ε)
    (status : Txn σ κ ι ε (Option UpstreamAccountStatus))
    (inStore : Tx ConcurrencyLease → Txn σ κ ι ε ConcurrencyLease) (s : Service) (cand : Candidate)
    (a : Attempt) (w : Weather) : Txn σ κ ι ε ConcurrencyLease := do
  .require (0 < cand.concurrencyLimit)
    (refuse (.domain .insufficientCapacity "upstream account parked (concurrency_limit 0)"))
  let status ← status
  .require (status = some .active) (refuse errAccountInactiveAtDispatch)
  inStore (persistBody s cand a w)

def onDb {α : Type} (fault : Fault) (body : Tx α) : StateM Db (Except Cause α) := fun db =>
  ((transact fault body db).1, (transact fault body db).2.getD db)

def others (calls : List LeaseCall) : StateM Db Unit := fun db => ((), runLeases db calls)

def Weather.accountStatus (w : Weather) : Tx (Option UpstreamAccountStatus) :=
  match w.recheck with
  | .ok status => pure status
  | .error _ => .throw (.domain .internal "lease: account status recheck")

def intent (requestId : Uuid) (attemptNo : Nat) (w : Weather) : Attempt :=
  ⟨w.attemptId, requestId, attemptNo, .dispatching, "", none⟩

/-- What becomes of the admission is in `Dispatch`. -/
def steps (s : Service) (requestId : Uuid) (w : Weather) :
    Steps (StateM Db) ConcurrencyLease Db where
  observe := get
  newId := pure w.attemptId
  persistAttempt cand a := do
    others w.before
    onDb w.persist (Failover.persistAttempt id w.accountStatus id s cand a w)
  checkLease lease := do
    others w.meanwhile
    match w.checks .checkLease with
    | .error cause => pure (.error cause)
    | .ok () =>
      onDb .none (checkLease lease.id lease.ownerToken lease.fencingToken (some w.checkedAt)
        w.checkedAt)
  check what := pure (w.checks what)
  markDispatching := onDb w.mark (updateRequestStatus requestId .dispatching "")
  send _ := pure w.exchange
  finishAttempt id status kind := do
    let _ ← onDb w.finish (finishAttemptTx id status kind)
    pure ()
  releaseLease lease := do
    others w.during
    let _ ← onDb w.release
      (releaseLease lease.id lease.ownerToken lease.fencingToken w.releasedAt)
    pure ()
  deliver id
    | .stream => pure (.stream id)
    | .payload _ => pure .payload
  cooldown _ := pure ()
  releaseAdmission := pure ()
  markReconciliation := pure ()

def Weather.others (w : Weather) : List LeaseCall := w.before ++ w.meanwhile ++ w.during

def ForOthers (r : Uuid) : LeaseCall → Prop
  | .acquire cmd _ _ _ => cmd.requestId ≠ r
  | _ => True

variable {s : Service} {cand : Candidate} {w : Weather} {db' : Db}

/-- Nobody else takes leases for request `r`, and no id is drawn twice. -/
structure Undisturbed (r : Uuid) (env : Nat → Weather) : Prop where
  others : ∀ i, ∀ call ∈ (env i).others, ForOthers r call
  otherIds : ∀ i j, ∀ call ∈ (env i).others, call.drawnId ≠ some (env j).leaseId
  leaseIds : Function.Injective fun i => (env i).leaseId
  attemptIds : Function.Injective fun i => (env i).attemptId

section Ready

variable {r : Uuid} {env : Nat → Weather} {tried : List Uuid} {i : Nat} {db : Db}

structure PastAttempt (r : Uuid) (env : Nat → Weather) (i : Nat) (a : Attempt) : Prop where
  no : a.requestId = r → a.attemptNo ≤ i
  id : ∀ j, i ≤ j → a.id ≠ (env j).attemptId

structure PastLease (r : Uuid) (env : Nat → Weather) (tried : List Uuid) (i : Nat)
    (l : ConcurrencyLease) : Prop where
  account : l.requestId = r → l.scope = .upstreamAccount → l.scopeId ∈ tried
  id : ∀ j, i ≤ j → l.id ≠ (env j).leaseId
  token : 0 < l.fencingToken

structure Ready (r : Uuid) (env : Nat → Weather) (tried : List Uuid) (i : Nat) (db : Db) :
    Prop where
  request : r ∈ db.requests.map (·.id)
  attempts : ∀ a ∈ db.attempts, PastAttempt r env i a
  leases : ∀ l ∈ db.leases, PastLease r env tried i l

variable {l : ConcurrencyLease}

theorem PastLease.ages {l' : ConcurrencyLease} (past : PastLease r env tried i l)
    (ages : Ages l l') : PastLease r env tried i l' where
  account own scope := ages.scopeId ▸ past.account (ages.requestId ▸ own) (ages.scope ▸ scope)
  id j later := ages.id ▸ past.id j later
  token := ages.fencingToken ▸ past.token

theorem Ready.later {tried' : List Uuid} (ready : Ready r env tried i db)
    (more : tried ⊆ tried') : Ready r env tried' (i + 1) db where
  request := ready.request
  attempts a mem :=
    { no := fun own => Nat.le_succ_of_le ((ready.attempts a mem).no own)
      id := fun j later => (ready.attempts a mem).id j (Nat.le_of_succ_le later) }
  leases l mem :=
    { account := fun own scope => more ((ready.leases l mem).account own scope)
      id := fun j later => (ready.leases l mem).id j (Nat.le_of_succ_le later)
      token := (ready.leases l mem).token }

theorem Ready.wanes {rows : List ConcurrencyLease} (ready : Ready r env tried i db)
    (wanes : Wanes db.leases rows) : Ready r env tried i { db with leases := rows } :=
  { ready with
    leases := fun l mem => by
      obtain ⟨l₀, mem₀, ages⟩ := wanes.mem mem
      exact (ready.leases l₀ mem₀).ages ages }

theorem Ready.maxFencing_nonneg (ready : Ready r env tried i db) (scope : LeaseScope)
    (scopeId : Uuid) : 0 ≤ maxFencing scope scopeId db := by
  unfold maxFencing
  cases largest : ((db.leases.filter (ofScope scope scopeId)).map (·.fencingToken)).max? with
  | none => exact le_rfl
  | some top =>
    obtain ⟨l, mem, rfl⟩ := List.mem_map.mp (List.max?_mem largest)
    exact (ready.leases l (List.mem_of_mem_filter mem)).token.le

theorem Ready.commit (ready : Ready r env tried i db) {call : LeaseCall} (others : ForOthers r call)
    (ids : ∀ j, call.drawnId ≠ some (env j).leaseId) : Ready r env tried i (call.commit db) := by
  obtain ⟨kept, wanes, effect | ⟨cmd, newId, newOwner, clock, l, rfl, effect, granted, _, token⟩⟩ :=
    call.commit_cases db
  · rw [effect]
    exact ready.wanes wanes
  · have waned := ready.wanes wanes
    have positive := waned.maxFencing_nonneg cmd.scope cmd.scopeId
    rw [effect]
    refine { ready with leases := fun x mem => ?_ }
    rcases List.mem_append.mp mem with old | new
    · exact waned.leases x old
    · rw [List.mem_singleton.mp new]
      refine ⟨fun own => ?_, fun j _ same => ?_, by omega⟩
      · rw [granted] at own
        exact absurd own others
      · rw [granted] at same
        exact ids j (congrArg some same)

/-- `post` holds of what `p` returns and leaves. -/
def Leads {α : Type} (p : StateM Db α) (db : Db) (post : α → Db → Prop) : Prop :=
  post (p db).1 (p db).2

theorem Leads.bind {α β : Type} {p : StateM Db α} {f : α → StateM Db β} {mid : α → Db → Prop}
    {post : β → Db → Prop} (first : Leads p db mid)
    (rest : ∀ a db', mid a db' → Leads (f a) db' post) : Leads (p >>= f) db post :=
  rest _ _ first

theorem Leads.pure {α : Type} {a : α} {post : α → Db → Prop} (holds : post a db) :
    Leads (pure a) db post := holds

/-- An error of the answer is a `bad` one. -/
def Fails {α ε : Type} (bad : ε → Prop) : Except ε α → Prop
  | .ok _ => True
  | .error e => bad e

theorem Fails.imp {α ε : Type} {answer : Except ε α} {bad worse : ε → Prop}
    (fails : Fails bad answer) (imp : ∀ e, bad e → worse e) : Fails worse answer := by
  cases answer with
  | ok _ => trivial
  | error e => exact imp e fails

theorem onDb_leads {α : Type} (fault : Fault) {body : Tx α} {I : Db → Prop} (start : I db)
    (keeps : ∀ a db', body.eval db = .ok (a, db') → I db') :
    Leads (onDb fault body) db fun answer db' => I db' ∧
      Fails (fun cause => fault = .none → ∃ e, body.eval db = .error e ∧ cause = Cause.ofErr e)
        answer := by
  unfold Leads onDb transact
  cases fault with
  | rolledBack cause => exact ⟨start, nofun⟩
  | none =>
    cases ran : body.eval db with
    | error e => exact ⟨start, fun _ => ⟨e, rfl, rfl⟩⟩
    | ok r => exact ⟨keeps r.1 r.2 ran, trivial⟩
  | unacknowledged cause =>
    cases ran : body.eval db with
    | error e => exact ⟨start, nofun⟩
    | ok r => exact ⟨keeps r.1 r.2 ran, nofun⟩

theorem Ready.others (ready : Ready r env tried i db) (undisturbed : Undisturbed r env)
    {calls : List LeaseCall} {j : Nat} (own : calls ⊆ (env j).others) :
    Leads (others calls) db fun _ => Ready r env tried i := by
  induction calls generalizing db with
  | nil => exact ready
  | cons call calls ih =>
    have mem := own List.mem_cons_self
    exact ih (ready.commit (undisturbed.others j call mem) fun k => undisturbed.otherIds j k call mem)
      fun c h => own (List.mem_cons_of_mem _ h)

variable (i) in
theorem Ready.finishAttempt {j : Nat} (ready : Ready r env tried i db) (id : Uuid)
    (status : AttemptStatus) (kind : String) :
    Leads ((steps s r (env j)).finishAttempt id status kind) db fun _ => Ready r env tried i := by
  refine .bind (onDb_leads _ ready fun _ _ ran => ?_) fun _ _ h => .pure h.1
  obtain ⟨_, h⟩ := updateRow_ok.mp ran
  cases h
  refine { ready with attempts := fun a mem => ?_ }
  obtain ⟨a₀, mem₀, rfl⟩ := mem_updateWhere.mp mem
  have past := ready.attempts a₀ mem₀
  split
  · exact ⟨past.no, past.id⟩
  · exact past

theorem Ready.releaseLease {j : Nat} (ready : Ready r env tried i db)
    (undisturbed : Undisturbed r env) (lease : ConcurrencyLease) :
    Leads ((steps s r (env j)).releaseLease lease) db fun _ => Ready r env tried i := by
  refine .bind (ready.others undisturbed (j := j) (by simp [Weather.others])) fun _ db₁ run => ?_
  refine .bind (onDb_leads _ run fun _ _ ran => ?_) fun _ _ h => .pure h.1
  obtain ⟨_, h⟩ := updateRow_ok.mp ran
  cases h
  refine run.wanes (wanes_updateWhere (fun l _ => ?_) _)
  exact ⟨rfl, rfl, rfl, rfl, rfl, rfl, by simp⟩

theorem Ready.failAttempt {j : Nat} (ready : Ready r env tried i db)
    (undisturbed : Undisturbed r env) (id : Uuid) (lease : ConcurrencyLease)
    (status : AttemptStatus) (kind : String) :
    Leads (failAttempt (steps s r (env j)) id lease status kind) db
      fun _ => Ready r env tried i :=
  .bind (ready.finishAttempt i id status kind) fun _ _ finished =>
    finished.releaseLease undisturbed lease

theorem Ready.marked (ready : Ready r env tried i db) :
    Leads ((steps s r w).markDispatching) db fun answer db' => Ready r env tried i db' ∧
      Fails (fun _ => w.mark ≠ .none) answer := by
  have ran := onDb_leads w.mark ready fun _ db' (ran : (updateRequestStatus r .dispatching "").eval db
      = .ok (_, db')) => by
    obtain ⟨_, h⟩ := updateRow_ok.mp ran
    cases h
    refine { ready with request := ?_ }
    rw [map_updateWhere]
    · exact ready.request
    · intro q
      rfl
  refine ⟨ran.1, ran.2.imp fun _ failed healthy => ?_⟩
  -- the row is there, so only a fault can fail the mark
  obtain ⟨e, refused, -⟩ := failed healthy
  have done : (updateRequestStatus r .dispatching "").eval db = .ok ((), _) :=
    updateRow_ok.mpr ⟨by simpa using ready.request, rfl⟩
  rw [done] at refused
  cases refused

theorem Ready.attempt_accepted (ready : Ready r env tried i db) (status : AttemptStatus)
    (errorKind : String) (cost : Option (Money × CostBasis)) :
    attemptViolation ⟨(env i).attemptId, r, i + 1, status, errorKind, cost⟩ db = none := by
  have fresh : db.attempts.any (fun x => x.id = (env i).attemptId) = false := by
    simp only [List.any_eq_false, decide_eq_true_eq]
    exact fun a mem => (ready.attempts a mem).id i le_rfl
  have next : db.attempts.any (fun x => x.requestId = r && x.attemptNo = i + 1) = false := by
    simp only [List.any_eq_false, Bool.and_eq_true, decide_eq_true_eq]
    rintro a mem ⟨own, no⟩
    have := (ready.attempts a mem).no own
    omega
  have known : db.requests.any (·.id = r) = true := by
    simpa using ready.request
  simp [attemptViolation, fresh, next, known]

theorem Ready.lease_accepted (ready : Ready r env tried i db) {cmd : AcquireLeaseCommand}
    {newOwner : String} {clock : Int} (request : cmd.requestId = r)
    (scope : cmd.scope = .upstreamAccount) (ttl : 0 < cmd.ttl) (account : cmd.scopeId ∉ tried) :
    leaseViolation (grantedLease cmd (env i).leaseId newOwner clock db) (reclaimed cmd clock db) =
      none := by
  have waned : Ready r env tried i (reclaimed cmd clock db) :=
    ready.wanes (reclaimed_wanes cmd clock db)
  have positive := waned.maxFencing_nonneg cmd.scope cmd.scopeId
  refine leaseViolation_none (Int.lt_add_one_of_le positive) (Int.lt_add_of_pos_right _ ttl) ?_ ?_ ?_
  · exact fun l mem => (waned.leases l mem).id i le_rfl
  · intro l mem same id own
    have leased := (waned.leases l mem).account (own.trans request) (same.trans scope)
    rw [id] at leased
    exact account leased
  · show cmd.requestId ∈ _
    exact request ▸ waned.request

theorem persistBody_ok {a : Attempt} (ok : (persistBody s cand a w).eval db = .ok (l, db')) :
    l = grantedLease (acquireCommand s a.requestId cand w.now) w.leaseId w.newOwner w.now db ∧
      db' = { reclaimed (acquireCommand s a.requestId cand w.now) w.now db with
        leases := (reclaimed (acquireCommand s a.requestId cand w.now) w.now db).leases ++ [l]
        attempts := db.attempts ++ [{ a with errorKind := "" }] } := by
  simp only [persistBody, Txn.eval_bind_ok, insertAttemptTx, insertRow_ok, Txn.eval_pure,
    Except.ok.injEq] at ok
  obtain ⟨l', db₁, acquired, _, _, ⟨_, ⟨⟩⟩, ⟨⟩⟩ := ok
  obtain ⟨_, _, rfl, rfl⟩ := acquireLeaseTx_ok acquired
  exact ⟨rfl, rfl⟩

theorem Ready.persisted (ready : Ready r env tried i db) (undisturbed : Undisturbed r env)
    (ok : (persistBody s cand (intent r (i + 1) (env i)) (env i)).eval db = .ok (l, db')) :
    Ready r env (cand.accountId :: tried) (i + 1) db' := by
  obtain ⟨granted, rfl⟩ := persistBody_ok ok
  have waned := ready.wanes (reclaimed_wanes (acquireCommand s r cand (env i).now) (env i).now db)
  have positive := waned.maxFencing_nonneg .upstreamAccount cand.accountId
  have later := waned.later (List.subset_cons_self cand.accountId tried)
  refine ⟨waned.request, fun a mem => ?_, fun x mem => ?_⟩
  · rcases List.mem_append.mp mem with old | new
    · exact later.attempts a old
    · rw [List.mem_singleton.mp new]
      exact ⟨fun _ => le_rfl, fun j after same => by
        have := undisturbed.attemptIds same
        omega⟩
  · rcases List.mem_append.mp mem with old | new
    · exact later.leases x old
    · rw [List.mem_singleton.mp new, granted]
      refine ⟨fun _ _ => List.mem_cons_self, fun j after same => ?_, Int.lt_add_one_of_le positive⟩
      have := undisturbed.leaseIds same
      omega

end Ready

/-! ### How an attempt ends -/

section Results

variable (w : Weather)

/-- The attempt ends in the gateway itself, before anything is sent: the caller's request or the
deployment's configuration has no upstream form, or the storage fails. -/
def Weather.OwnFailure : Prop :=
  (∃ what ∈ [Check.buildPayload, .newRequest, .customHeaders, .extensionHeaders],
    ∃ cause, w.checks what = .error cause) ∨
  (∃ cause, w.recheck = .error cause) ∨ w.persist ≠ .none ∨ w.mark ≠ .none

/-- An error of the gateway has its own cause, if the account is a `fresh` one; an upstream error
has a status or a cause, not both. -/
def Weather.Explains (fresh : Prop) : AttemptError → Prop
  | .domain _ _ => fresh → w.OwnFailure
  | .dispatch de => de.err = none ∨ de.statusCode = 0

/-- The step `p` leaves a table that is ready for the next attempt, and what the `i`-th attempt
makes of its error has an explanation. -/
def Ends (r : Uuid) (env : Nat → Weather) (tried : List Uuid) (i : Nat) (fresh : Prop) {α ε : Type}
    (err : ε → AttemptError) (p : StateM Db (Except ε α)) (db : Db) : Prop :=
  Leads p db fun answer db' => Ready r env tried (i + 1) db' ∧
    Fails (fun e => (env i).Explains fresh (err e)) answer

variable {w} {r : Uuid} {env : Nat → Weather} {tried : List Uuid} {i : Nat} {db : Db} {stream : Bool}
  {de : DispatchError} {fresh : Prop} {lease : ConcurrencyLease}

theorem persistAttempt_error {e : Err} (ready : Ready r env tried i db) (ttl : 0 < s.leaseTTL)
    (account : cand.accountId ∉ tried)
    (failed : (persistAttempt id (env i).accountStatus id s cand (intent r (i + 1) (env i))
      (env i)).eval db = .error e) :
    codeOf e = .insufficientCapacity ∨ e = errAccountInactiveAtDispatch ∨ (env i).OwnFailure := by
  simp only [persistAttempt, Txn.eval_bind_error, Txn.eval_require_error, Txn.eval_require_ok,
    id_eq] at failed
  rcases failed with ⟨_, rfl⟩ | ⟨_, _, ⟨positive, ⟨⟩⟩, failed⟩
  · exact .inl rfl
  unfold Weather.accountStatus at failed
  cases checked : (env i).recheck with
  | error cause => exact .inr (.inr (.inr (.inl ⟨cause, checked⟩)))
  | ok status =>
    simp only [checked, Txn.eval_pure, reduceCtorEq, false_or] at failed
    obtain ⟨_, _, ⟨⟩, ⟨_, rfl⟩ | ⟨_, _, ⟨_, ⟨⟩⟩, failed⟩⟩ := failed
    · exact .inr (.inl rfl)
    · simp only [persistBody, Txn.eval_bind_error, insertAttemptTx, insertRow_error,
        Txn.eval_pure, reduceCtorEq, and_false, exists_false, or_false] at failed
      rcases failed with full | ⟨l, db₁, acquired, v, clash, _⟩
      · rcases acquireLeaseTx_error (by simpa [acquireCommand] using positive) ttl full with
          ⟨_, rfl⟩ | ⟨v, clash⟩
        · exact .inl rfl
        · rw [ready.lease_accepted rfl rfl ttl account] at clash
          cases clash
      · obtain ⟨_, _, _, rfl⟩ := acquireLeaseTx_ok acquired
        cases (ready.attempt_accepted .dispatching "" none).symm.trans clash

theorem Ready.persistAttempt (ready : Ready r env tried i db) (undisturbed : Undisturbed r env)
    (ttl : 0 < s.leaseTTL) (cand : Candidate) :
    Ends r env (cand.accountId :: tried) i (cand.accountId ∉ tried) persistError
      ((steps s r (env i)).persistAttempt cand (intent r (i + 1) (env i))) db := by
  refine .bind (ready.others undisturbed (j := i) (by simp [Weather.others])) fun _ db₁ before => ?_
  have ran := onDb_leads (env i).persist (before.later (List.subset_cons_self cand.accountId tried))
    fun l db₂ (ok : (Failover.persistAttempt id (env i).accountStatus id s cand
      (intent r (i + 1) (env i)) (env i)).eval db₁ = .ok (l, db₂)) => by
    simp only [Failover.persistAttempt, Txn.eval_bind_ok, Txn.eval_require_ok, id_eq] at ok
    obtain ⟨_, _, ⟨_, ⟨⟩⟩, status, _, checked, _, _, ⟨_, ⟨⟩⟩, ok⟩ := ok
    unfold Weather.accountStatus at checked
    split at checked <;> cases checked
    exact before.persisted undisturbed ok
  refine ⟨ran.1, ran.2.imp fun cause failed => ?_⟩
  unfold persistError
  split_ifs with inactive full
  · exact .inr rfl
  · exact .inr rfl
  · intro fresh
    by_cases healthy : (env i).persist = .none
    · obtain ⟨e, refused, rfl⟩ := failed healthy
      rcases persistAttempt_error before ttl fresh refused with h | rfl | own
      · exact absurd h full
      · exact absurd (by simp [Cause.ofErr]) inactive
      · exact own
    · exact .inr (.inr (.inl healthy))

end Results

/-! ### The loop -/

section Loop

variable {r : Uuid} {env : Nat → Weather} {tried : List Uuid} {i : Nat} {db : Db} {stream : Bool}
  {de : DispatchError}

/-- The loop may stop here: the attempt succeeded, its outcome at the upstream is unknown, the
caller is gone, the upstream refused for good, or the gateway itself failed it. -/
def Weather.MayStop (w : Weather) : Option (Except AttemptError Outcome) → Prop
  | none => False
  | some (.ok _) => True
  | some (.error (.domain _ _)) => w.OwnFailure
  | some (.error (.dispatch de)) => de.executedUnknown = true ∨ de.err.any isCanceled = true ∨
    de.err = none ∧ de.statusCode ≠ 429 ∧ de.statusCode < 500

/-- A retryable failure or a refusal for want of capacity: nothing was executed, the caller is
there, and the upstream answered 429 or 5xx or never got the request. -/
def Retryable (result : Option (Except AttemptError Outcome)) : Prop :=
  ∃ de, result = some (.error (.dispatch de)) ∧ de.executedUnknown = false ∧
    de.err.any isCanceled = false ∧
    (de.statusCode = 429 ∨ 500 ≤ de.statusCode ∨ ∃ cause, de.err = some cause)

/-- One of the visits `before`, or of still earlier ones, tried the account. -/
def Retried (tried : List Uuid) (before : List (Visit Db)) (accountId : Uuid) : Prop :=
  accountId ∈ tried ∨ ∃ u ∈ before, u.result ≠ none ∧ u.cand.accountId = accountId

/-- Earlier attempts of request `r` do not stand in the way of the lease: they left no row of the
account, and the gateway fails the attempt for causes of its own only. -/
structure Unhindered (r : Uuid) (w : Weather) (v : Visit Db) : Prop where
  leases : ∀ l ∈ v.found.leases, l.requestId = r → l.scope = .upstreamAccount →
    l.scopeId ≠ v.cand.accountId
  domain : ∀ code message, v.result = some (.error (.domain code message)) → w.OwnFailure

/-- What `n` candidates from the `i`-th on come to, after the accounts `tried`. -/
structure Complete (r : Uuid) (env : Nat → Weather) (tried : List Uuid) (i n : Nat)
    (visits : List (Visit Db)) : Prop where
  early : visits.length < n → ∃ before v, visits = before ++ [v] ∧
    ((env (before.length + i)).MayStop v.result ∨ Retried tried before v.cand.accountId)
  onward : ∀ before v after, visits = before ++ v :: after → Retryable v.result →
    before.length + 1 < n → after ≠ []
  unhindered : ∀ before v after, visits = before ++ v :: after → v.result ≠ none →
    ¬ Retried tried before v.cand.accountId → Unhindered r (env (before.length + i)) v

theorem retryable_iff (cause : de.err = none ∨ de.statusCode = 0)
    (present : de.err.any isCanceled = false) : de.retryable = true ↔
      de.statusCode = 429 ∨ 500 ≤ de.statusCode ∨ ∃ cause, de.err = some cause := by
  unfold DispatchError.retryable
  cases reason : de.err with
  | none =>
    split
    · simp
    · rename_i none_
      simp [not_not.mp none_]
  | some c =>
    have status : de.statusCode = 0 := by simpa [reason] using cause
    simpa [status, reason] using present

theorem conclude_none_iff {accountId : Uuid} (cause : de.err = none ∨ de.statusCode = 0) :
    (conclude (steps s r w) accountId (.error (.dispatch de)) db).1 = none ↔
      Retryable (some (.error (.dispatch de))) := by
  have retryable := retryable_iff cause
  unfold conclude
  dsimp only
  split_ifs with unknown gone refused
  · exact iff_of_false nofun (by simp [Retryable, unknown])
  · exact iff_of_false nofun (by simp [Retryable, gone])
  · exact iff_of_false nofun (by simp_all [Retryable])
  all_goals exact iff_of_true rfl (by simp_all [Retryable])

theorem Complete.cons {tried' : List Uuid} {n : Nat} {visits : List (Visit Db)} {x : Visit Db}
    (complete : Complete r env tried' (i + 1) n visits)
    (known : ∀ before a, Retried tried' before a → Retried tried (x :: before) a)
    (here : x.result ≠ none → x.cand.accountId ∉ tried → Unhindered r (env i) x)
    (more : 0 < n → visits ≠ []) : Complete r env tried i (n + 1) (x :: visits) := by
  have place (before : List (Visit Db)) :
      (x :: before).length + i = before.length + (i + 1) := by
    rw [List.length_cons]
    omega
  constructor
  · intro short
    obtain ⟨before, v, rfl, reason⟩ := complete.early (Nat.lt_of_succ_lt_succ short)
    refine ⟨x :: before, v, rfl, ?_⟩
    rw [place]
    exact reason.imp_right (known before _)
  · rintro (_ | ⟨_, before⟩) v after same again below
    · obtain ⟨rfl, rfl⟩ := List.cons.inj same
      exact more (by simpa using below)
    · obtain ⟨rfl, rfl⟩ := List.cons.inj same
      exact complete.onward before v after rfl again (by simpa using below)
  · rintro (_ | ⟨_, before⟩) v after same attempted fresh
    · obtain ⟨rfl, rfl⟩ := List.cons.inj same
      rw [List.length_nil, Nat.zero_add]
      exact here attempted fun old => fresh (.inl old)
    · obtain ⟨rfl, rfl⟩ := List.cons.inj same
      rw [place]
      exact complete.unhindered before v after rfl attempted fun old => fresh (known before _ old)

theorem complete_single {n : Nat} {v : Visit Db}
    (stops : (env i).MayStop v.result ∨ v.cand.accountId ∈ tried) (final : ¬ Retryable v.result)
    (here : v.cand.accountId ∉ tried → Unhindered r (env i) v) : Complete r env tried i n [v] := by
  have alone {before after : List (Visit Db)} {x : Visit Db} (same : [v] = before ++ x :: after) :
      before = [] ∧ x = v := by
    cases before with
    | nil => exact ⟨rfl, (List.cons.inj same).1.symm⟩
    | cons y before => simp at same
  constructor
  · rintro -
    refine ⟨[], v, rfl, ?_⟩
    rw [List.length_nil, Nat.zero_add]
    exact stops.imp_right .inl
  · intro before x after same again
    exact absurd ((alone same).2 ▸ again) final
  · intro before x after same _ fresh
    obtain ⟨rfl, rfl⟩ := alone same
    rw [List.length_nil, Nat.zero_add]
    exact here fun old => fresh (.inl old)

theorem Ready.unhindered (ready : Ready r env tried i db) {result : Except AttemptError Outcome}
    (fresh : cand.accountId ∉ tried)
    (explained : Fails ((env i).Explains (cand.accountId ∉ tried)) result) :
    Unhindered r (env i) ⟨cand, db, some result⟩ where
  leases l mem own scope same := fresh (same ▸ (ready.leases l mem).account own scope)
  domain code message failed := by
    cases failed
    exact explained fresh

theorem Ready.stops {result : Except AttemptError Outcome} {n : Nat} {final : Except Err Outcome}
    (ready : Ready r env tried i db)
    (explained : Fails ((env i).Explains (cand.accountId ∉ tried)) result)
    (stops : (conclude (steps s r (env i)) cand.accountId result db').1 = some final) :
    Complete r env tried i n [⟨cand, db, some result⟩] := by
  have last : ¬ Retryable (some result) := by
    rintro ⟨de, failed, again⟩
    cases failed
    rw [(conclude_none_iff explained).mpr ⟨de, rfl, again⟩] at stops
    cases stops
  refine complete_single ?_ last fun fresh => ready.unhindered fresh explained
  rcases result with (de | ⟨code, message⟩) | outcome
  · refine .inl (by_contra fun going => ?_)
    simp only [Weather.MayStop, not_or, Bool.not_eq_true] at going
    refine last ⟨de, rfl, going.1, going.2.1, ?_⟩
    cases reason : de.err with
    | some cause => exact .inr (.inr ⟨cause, rfl⟩)
    | none =>
      have refused : ¬ (de.statusCode ≠ 429 ∧ de.statusCode < 500) := by simpa [reason] using going.2.2
      omega
  · by_cases again : cand.accountId ∈ tried
    · exact .inr again
    · exact .inl (explained again)
  · exact .inl trivial

end Loop

def fair (status : Nat) (checks : Check → Except Cause Unit) (i : Nat) : Weather :=
  { leaseId := 100 + i, newOwner := "", attemptId := 200 + i, now := i, checkedAt := i, releasedAt := i
    recheck := .ok (some .active), checks, exchange := .answered status (.decoded true)
    persist := .none, mark := .none, finish := .none, release := .none, before := [], meanwhile := []
    during := [] }

end YunhouUsers.Inference.Gateway.Failover
