import YunhouUsers.Inference.Conservation.Invariant
import YunhouUsers.Inference.Gateway.Recovery
import YunhouUsers.Inference.Postgres.Frames

/-!
Whether final requests stay final, in every interleaving of a gateway run with recovery passes.

Settling and releasing lock the request row before they look at its status, and the mark for
reconciliation carries its condition in the `UPDATE`.  The in-flight marks of the gateway do
neither, so a schedule has to spare final requests from them.
-/

namespace YunhouUsers.Inference.Gateway

open ReadCommitted CrashProne Table Postgres

/-! ### Programs as database sessions -/

inductive Label where
  | tx (op : String)
  | release (op : String)
  | other
deriving DecidableEq

abbrev Surroundings := Nat → (op : Op) → op.Choice

def transaction (body : Tx Unit) (name : String → Label) (fault : Fault)
    (next : Except Cause Unit → Proc Db LockKey Label Unit) : Proc Db LockKey Label Unit :=
  match fault with
  | .rolledBack cause => next (.error cause)
  | .none => (body.relabel name).inTx fun answer => next (answer.mapError Cause.ofErr)
  | .unacknowledged cause =>
    (body.relabel name).inTx fun
      | .ok _ => next (.error cause)
      | .error e => next (.error (Cause.ofErr e))

/-- The program as a session, from its `n`-th call on.  Whatever is not a transaction reads at
most the committed rows of one moment. -/
def session (s : Surroundings) : GatewayM Unit → Nat → Proc Db LockKey Label Unit
  | .done _, _ => .done ()
  | .call op next, n =>
    match op, next with
    | .tx body, next =>
      transaction body .tx (s n (.tx body)) fun r => session s (next r) (n + 1)
    | .release requestId fromReconciliation, next =>
      transaction (releaseLocked requestId fromReconciliation) .release
        (s n (.release requestId fromReconciliation)) fun r => session s (next r) (n + 1)
    | op, next =>
      .stmt .other (fun _ => []) (fun _ db => db) fun view =>
        .commit (session s (next (exec op (s n op) { db := view }).1) (n + 1))

/-! ### The contract -/

def terminal (db : Db) (id : Uuid) : Bool := (db.findRequest id).any isFinal

def Label.isMark (l : Label) : Bool := l = .tx "update request status"

/-- What one commit may do: final requests stay final, and a request becomes final only under
a `FOR UPDATE` lock on its row. -/
def Progress (held : List (LockKey × LockMode)) (db db' : Db) : Prop :=
  ∀ id, (terminal db id = true → terminal db' id = true) ∧
    (terminal db' id = true → terminal db id = true ∨ (.request id, .update) ∈ held)

def terminalContract (r : Uuid) : Contract Db LockKey Label where
  inv _ := True
  guarantee := Progress
  idle _ _ _ := ⟨id, .inl⟩
  ready l db := l.isMark = true → terminal db r = false

variable {db db' : Db}

theorem terminal_update {p : Request → Bool} {f : Request → Request}
    (rows : db'.requests = updateWhere p f db.requests) (same : ∀ q, (f q).id = q.id) (id : Uuid) :
    terminal db' id = (db.findRequest id).any fun q => isFinal (if p q then f q else q) := by
  simp only [terminal, Db.findRequest]
  rw [rows, find_updateWhere same]
  cases db.requests.find? (·.id = id) <;> rfl

def terminalBut (x : Uuid) (db : Db) (id : Uuid) : Bool := id ≠ x && terminal db id

theorem terminalBut_beside (x : Uuid) : Beside (terminalBut x) where
  costs _ _ _ := rfl

variable {x : Uuid}

theorem terminalBut_update {p : Request → Bool} {f : Request → Request}
    (same : ∀ q, (f q).id = q.id) (only : ∀ q, p q = true → q.id = x) :
    terminalBut x { db with requests := updateWhere p f db.requests } = terminalBut x db := by
  funext id
  unfold terminalBut
  by_cases other : id = x
  · simp [other]
  · rw [terminal_update rfl same, terminal]
    cases row : db.findRequest id with
    | none => rfl
    | some q =>
      have miss : p q = false := by
        cases hit : p q with
        | false => rfl
        | true => exact absurd ((find_key row).2.symm.trans (only q hit)) other
      simp [miss]

variable {held : List (LockKey × LockMode)}

theorem Progress.one (same : terminalBut x db' = terminalBut x db)
    (stays : terminal db x = true → terminal db' x = true)
    (locked : terminal db' x = true → terminal db x = true ∨ (.request x, .update) ∈ held) :
    Progress held db db' := by
  intro id
  by_cases other : id = x
  · exact other ▸ ⟨stays, locked⟩
  · have at_id : terminal db' id = terminal db id := by
      simpa [terminalBut, other] using congrFun same id
    rw [at_id]
    exact ⟨fun h => h, .inl⟩

/-! ### The transactions -/

section Transactions

variable {r : Uuid} {name : String → Label}

abbrev bodyContract (r : Uuid) (name : String → Label) : Contract Db LockKey String :=
  (terminalContract r).comap name

theorem open_stable (mode : LockMode) (mine : (.request x, mode) ∈ held) :
    (bodyContract r name).Stable held (fun db => terminal db x = false) := by
  intro other db db' compatible _ _ allowed isOpen
  have unlocked : (LockKey.request x, LockMode.update) ∉ other :=
    compatible.not_mem mine (LockMode.conflicts_update _)
  by_contra final
  rcases (allowed x).2 (by simpa using final) with already | locked
  · simp [isOpen] at already
  · exact unlocked locked

structure Finishing (r : Uuid) (name : String → Label) (x : Uuid) (K : Db → Prop)
    (held : List (LockKey × LockMode)) (pending : Db → Db) : Prop where
  stable : (bodyContract r name).Stable held K
  isOpen : ∀ db, K db → terminal db x = false
  locked : (.request x, .update) ∈ held
  others : ∀ db, terminalBut x (pending db) = terminalBut x db

variable {pending : Db → Db}

theorem Finishing.mayCommit {K : Db → Prop} (f : Finishing r name x K held pending) :
    (bodyContract r name).MayCommit K held pending := by
  refine ⟨f.stable.at _, fun db _ known => ⟨trivial, ?_⟩⟩
  refine .one (f.others db) (fun final => ?_) (fun _ => .inr f.locked)
  simp [f.isOpen db known] at final

theorem Finishing.frame {K : Db → Prop} {α : Type} {t : Tx α} {post : Post Db LockKey α}
    (f : Finishing r name x K held pending) (keeps : t.Keeps (terminalBut x))
    (rest : ∀ a held pending, Finishing r name x K held pending → post a K held pending) :
    t.Meets (bodyContract r name) K held pending post := by
  refine keeps.meets (fun _ _ _ _ => trivial) f.stable fun a held' pending' more stable same => ?_
  exact rest a held' pending'
    ⟨stable, f.isOpen, more f.locked, fun db => (same db).trans (f.others db)⟩

theorem lockRequest_meets {op : String} (clean : ∀ db, pending db = db)
    {post : Post Db LockKey Request}
    (rest : ∀ q K held, (isFinal q = false → Finishing r name x K held pending) →
      post q K held pending) :
    (selectForUpdate op (.request x) fun db => db.findRequest x).Meets
      (bodyContract r name) (fun _ => True) held pending post := by
  refine .bind (.queryLocking ((Discipline.stable_true _ _).at _) fun db _ _ _ => ?_)
  cases row : (pending db).findRequest x with
  | none => exact ⟨trivial, fun _ => True, trivial, .orThrow (by simp)⟩
  | some q =>
    refine ⟨trivial, fun db => isFinal q = false → terminal db x = false, ?_, .orThrow ?_⟩
    · intro live
      rw [clean] at row
      simp [terminal, row, live]
    · rintro _ ⟨⟩
      refine rest q _ _ fun live => ?_
      refine ⟨?_, fun db known => known live, by simp [row], fun db => by rw [clean]⟩
      intro other db db' compatible inv inv' allowed known _
      refine open_stable .update ?_ other db db' compatible inv inv' allowed (known live)
      simp [row]

theorem status_open {q : Request}
    (ok : (decide (q.status ≠ .settled) && decide (q.status ≠ .released)) = true) :
    isFinal q = false := by
  simpa [isFinal] using ok

theorem markSettled_others (op : String) (cmd : SettleCommand) (settled : Int) :
    (markSettled op cmd settled).Keeps (terminalBut cmd.requestId) :=
  .bind (tryUpdate_keeps fun _ => terminalBut_update (fun _ => rfl) (by simp)) fun _ => .pure _

variable (cmd : SettleCommand)

theorem settlePlan_others (q : Request) : (settlePlan cmd q).Keeps (terminalBut cmd.requestId) :=
  have beside := terminalBut_beside cmd.requestId
  .bind (insertUsageRecord_keeps beside _) fun _ => .bind (insertRow_keeps fun _ => rfl) fun _ =>
    .bind (.query _ _) fun _ => .bind (.require _ _) fun _ =>
      .bind (settleRows_keeps beside _ _) fun _ =>
        .bind (updateAttemptCost_keeps beside _ _) fun _ => markSettled_others _ _ _

theorem settleWallet_others (now : Int) (q : Request) :
    (settleWallet cmd now q).Keeps (terminalBut cmd.requestId) :=
  have beside := terminalBut_beside cmd.requestId
  .bind (.require _ _) fun _ => .bind (insertUsageRecord_keeps beside _) fun _ =>
    .bind (resolveWalletCharge_keeps _) fun _ => .bind (.require _ _) fun _ =>
      .bind (insertRow_keeps fun _ => rfl) fun _ =>
        .bind (settleWalletLocked_keeps (fun _ _ => rfl) (fun _ _ => rfl) _ _ _) fun _ =>
          .bind (.exec fun _ _ => rfl) fun _ =>
            .bind (updateAttemptCost_keeps beside _ _) fun _ => markSettled_others _ _ _

theorem settle_meets (now : Int) {post : Post Db LockKey Unit}
    (rest : ∀ K held pending, Finishing r name cmd.requestId K held pending →
      post () K held pending) :
    (Postgres.settle cmd now).Meets (bodyContract r name) (fun _ => True) [] id post := by
  refine .bind (.require fun _ => .bind (lockRequest_meets (fun _ => rfl) ?_))
  intro q K held finishing
  refine .bind (.require fun live => ?_)
  have f := finishing (status_open live)
  split
  · exact f.frame (settleWallet_others _ _ _) fun _ _ _ => rest _ _ _
  · exact f.frame (settlePlan_others _ _) fun _ _ _ => rest _ _ _

theorem enqueue_others (x jobId requestId : Uuid) (reason : JobReason) (deadline : Int) :
    (enqueueReconciliationJobTx jobId requestId reason deadline).Keeps (terminalBut x) :=
  insertRow_keeps fun _ => by split <;> rfl

theorem settleThen_meets (now deadline : Int) (also : Bool)
    (jobId requestId : Uuid) (reason : JobReason) :
    (do
      Postgres.settle cmd now
      Txn.when also (enqueueReconciliationJobTx jobId requestId reason deadline) : Tx Unit).Meets
      (bodyContract r name) (fun _ => True) [] id
      (fun _ => (bodyContract r name).MayCommit) := by
  refine .bind (settle_meets cmd now fun K held pending f => ?_)
  exact f.frame (.when (enqueue_others _ _ _ _ _)) fun _ _ _ f => f.mayCommit

theorem updateRequestStatus_others (id : Uuid) (status : RequestStatus) (lastErr : String) :
    (updateRequestStatus id status lastErr).Keeps (terminalBut id) :=
  updateRow_keeps fun _ => terminalBut_update (fun _ => rfl) (by simp)

theorem releaseLocked_meets (x : Uuid) (fromReconciliation : Bool) :
    (releaseLocked x fromReconciliation).Meets (bodyContract r name) (fun _ => True) [] id
      (fun _ => (bodyContract r name).MayCommit) := by
  have beside := terminalBut_beside x
  have unlocked := (bodyContract r name).stable_true []
  -- up to the lock the body only reads
  refine .bind ((selectOne_keeps _ _ : (selectOne _ _).Keeps (fun db : Db => db)).meets
    (fun _ _ _ _ => trivial) unlocked fun q held pending _ stable clean => ?_)
  refine .bind ((lockAccountTx_keeps _ : (lockAccountTx _).Keeps (fun db : Db => db)).meets
    (fun _ _ _ _ => trivial) stable fun _ held' pending' _ _ clean' => ?_)
  refine .bind (lockRequest_meets (fun db => (clean' db).trans (clean db)) ?_)
  intro q K held finishing
  refine .bind (.require fun live => .bind (.require fun _ => ?_))
  refine (finishing (status_open live)).frame ?_ fun _ _ _ f => f.mayCommit
  exact .bind (.query _ _) fun _ => .bind (.require _ _) fun _ =>
    .bind (releaseRows_keeps beside (fun _ _ => rfl) _ _ _) fun _ =>
      .bind (voidReleased_keeps beside _) fun _ =>
        .bind (.when (.bind (tryUpdate_keeps fun _ => rfl) fun _ => .pure _)) fun _ =>
          updateRequestStatus_others _ _ _

theorem terminal_congr (same : db'.requests = db.requests) (id : Uuid) :
    terminal db' id = terminal db id := by
  simp only [terminal, Db.findRequest, same]

theorem Progress.same (same : ∀ id, terminal db' id = terminal db id) : Progress held db db' := by
  intro id
  rw [same id]
  exact ⟨fun h => h, .inl⟩

theorem meets_of_keeps {t : Tx Unit} (keeps : t.Keeps (·.requests)) :
    t.Meets (bodyContract r name) (fun _ => True) [] id
      (fun _ => (bodyContract r name).MayCommit) := by
  refine keeps.meets (fun _ _ _ _ => trivial) (Discipline.stable_true _ _)
    fun _ held pending _ stable same => ?_
  exact ⟨stable.at _, fun db _ _ => ⟨trivial, .same (terminal_congr (same db))⟩⟩

theorem markReconciliationRequired_meets (x : Uuid) (reason : JobReason) (deadline : Int)
    (jobId : Uuid) :
    (markReconciliationRequired x reason deadline jobId).Meets (bodyContract r name)
      (fun _ => True) [] id (fun _ => (bodyContract r name).MayCommit) := by
  refine .bind (.exec ((Discipline.stable_true _ _).at _) fun _ _ _ _ => ⟨trivial, fun hit _ => ?_⟩)
  refine ⟨fun _ => True, trivial, ?_⟩
  have rest : (if hit = true then enqueueReconciliationJobTx jobId x reason deadline else do
      let exists_ ← Txn.query "mark reconciliation" fun db => db.requests.any (·.id = x)
      Txn.require exists_ (mapError "mark reconciliation" .noRows)).Keeps
        (·.requests) := by
    split
    · exact insertRow_keeps fun _ => by split <;> rfl
    · exact .bind (.query _ _) fun _ => .require _ _
  refine rest.meets (fun _ _ _ _ => trivial) (Discipline.stable_true _ _)
    fun _ held pending _ stable same => ?_
  refine ⟨stable.at _, fun db _ _ => ⟨trivial, .same fun id => ?_⟩⟩
  rw [terminal_update (same db) (fun _ => rfl), terminal]
  show (db.findRequest id).any _ = _
  cases db.findRequest id with
  | none => rfl
  | some q =>
    simp only [Option.any_some]
    split
    · rename_i live
      simp only [Bool.and_eq_true, decide_eq_true_eq] at live
      simp [isFinal, live]
    · rfl

theorem inFlight_meets {status : RequestStatus} (lastErr : String)
    (live : status ≠ .settled ∧ status ≠ .released) :
    (updateRequestStatus r status lastErr).Meets (bodyContract r .tx)
      (fun _ => True) [] id (fun _ => (bodyContract r .tx).MayCommit) := by
  refine .exec ((Discipline.stable_true _ _).at _) fun db _ _ ready => ⟨trivial, fun _ outcome => ?_⟩
  have hit : db.requests.any (·.id = r) = true := by
    by_contra miss
    simp [miss] at outcome
  refine ⟨fun db => terminal db r = false, ready rfl, ?_, fun db _ isOpen => ⟨trivial, ?_⟩⟩
  · -- the row lock of the `UPDATE` keeps the final transitions out until the commit
    refine (open_stable .noKeyUpdate ?_).at _
    simp [hit]
  · refine .one (x := r) (terminalBut_update (fun _ => rfl) (by simp)) (by simp [isOpen]) ?_
    intro final
    obtain ⟨q, row, set⟩ := (Option.any_eq_true _ _).mp
      ((terminal_update (by exact rfl) (by exact fun _ => rfl) r).symm.trans final)
    have key : q.id = r := (find_key row).2
    simp [key, isFinal, live] at set

end Transactions

/-! ### The programs -/

def Op.Keeping (r : Uuid) : Op → Prop
  | .tx body => body.Meets (bodyContract r .tx) (fun _ => True) [] id
      (fun _ => (bodyContract r .tx).MayCommit)
  | _ => True

theorem transaction_safe {r : Uuid} {body : Tx Unit} {name : String → Label} {fault : Fault}
    {next : Except Cause Unit → Proc Db LockKey Label Unit}
    (safe : body.Meets (bodyContract r name) (fun _ => True) [] id
      (fun _ => (bodyContract r name).MayCommit))
    (rest : ∀ answer, (next answer).Meets (terminalContract r) noTerms (fun _ => True) [] id) :
    (transaction body name fault next).Meets (terminalContract r) noTerms (fun _ => True) [] id := by
  have commits : (body.relabel name).Meets (terminalContract r) (fun _ => True) [] id
      (fun _ => (terminalContract r).MayCommit) := .relabel safe
  cases fault with
  | rolledBack cause => exact rest _
  | none => exact Txn.Meets.bracket (fun _ => rest _) commits
  | unacknowledged cause =>
    unfold transaction
    refine Txn.Meets.bracket (fun answer => ?_) commits
    cases answer <;> exact rest _

theorem session_safe {r : Uuid} (s : Surroundings) {p : GatewayM Unit}
    (only : p.Only (Op.Keeping r)) (n : Nat) :
    (session s p n).Meets (terminalContract r) noTerms (fun _ => True) [] id := by
  induction p generalizing n with
  | done _ => trivial
  | call op next ih =>
    have rest := fun answer => ih answer (only.2 answer) (n + 1)
    have stable := ((terminalContract r).stable_true ([] : List (LockKey × LockMode)))
    cases op
    case tx body => exact transaction_safe only.1 rest
    case release id recovering => exact transaction_safe (releaseLocked_meets _ _) rest
    all_goals
      exact ⟨stable.at _, fun db _ _ _ => ⟨trivial, fun _ => True, trivial, .commit
        ⟨stable.at _, fun db _ _ => ⟨trivial, (terminalContract r).idle _ _⟩⟩
        (fun _ _ _ => trivial) (rest _)⟩⟩

section Programs

variable {r : Uuid}

abbrev Keeping (r : Uuid) {α : Type} (p : GatewayM α) : Prop := p.Only (Op.Keeping r)

theorem tx_keeping {body : Tx Unit} (h : (Op.tx body).Keeping r) : Keeping r (tx body) := .perform h

theorem check_keeping (what : Check) : Keeping r (check what) := .perform trivial

theorem finishAttempt_keeping (id : Uuid) (status : AttemptStatus) (errorKind : String) :
    Keeping r (finishAttempt id status errorKind) :=
  .bind (tx_keeping (meets_of_keeps (updateRow_keeps fun _ => rfl))) fun _ => .pure _

theorem keeping_settling : Settling (Op.Keeping r) where
  asks op passive := by
    cases op with
    | tx => cases passive
    | _ => trivial
  settles _ _ _ _ _ _ _ := settleThen_meets _ _ _ _ _ _ _
  parks _ _ _ _ := markReconciliationRequired_meets _ _ _ _

theorem mark_keeping {status : RequestStatus} (live : status ≠ .settled ∧ status ≠ .released) :
    Keeping r (tx (updateRequestStatus r status "")) := tx_keeping (inFlight_meets _ live)

section Loop

variable {adm : AdmissionResult} (s : Service) (stream : Bool)

theorem dispatch_keeping (attemptId : Uuid) :
    Keeping r (dispatch (gatewaySteps r adm) stream attemptId) := by
  refine .bind (check_keeping _) fun answer => ?_
  cases answer with
  | error _ => exact .pure _
  | ok _ =>
    refine .bind (check_keeping _) fun answer => ?_
    cases answer with
    | error _ => exact .pure _
    | ok _ =>
      refine .bind (check_keeping _) fun answer => ?_
      cases answer with
      | error _ => exact .pure _
      | ok _ => exact .bind (.perform trivial) fun _ => .pure _

theorem failAttempt_keeping (id : Uuid) (status : AttemptStatus) (kind : String) :
    Keeping r (failAttempt (gatewaySteps r adm) id () status kind) :=
  .bind (finishAttempt_keeping _ _ _) fun _ => .pure _

theorem callUpstream_keeping (attemptId : Uuid) :
    Keeping r (callUpstream (gatewaySteps r adm) stream attemptId ()) := by
  refine .bind (dispatch_keeping _ _) fun answer => ?_
  rcases answer with (⟨de⟩ | ⟨code, message⟩) | (_ | reported)
  · exact .bind (failAttempt_keeping _ _ _) fun _ => .pure _
  · exact .bind (failAttempt_keeping _ _ _) fun _ => .pure _
  · exact .bind (.bind (mark_keeping (by decide)) fun _ => .pure _) fun _ => .pure _
  · exact .bind (.bind (finishAttempt_keeping _ _ _) fun _ => .bind (mark_keeping (by decide))
      fun _ => .bind (settle_only keeping_settling _ _ _ _) fun _ => .pure _) fun _ => .pure _

theorem orFail_keeping {id : Uuid} {kind : String} {probe : GatewayM (Except Cause Unit)}
    {err : Cause → AttemptError} {rest : GatewayM (Except AttemptError Outcome)}
    (first : Keeping r probe) (then_ : Keeping r rest) :
    Keeping r (orFail (gatewaySteps r adm) id () kind probe err rest) := by
  refine .bind first fun answer => ?_
  cases answer with
  | ok _ => exact then_
  | error _ => exact .bind (failAttempt_keeping _ _ _) fun _ => .pure _

theorem attempt_keeping (attemptNo : Nat) (cand : Candidate) :
    Keeping r (attempt (gatewaySteps r adm) s stream r attemptNo cand) := by
  have persisted (a : Attempt) : Keeping r ((gatewaySteps r adm).persistAttempt cand a) := by
    refine .bind (check_keeping _) fun answer => ?_
    cases answer with
    | error err => exact .pure _
    | ok _ => exact tx_keeping (meets_of_keeps (insertRow_keeps fun _ => rfl))
  refine .bind (.perform trivial) fun id => .bind (persisted _) fun answer => ?_
  cases answer with
  | error _ => exact .pure _
  | ok _ =>
    refine orFail_keeping (check_keeping _) (orFail_keeping ?_ (orFail_keeping (check_keeping _)
      (orFail_keeping (check_keeping _) (orFail_keeping (mark_keeping (by decide))
        (callUpstream_keeping _ _)))))
    split
    · exact check_keeping _
    · exact .pure _

theorem releaseAndFail_keeping (code : Code) (message : String) :
    Keeping r (releaseAndFail (gatewaySteps r adm) code message) :=
  .bind (.bind (.perform trivial) fun _ => .pure _) fun _ => .pure _

theorem conclude_keeping (accountId : Uuid) (result : Except AttemptError Outcome) :
    Keeping r (conclude (gatewaySteps r adm) accountId result) := by
  rcases result with (de | ⟨code, message⟩) | outcome
  · unfold conclude
    dsimp only
    split_ifs
    · exact .bind (.bind (markReconciliation_only keeping_settling _ _) fun _ => .pure _) fun _ => .pure _
    · exact .bind (releaseAndFail_keeping _ _) fun _ => .pure _
    · exact .bind (releaseAndFail_keeping _ _) fun _ => .pure _
    · exact .pure _
    · exact .bind (.perform trivial) fun _ => .pure _
  · exact .bind (releaseAndFail_keeping _ _) fun _ => .pure _
  · exact .pure _

theorem dispatchFrom_keeping (cands : List Candidate) (i : Nat) :
    Keeping r (dispatchFrom (fun _ => gatewaySteps r adm) s stream r cands i) := by
  induction cands generalizing i with
  | nil => exact .bind (releaseAndFail_keeping _ _) fun _ => .pure _
  | cons cand cands ih =>
    unfold dispatchFrom
    refine .bind (.pure _) fun _ => ?_
    split
    · exact .bind (ih _) fun _ => .pure _
    · refine .bind (attempt_keeping _ _ _ _) fun result => .bind (conclude_keeping _ _) fun answer => ?_
      cases answer with
      | some final => exact .pure _
      | none => exact .bind (ih _) fun _ => .pure _

theorem serve_keeping (cands : List Candidate) : Keeping r (serve s stream r adm cands) := by
  refine .bind (dispatchFrom_keeping _ _ _ _) fun outcome => ?_
  split
  · refine .bind (.perform trivial) fun report => .bind (finishAttempt_keeping _ _ _) fun _ => ?_
    split
    · exact markReconciliation_only keeping_settling _ _
    · split <;> exact settle_only keeping_settling _ _ _ _
  · exact .pure _

end Loop

theorem loadEvidence_keeping (x : Uuid) : Keeping r (loadEvidence x) := by
  refine .bind (.perform trivial) fun attempts => ?_
  split
  · exact .pure _
  · refine .bind (.perform trivial) fun kinds => ?_
    split <;> exact .pure _

theorem releaseProvenZero_keeping (x : Uuid) (fromReconciliation : Bool) :
    Keeping r (releaseProvenZero x fromReconciliation) :=
  .bind (.perform trivial) fun _ => .pure _

theorem recoverRequest_keeping (deadline : Int) (q : Request) :
    Keeping r (recoverRequest deadline q) := by
  refine .bind (loadEvidence_keeping _) fun evidence => ?_
  split
  · exact .pure _
  · split
    · exact releaseProvenZero_keeping _ _
    · exact settleUnknownCharge_only keeping_settling _ _ _

theorem processJob_keeping (deadline : Int) (job : ReconciliationJob) :
    Keeping r (processJob deadline job) := by
  refine .bind (.perform trivial) fun found => ?_
  split
  · exact .pure _
  · split
    · exact .pure _
    · refine .bind (loadEvidence_keeping _) fun evidence => ?_
      split
      · exact .pure _
      · split
        · exact .pure _
        · split
          · exact releaseProvenZero_keeping _ _
          · exact settleUnknownCharge_only keeping_settling _ _ _

theorem runPass_keeping (deadline : Int) (batch : Uuid → Bool) :
    Keeping r (runPass deadline batch) := by
  refine .bind (.perform trivial) fun at_ => .bind ?_ fun _ => .bind ?_ fun _ =>
    .bind (tx_keeping (meets_of_keeps ?_)) fun _ => .pure _
  · refine .bind (.perform trivial) fun stale => ?_
    split
    · exact .pure _
    · exact .each (recoverRequest_keeping _) _
  · refine .bind (.perform trivial) fun jobs => ?_
    split
    · exact .pure _
    · exact .each (processJob_keeping _) _
  · unfold escalateOverdue
    exact .exec fun _ _ => rfl

end Programs

/-! ### Runs -/

section Runs

variable {J : Type}

def participants (s : Service) (stream : Bool) (r : Uuid) (adm : AdmissionResult)
    (cands : List Candidate) (passes : J → List (Int × (Uuid → Bool)))
    (around : Option J → Surroundings) : Option J → Proc Db LockKey Label Unit
  | none => session (around none) (serve s stream r adm cands) 0
  | some j => session (around (some j)) (Prog.each (fun p => runPass p.1 p.2) (passes j)) 0

def marksNext : Proc Db LockKey Label Unit → Bool
  | .stmt l _ _ _ => l.isMark
  | _ => false

def alone (e : Empty) : Db → Db := nomatch e

def SparesFinal (r : Uuid) (c : Config Db LockKey Label Unit (Option J)) :
    Action (Option J) Empty → Prop
  | .step i => marksNext (c.session i).code = true → terminal c.db r = false
  | _ => True

instance (r : Uuid) (c : Config Db LockKey Label Unit (Option J)) :
    (a : Action (Option J) Empty) → Decidable (SparesFinal r c a)
  | .step i =>
    inferInstanceAs (Decidable (marksNext (c.session i).code = true → terminal c.db r = false))
  | .kill _ => .isTrue trivial
  | .env _ => .isTrue trivial

theorem participants_safe (s : Service) (stream : Bool) (r : Uuid) (adm : AdmissionResult)
    (cands : List Candidate) (passes : J → List (Int × (Uuid → Bool)))
    (around : Option J → Surroundings) (i : Option J) :
    (participants s stream r adm cands passes around i).Meets (terminalContract r) noTerms
      (fun _ => True) [] id := by
  cases i with
  | none => exact session_safe _ (serve_keeping _ _ _) _
  | some j => exact session_safe _ (.each (fun p => runPass_keeping _ _) _) _

variable [DecidableEq J]

theorem admissible_of_spares {r : Uuid} {c : Config Db LockKey Label Unit (Option J)}
    {a : Action (Option J) Empty} (spares : SparesFinal r c a) :
    c.Admissible (terminalContract r) alone a := by
  cases a with
  | env e => exact nomatch e
  | kill i => trivial
  | step i =>
    cases code : (c.session i).code with
    | stmt l ks w n =>
      simpa [Config.Admissible, SparesFinal, marksNext, code, terminalContract] using spares
    | commit n => simp [Config.Admissible, code, terminalContract]
    | _ => simp [Config.Admissible, code]

/-- As long as no in-flight mark of the gateway meets a final request, final requests stay
final: whatever the surroundings answer, however the statements interleave and whichever
sessions die. -/
theorem final_requests_stay (s : Service) (stream : Bool) (r : Uuid) (adm : AdmissionResult)
    (cands : List Candidate) (passes : J → List (Int × (Uuid → Bool)))
    (around : Option J → Surroundings) (db : Db) (as bs : List (Action (Option J) Empty))
    {c c' : Config Db LockKey Label Unit (Option J)}
    (spares : (Config.start db (participants s stream r adm cands passes around)).Along alone
      (SparesFinal r) (as ++ bs))
    (before : (Config.start db (participants s stream r adm cands passes around)).run alone as =
      some c)
    (after : c.run alone bs = some c') (id : Uuid) (final : terminal c.db id = true) :
    terminal c'.db id = true := by
  have promised := Config.Along.mono (fun _ _ => admissible_of_spares) spares
  obtain ⟨first, second⟩ := Config.along_append.mp promised
  have outside : Config.EnvAllowed (terminalContract r).toDiscipline alone :=
    fun e => e.elim
  have start : (Config.start db (participants s stream r adm cands passes around)).Meeting
      (terminalContract r) fun _ => noTerms :=
    Config.meeting_start trivial (participants_safe s stream r adm cands passes around)
  have meeting := start.run outside first before
  exact (meeting.run_keeps outside (I := fun db => terminal db id = true)
    (fun _ _ _ _ _ allowed => (allowed id).1) final (second c before) after).2

end Runs

def staleDb : Db :=
  { accounts := [⟨1, .active⟩]
    windows := [⟨10, 5, .weekly, 0, 1000, 100, 0, 7, false⟩]
    requests := [⟨3, 1, none, 5, 6, none, .reserved, some 3, none, some 10, none, some 7, none,
      .plan, .pending, "", none⟩]
    reservations := [⟨30, 3, .windowWeekly, some 10, none, 7, .held⟩] }

def smooth : Surroundings := fun n op =>
  match op with
  | .check _ => .ok ()
  | .newId => 40 + n
  | .now => (5 : Int)
  | .tx _ | .release _ _ => Fault.none
  | .send _ => .answered 200 (.decoded true)
  | .cooldown _ => ()
  | .streamEnd => ⟨.completed, false, true, true, false⟩
  | .price => .ok ⟨7, none⟩
  | .attemptCost => .ok none
  | .lookupUsage _ => none
  | .listAttempts _ | .attemptErrorKinds _ | .getRequest _ | .latestUsageRevision _ => .ok ()
  | .listStaleOpenRequests | .listPendingReconciliationJobs => .ok fun _ => true

def raceStart : Config Db LockKey Label Unit (Option Unit) :=
  .start staleDb (participants ⟨3, [.openaiChat], false⟩ false 3 ⟨7, .plan⟩ [⟨50, 1, .openaiChat⟩]
    (fun _ => [(60, fun _ => true)]) fun _ => smooth)

def statuses (c : Config Db LockKey Label Unit (Option Unit)) : List RequestStatus :=
  c.db.requests.map (·.status)

def steps (i : Option Unit) (n : Nat) : List (Action (Option Unit) Empty) :=
  List.replicate n (.step i)

theorem final_requests_stay_released :
    ∃ c c', raceStart.run alone (steps (some ()) 20) = some c ∧
      c.run alone (steps none 12) = some c' ∧ terminal c'.db 3 = true := by
  obtain ⟨c, before⟩ := Option.isSome_iff_exists.mp
    (by decide : (raceStart.run alone (steps (some ()) 20)).isSome = true)
  have final : terminal c.db 3 = true := by
    have seen : (raceStart.run alone (steps (some ()) 20)).map (fun c => terminal c.db 3) =
        some true := by decide
    simpa [before] using seen
  have goesOn : (c.run alone (steps none 12)).isSome = true := by
    have whole : (raceStart.run alone (steps (some ()) 20 ++ steps none 12)).isSome = true := by
      decide
    simpa [Config.run_append, before] using whole
  obtain ⟨c', after⟩ := Option.isSome_iff_exists.mp goesOn
  exact ⟨c, c', before, after, final_requests_stay _ _ _ _ _ _ _ _ _ _ (by decide +kernel) before
    after 3 final⟩

/-- The pass finds no attempt and releases the request; the gateway, which was only slow, then
marks it as dispatching and calls the upstream. -/
theorem final_request_marked :
    (raceStart.run alone (steps (some ()) 20)).map statuses = some [.released] ∧
    (raceStart.run alone (steps (some ()) 20 ++ steps none 14)).map statuses =
      some [.dispatching] := by
  decide

end YunhouUsers.Inference.Gateway
