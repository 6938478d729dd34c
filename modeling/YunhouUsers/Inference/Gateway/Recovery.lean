import YunhouUsers.Inference.Gateway.Dispatch

/-!
The settlement recovery worker (`internal/inference/workers/settlement_recovery.go`).
Counters and log lines are left out, and so are the window-level mismatch jobs of the fourth
phase, which the model's job table does not hold.
-/

namespace YunhouUsers.Inference.Gateway

open ReadCommitted CrashProne Table Postgres

def zeroConsumptionErrorKind (kind : String) : Bool :=
  "http_".toList.isPrefixOf kind.toList ||
    kind ∈ ["payload", "egress_rejected", "credential", "config", "lease_lost", "storage",
      "transport"]

/-- `recoveryClass`, with the attempt a conservative settlement attaches to. -/
inductive RecoveryClass where
  | notSent
  | unknownCharge (anchor : Attempt)
deriving DecidableEq

/-- `errorKinds[id]`; a missing key reads as the empty string. -/
def kindOf (errorKinds : List (Uuid × String)) (id : Uuid) : String :=
  ((errorKinds.find? (fun k => k.1 = id)).map (fun k => k.2)).getD ""

/-- The loop of `classify`: the last attempt whose outcome is not proven zero. -/
def anchorOf (errorKinds : List (Uuid × String)) : List Attempt → Option Attempt → Option Attempt
  | [], anchor => anchor
  | a :: attempts, anchor =>
    if a.status = .failed && zeroConsumptionErrorKind (kindOf errorKinds a.id) then
      anchorOf errorKinds attempts anchor
    else anchorOf errorKinds attempts (some a)

def classify (attempts : List Attempt) (errorKinds : List (Uuid × String)) : RecoveryClass :=
  match anchorOf errorKinds attempts none with
  | none => .notSent
  | some anchor => .unknownCharge anchor

variable {kinds : List (Uuid × String)}

theorem anchorOf_none {attempts : List Attempt} :
    ∀ {anchor : Option Attempt}, anchorOf kinds attempts anchor = none ↔ anchor = none ∧
      ∀ a ∈ attempts, a.status = .failed ∧ zeroConsumptionErrorKind (kindOf kinds a.id) = true := by
  induction attempts with
  | nil => simp [anchorOf]
  | cons a attempts ih =>
    intro anchor
    rw [List.forall_mem_cons, anchorOf]
    split_ifs with zero
    · simp only [Bool.and_eq_true, decide_eq_true_eq] at zero
      rw [ih]
      simp [zero]
    · simp only [Bool.and_eq_true, decide_eq_true_eq] at zero
      rw [ih]
      simp [zero]

theorem classify_notSent {attempts : List Attempt} :
    classify attempts kinds = .notSent ↔
      ∀ a ∈ attempts, a.status = .failed ∧ zeroConsumptionErrorKind (kindOf kinds a.id) = true := by
  unfold classify
  split
  · rename_i none
    simpa using (anchorOf_none.mp none).2
  · rename_i anchor found
    simp only [reduceCtorEq, false_iff]
    intro all
    have none := anchorOf_none.mpr ⟨rfl, all⟩
    rw [found] at none
    cases none

def loadEvidence (requestId : Uuid) :
    GatewayM (Except Cause (List Attempt × List (Uuid × String))) := do
  match ← ask (.listAttempts requestId) with
  | .error err => pure (.error err)
  | .ok attempts =>
    match ← ask (.attemptErrorKinds requestId) with
    | .error err => pure (.error err)
    | .ok kinds => pure (.ok (attempts, kinds))

def releaseProvenZero (requestId : Uuid) (fromReconciliation : Bool) : GatewayM Unit := do
  let _ ← ask (.release requestId fromReconciliation)
  pure ()

/-- A conservative estimate files its verification job in the same transaction. -/
def commitSettlement (requestId anchorId : Uuid) (record : UsageRecord) (charge : Int)
    (deadline : Int) (verified : Bool) : GatewayM Unit := do
  let settledAt ← ask .now
  let cost ← ask .attemptCost
  let jobId ← ask .newId
  let cost := cost.toOption.bind id
  let cmd : SettleCommand :=
    { requestId := requestId, usage := record, chargeMicros := charge, walletCharge := none
      attemptId := cost.map (fun _ => anchorId), attemptCost := cost.map (fun c => c.1)
      costBasis := cost.map (fun c => c.2), settledAt := settledAt }
  let _ ← tx do
    Postgres.settle cmd settledAt
    Txn.when (!verified)
      (enqueueReconciliationJobTx jobId requestId .crashRecovery (settledAt + deadline))
  pure ()

/-- The provider's own record if there is one, else the whole hold. -/
def settleUnknownCharge (q : Request) (anchor : Attempt) (deadline : Int) : GatewayM Unit := do
  match q.reservedMicros with
  | none => pure ()
  | some reserved =>
    match ← ask (.lookupUsage anchor.id) with
    | some (record, charge) =>
      commitSettlement q.id anchor.id { record with requestId := q.id } charge deadline true
    | none =>
      match ← ask (.latestUsageRevision anchor.id) with
      | .error _ => pure ()
      | .ok revision =>
        commitSettlement q.id anchor.id
          { requestId := q.id, attemptId := anchor.id, source := .estimated
            revision := revision + 1 } reserved deadline false

variable (deadline : Int)

def recoverRequest (q : Request) : GatewayM Unit := do
  match ← loadEvidence q.id with
  | .error _ => pure ()
  | .ok (attempts, kinds) =>
    match classify attempts kinds with
    | .notSent => releaseProvenZero q.id false
    | .unknownCharge anchor => settleUnknownCharge q anchor deadline

def processJob (job : ReconciliationJob) : GatewayM Unit := do
  match ← ask (.getRequest job.requestId) with
  | .error _ => pure ()
  | .ok q =>
    -- a final request waits for evidence or for its deadline
    if q.status = .settled || q.status = .released then pure ()
    else
      match ← loadEvidence q.id with
      | .error _ => pure ()
      | .ok (attempts, kinds) =>
        -- parked without an attempt: there is nothing to estimate from
        if attempts.isEmpty && q.status = .reconciliationRequired then pure ()
        else
          match classify attempts kinds with
          | .notSent => releaseProvenZero q.id true
          | .unknownCharge anchor => settleUnknownCharge q anchor deadline

/-- `EscalateOverdueReconciliationJobs`; `batch` are the ids within its limit. -/
def escalateOverdue (at_ : Int) (batch : Uuid → Bool) : Tx Unit := do
  let overdue := fun (j : ReconciliationJob) =>
    (j.status = .pending || j.status = .running) && j.deadlineAt ≤ at_ && batch j.id
  .exec "reconciliation: escalate"
    (fun db => (db.jobs.filter overdue).map (fun j => (.job j.requestId, .noKeyUpdate)))
    (fun _ db => { db with
      jobs := updateWhere overdue (fun j => { j with status := .escalated }) db.jobs })
    (fun _ => .ok ())

def recoverStale : GatewayM Unit := do
  match ← ask .listStaleOpenRequests with
  | .error _ => pure ()
  | .ok stale => Prog.each (recoverRequest deadline) stale

def processJobs : GatewayM Unit := do
  match ← ask .listPendingReconciliationJobs with
  | .error _ => pure ()
  | .ok jobs => Prog.each (processJob deadline) jobs

/-- `deadline` is the evidence window of the jobs it files. -/
def runPass (batch : Uuid → Bool) : GatewayM Unit := do
  let at_ ← ask .now
  recoverStale deadline
  processJobs deadline
  let _ ← tx (escalateOverdue at_ batch)
  pure ()

/-! ### What a settlement calls -/

structure Settling (P : Op → Prop) : Prop where
  asks : ∀ op, op.passive = true → P op
  settles : ∀ cmd now also jobId requestId reason deadline, P (.tx do
    Postgres.settle cmd now
    Txn.when also (enqueueReconciliationJobTx jobId requestId reason deadline))
  parks : ∀ requestId reason deadline jobId,
    P (.tx (markReconciliationRequired requestId reason deadline jobId))

section Settling

variable {P : Op → Prop} (ops : Settling P)
include ops

theorem ask_only {op : Op} (passive : op.passive = true) : (ask op).Only P :=
  .perform (ops.asks op passive)

theorem markReconciliation_only (requestId : Uuid) (reason : JobReason) :
    (markReconciliation requestId reason).Only P :=
  .bind (ask_only ops rfl) fun _ => .bind (ask_only ops rfl) fun _ =>
    .bind (.perform (ops.parks _ _ _ _)) fun _ => .pure _

theorem settleTries_only (cmd : SettleCommand) (over_ : Int) (tries : Nat) :
    (settleTries cmd over_ tries).Only P := by
  induction tries with
  | zero => exact markReconciliation_only ops _ _
  | succ tries ih =>
    refine .bind (.bind (ask_only ops rfl) fun _ => .bind (ask_only ops rfl) fun _ =>
      .perform (ops.settles _ _ _ _ _ _ _)) fun answer => ?_
    cases answer with
    | ok _ => exact .pure _
    | error err =>
      dsimp only
      split_ifs
      · exact .pure _
      · exact markReconciliation_only ops _ _
      · refine .bind (ask_only ops rfl) fun backoff => ?_
        cases backoff with
        | error _ => exact markReconciliation_only ops _ _
        | ok _ => exact ih

theorem settle_only (requestId attemptId : Uuid) (source : UsageSource) (adm : AdmissionResult) :
    (settle requestId attemptId source adm).Only P := by
  refine .bind (ask_only ops rfl) fun priced => ?_
  cases priced with
  | error _ => exact markReconciliation_only ops _ _
  | ok charge =>
    refine .bind (ask_only ops rfl) fun _ => .bind (ask_only ops rfl) fun _ => ?_
    dsimp only
    split
    · exact markReconciliation_only ops _ _
    · exact settleTries_only ops _ _ _

theorem commitSettlement_only (requestId anchorId : Uuid) (record : UsageRecord)
    (charge deadline : Int) (verified : Bool) :
    (commitSettlement requestId anchorId record charge deadline verified).Only P :=
  .bind (ask_only ops rfl) fun _ => .bind (ask_only ops rfl) fun _ => .bind (ask_only ops rfl)
    fun _ => .bind (.perform (ops.settles _ _ _ _ _ _ _)) fun _ => .pure _

theorem settleUnknownCharge_only (q : Request) (anchor : Attempt) (deadline : Int) :
    (settleUnknownCharge q anchor deadline).Only P := by
  unfold settleUnknownCharge
  split
  · exact .pure _
  · refine .bind (ask_only ops rfl) fun usage => ?_
    split
    · exact commitSettlement_only ops _ _ _ _ _ _
    · refine .bind (ask_only ops rfl) fun revision => ?_
      split
      · exact .pure _
      · exact commitSettlement_only ops _ _ _ _ _ _

end Settling

end YunhouUsers.Inference.Gateway
