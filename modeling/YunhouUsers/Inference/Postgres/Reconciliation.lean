import YunhouUsers.Inference.Postgres.Ledger

/-!
Parking, correcting and rebuilding settlements (`reconciliation_repo.go` and the rest of
`ledger_repo.go` of `internal/inference/postgres`).
-/

namespace YunhouUsers.Inference.Postgres

open ReadCommitted Table Accounting

/-- `ON CONFLICT (request_id) DO UPDATE`: a new reason reopens a resolved or escalated job,
anything else only extends the deadline. -/
def ReconciliationJob.merge (old new : ReconciliationJob) : ReconciliationJob :=
  let reopen := (old.status = .resolved || old.status = .escalated) && old.reason ≠ new.reason
  { old with
    status := if reopen then .pending else old.status
    reason := if reopen then new.reason else old.reason
    deadlineAt := max old.deadlineAt new.deadlineAt }

def enqueueReconciliationJobTx (jobId requestId : Uuid) (reason : JobReason) (deadline : Int) :
    Tx Unit :=
  let new : ReconciliationJob :=
    { id := jobId, requestId := requestId, reason := reason, status := .pending
      deadlineAt := deadline }
  insertRow "reconciliation: enqueue request job"
    (references [some (.request requestId)] ++ [(.job requestId, .noKeyUpdate)])
    (fun db =>
      if !reason.allowed then
        some (.checkViolation "inference_reconciliation_jobs_reason_check")
      else if !db.requests.any (·.id = requestId) then
        some (.foreignKeyViolation "inference_reconciliation_jobs_request_id_fkey")
      else if !db.jobs.any (·.requestId = requestId) &&
          db.jobs.any (·.id = jobId) then
        some (.uniqueViolation "inference_reconciliation_jobs_pkey")
      else none)
    (fun db =>
      if db.jobs.any (·.requestId = requestId) then
        { db with
          jobs := updateWhere (·.requestId = requestId)
            (fun j => ReconciliationJob.merge j new) db.jobs }
      else { db with jobs := db.jobs ++ [new] })

/-- A request that is already final is left alone. -/
def markReconciliationRequired (requestId : Uuid) (reason : JobReason) (deadline : Int)
    (jobId : Uuid) : Tx Unit := do
  let live := fun (q : Request) =>
    q.id = requestId && q.status ≠ .settled && q.status ≠ .released
  let hit ← tryUpdate "mark reconciliation" [(.request requestId, .noKeyUpdate)]
    (fun db => db.requests.any live)
    (fun db => { db with
      requests := updateWhere live (fun q => { q with
        status := .reconciliationRequired
        usageStatus := .unknown
        lastError := reason.text }) db.requests })
  if hit then
    enqueueReconciliationJobTx jobId requestId reason deadline
  else do
    let exists_ ← Txn.query "mark reconciliation" fun db =>
      db.requests.any (·.id = requestId)
    Txn.require exists_ (mapError "mark reconciliation" .noRows)

structure CorrectionCommand where
  requestId : Uuid
  corrected : UsageRecord
  correctedMicros : Int
  reason : String
  operatorSubject : String
  idempotencyKey : String
  /-- `none` is the zero time: the deadline then starts from the current time. -/
  at_ : Option Int
deriving DecidableEq

def adjustmentViolation (a : Adjustment) (db : Db) : Option PgError :=
  if a.amount ≤ 0 then some (.checkViolation "inference_adjustments_amount_micros_check")
  else if db.adjustments.any (·.id = a.id) then
    some (.uniqueViolation "inference_adjustments_pkey")
  else if db.adjustments.any (·.idempotencyKey = a.idempotencyKey) then
    some (.uniqueViolation "inference_adjustments_idempotency_key_key")
  else if !db.accounts.any (·.id = a.billingAccountId) then
    some (.foreignKeyViolation "inference_adjustments_billing_account_id_fkey")
  else if missing a.requestId (db.requests.map (·.id)) then
    some (.foreignKeyViolation "inference_adjustments_request_id_fkey")
  else none

def insertAdjustment (a : Adjustment) : Tx Unit :=
  insertRow "correction: adjustment"
    (references [some (.account a.billingAccountId), a.requestId.map .request] ++
      [(.index "inference_adjustments_pkey" [a.id], .update)])
    (adjustmentViolation a)
    (fun db => { db with adjustments := db.adjustments ++ [a] })

def correctWindow (signed : Int) (windowId : Option Uuid) : Tx Unit :=
  match windowId with
  | none => pure ()
  | some id =>
    let covers := fun (w : QuotaWindow) => w.id = id && 0 ≤ w.used + signed
    updateRow "correction: window delta" [(.window id, .noKeyUpdate)]
      (fun db => db.windows.any covers)
      (fun db => { db with
        windows := updateWhere covers (fun w => { w with used := w.used + signed }) db.windows })
      (.domain .conflict
        "correction: window used would go negative (ledger/window drift — reconcile first)")

def correctKey (signed : Int) (keyId : Option Uuid) : Tx Unit :=
  match keyId with
  | none => pure ()
  | some id =>
    let covers := fun (k : ApiKey) => k.id = id && 0 ≤ k.budgetUsed + signed
    updateRow "correction: key budget delta" [(.apiKey id, .noKeyUpdate)]
      (fun db => db.apiKeys.any covers)
      (fun db => { db with
        apiKeys := updateWhere covers (fun k => { k with budgetUsed := k.budgetUsed + signed })
          db.apiKeys })
      (.domain .conflict
        "correction: key budget would go negative (ledger/budget drift — reconcile first)")

def correctTargets (signed : Int) (q : Request) : Tx Unit := do
  correctWindow signed q.windowFiveHourId
  correctWindow signed q.windowWeeklyId
  correctWindow signed q.windowMonthlyId
  correctKey signed q.apiKeyId

variable (cmd : CorrectionCommand)

/-- Steps 8 and 9 of `CorrectSettlement`: evidence resolves the evidence jobs, and the
overage against the hold is checked anew. -/
def recheckJobs (reserved : Option Int) (jobId : Uuid) (now : Int) : Tx Unit := do
  resolveJobs "correction: resolve job" cmd.requestId
    (fun j => j.reason = .crashRecovery || j.reason = .unknownUsage)
  match reserved with
  | none => pure ()
  | some r =>
    if cmd.correctedMicros > r then
      enqueueReconciliationJobTx jobId cmd.requestId .settlementOverage
        (cmd.at_.getD now + Quota.day)
    else
      resolveJobs "correction: resolve overage job" cmd.requestId
        (·.reason = .settlementOverage)

/-- The ledger row of a correction: voiding reverses the current effect, anything else is a
delta adjustment. -/
def correctionEntry (accountId : Uuid) (base : Int)
    (delta : Direction × Int) (chargeId : Nat) (adjId : Uuid) : NewLedgerEntry :=
  if cmd.correctedMicros = 0 ∧ base > 0 then
    { billingAccountId := accountId, requestId := cmd.requestId, entryType := .reversal
      amount := base, unit := .microcredit, reversesEntryId := some chargeId
      adjustmentId := some adjId, createdBy := "system:" ++ cmd.operatorSubject }
  else
    { billingAccountId := accountId, requestId := cmd.requestId, entryType := .adjustment
      amount := delta.2, unit := .microcredit, adjustmentId := some adjId
      createdBy := "system:" ++ cmd.operatorSubject }

def nextRevision (attemptId : Uuid) (db : Db) : Nat :=
  ((db.usageRecords.filter (·.attemptId = attemptId)).map
    (·.revision)).foldl max 0 + 1

def correctSettlement (adjId jobId : Uuid) (now : Int) : Tx Unit := do
  Txn.require (cmd.idempotencyKey ≠ "" && cmd.operatorSubject ≠ "" && cmd.reason ≠ "")
    (.domain .invalidInput
      "correction: reason, operator subject and idempotency key are required")
  let seen ← Txn.query "correction: idempotency lookup" fun db =>
    db.adjustments.any (·.idempotencyKey = cmd.idempotencyKey)
  Txn.require (!seen) (.domain .conflict "correction: idempotency key already applied")
  let q ← selectForUpdate "correction: lock request" (.request cmd.requestId)
    fun db => db.findRequest cmd.requestId
  Txn.require (q.chargeSource ≠ .wallet)
    (.domain .invalidInput
      "correction: wallet-charged requests are not supported (钱包更正通道本期未接线)")
  Txn.require (q.status = .settled)
    (.domain .conflict ("correction: request not settled (" ++ q.status.text ++
      ") — settle first, corrections revise a settlement"))
  let base ← Txn.orThrow q.settledMicros (.domain .conflict
    "correction: settled request without settled_micros (ledger drift — reconcile first)")
  let delta ← check (correctionDelta base cmd.correctedMicros)
  let charge ← selectOne "correction: load charge" fun db =>
    db.ledger.find? (fun e => e.requestId = some cmd.requestId && e.entryType = .charge)
  let revision ← Txn.query "correction: usage revision" (nextRevision cmd.corrected.attemptId)
  insertUsageRecord { cmd.corrected with requestId := cmd.requestId, revision := revision }
  insertAdjustment
    { id := adjId, billingAccountId := q.billingAccountId, requestId := some cmd.requestId
      reason := cmd.reason, amount := delta.2, direction := delta.1
      operatorSubject := cmd.operatorSubject, idempotencyKey := cmd.idempotencyKey }
  insertLedgerEntry (if cmd.correctedMicros = 0 ∧ base > 0 then "correction: reversal"
      else "correction: adjustment entry")
    (correctionEntry cmd q.billingAccountId base delta charge.id adjId)
  correctTargets (signedDelta delta) q
  let _ ← tryUpdate "correction: request" [(.request cmd.requestId, .noKeyUpdate)]
    (fun db => db.requests.any (·.id = cmd.requestId))
    (fun db => { db with
      requests := updateWhere (·.id = cmd.requestId)
        (fun q => { q with
          settledMicros := some cmd.correctedMicros
          usageStatus := cmd.corrected.source }) db.requests })
  recheckJobs cmd q.reservedMicros jobId now

def Db.signedAmount (db : Db) (e : LedgerEntry) : Int :=
  match e.entryType with
  | .charge => e.amount
  | .reversal => -e.amount
  | .adjustment =>
    match e.adjustmentId.bind db.findAdjustment with
    | some a => if a.direction = .debit then e.amount else -e.amount
    | none => 0

structure WindowReconciliation where
  windowId : Uuid
  kind : WindowKind
  storedUsed : Int
  rebuiltUsed : Int
deriving DecidableEq

def Db.requestNet (db : Db) (requestId : Uuid) : Int :=
  total (fun e => if e.requestId = some requestId ∧ e.unit = .microcredit then db.signedAmount e
    else 0) db.ledger

/-- Each active window against the ledger of the requests that name it in one of their window
columns. -/
def Db.reconcileWindowAggregates (db : Db) : List WindowReconciliation :=
  (db.windows.filter (fun w => !w.voided)).map fun w =>
    { windowId := w.id, kind := w.kind, storedUsed := w.used
      rebuiltUsed := total (fun q => if w.id ∈ q.windowIds then db.requestNet q.id else 0)
        db.requests }

def WindowReconciliation.diff (r : WindowReconciliation) : Int := r.rebuiltUsed - r.storedUsed

def mismatches (all : List WindowReconciliation) : List WindowReconciliation :=
  all.filter (·.diff ≠ 0)

end YunhouUsers.Inference.Postgres
