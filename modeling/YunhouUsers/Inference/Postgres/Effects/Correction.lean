import YunhouUsers.Inference.Postgres.Effects.Settlement

/-!
What corrections, reconciliation marks and window activations do to the tables when they
succeed.
-/

namespace YunhouUsers.Inference.Postgres

open ReadCommitted Table Accounting

variable {signed : Int} {db db' : Db}

theorem correctWindow_ok {windowId : Option Uuid}
    (unique : db.KeysUnique) (ran : (correctWindow signed windowId).eval db = .ok ((), db')) :
    db' = { db with
      windows := shiftWindows (fun _ => 0) (onRow windowId signed) db.windows } := by
  cases windowId with
  | none =>
    cases ran
    simp
  | some id =>
    simp only [correctWindow, updateRow_ok] at ran
    obtain ⟨hit, same⟩ := ran
    cases same
    have shift := updateWhere_eq_shiftWindows unique.windows id (by simp +contextual) hit 0 signed
    simp only [Int.add_zero, onRow_zero] at shift
    rw [shift]

theorem correctKey_ok {keyId : Option Uuid} (unique : db.KeysUnique)
    (ran : (correctKey signed keyId).eval db = .ok ((), db')) :
    db' = { db with apiKeys := shiftKeys (onRow keyId signed) db.apiKeys } := by
  cases keyId with
  | none =>
    cases ran
    simp
  | some id =>
    simp only [correctKey, updateRow_ok] at ran
    obtain ⟨hit, same⟩ := ran
    cases same
    rw [updateWhere_eq_shiftKeys unique.apiKeys id (by simp +contextual) hit]

def columnsShift (q : Request) (signed : Int) : Uuid → Int := fun id =>
  onRow q.windowFiveHourId signed id + onRow q.windowWeeklyId signed id +
    onRow q.windowMonthlyId signed id

theorem correctTargets_ok {q : Request} (unique : db.KeysUnique)
    (ran : (correctTargets signed q).eval db = .ok ((), db')) :
    db' = { db with
      windows := shiftWindows (fun _ => 0) (columnsShift q signed) db.windows
      apiKeys := shiftKeys (onRow q.apiKeyId signed) db.apiKeys } := by
  simp only [correctTargets, Txn.eval_bind_ok] at ran
  obtain ⟨_, _, five, _, _, week, _, _, month, key⟩ := ran
  cases correctWindow_ok unique five
  cases correctWindow_ok (by exact ⟨by simpa using unique.windows, unique.apiKeys⟩) week
  cases correctWindow_ok (by exact ⟨by simpa using unique.windows, unique.apiKeys⟩) month
  cases correctKey_ok (by exact ⟨by simpa using unique.windows, unique.apiKeys⟩) key
  simp only [shiftWindows_shiftWindows, Int.add_zero]
  rfl

variable {jobId : Uuid}

theorem enqueueReconciliationJobTx_ok {requestId : Uuid} {reason : JobReason} {deadline : Int}
    (ran : (enqueueReconciliationJobTx jobId requestId reason deadline).eval db = .ok ((), db')) :
    ∃ jobs, db' = { db with jobs := jobs } := by
  simp only [enqueueReconciliationJobTx, insertRow_ok] at ran
  obtain ⟨_, same⟩ := ran
  obtain ⟨_, rfl⟩ := Prod.mk.inj same
  split_ifs
  · exact ⟨_, rfl⟩
  · exact ⟨_, rfl⟩

variable {cmd : CorrectionCommand}

theorem recheckJobs_ok {reserved : Option Int} {now : Int}
    (ran : (recheckJobs cmd reserved jobId now).eval db = .ok ((), db')) :
    ∃ jobs, db' = { db with jobs := jobs } := by
  simp only [recheckJobs, Txn.eval_bind_ok] at ran
  obtain ⟨_, db₁, resolved, rest⟩ := ran
  obtain ⟨jobs, rfl⟩ := resolveJobs_ok resolved
  split at rest
  · cases rest
    exact ⟨jobs, rfl⟩
  · split_ifs at rest
    · obtain ⟨jobs', rfl⟩ := enqueueReconciliationJobTx_ok rest
      exact ⟨jobs', rfl⟩
    · obtain ⟨jobs', rfl⟩ := resolveJobs_ok rest
      exact ⟨jobs', rfl⟩

def correctionRow (cmd : CorrectionCommand) (adjId : Uuid) (q : Request) (d : Direction × Int) :
    Adjustment :=
  { id := adjId, billingAccountId := q.billingAccountId, requestId := some cmd.requestId
    reason := cmd.reason, amount := d.2, direction := d.1
    operatorSubject := cmd.operatorSubject, idempotencyKey := cmd.idempotencyKey }

def correctedRequest (cmd : CorrectionCommand) (q : Request) : Request :=
  { q with settledMicros := some cmd.correctedMicros, usageStatus := cmd.corrected.source }

theorem adjustmentViolation_none {a : Adjustment} (ok : adjustmentViolation a db = none) :
    ∀ x ∈ db.adjustments, x.id ≠ a.id := by
  unfold adjustmentViolation at ok
  split_ifs at ok with _ id
  simp only [List.any_eq_true, decide_eq_true_eq] at id
  exact fun x mem same => id ⟨x, mem, same⟩

def correctedUsage (cmd : CorrectionCommand) (db : Db) : UsageRecord :=
  firstRevision { cmd.corrected with
    requestId := cmd.requestId
    revision := nextRevision cmd.corrected.attemptId db }

def correctionBooked (cmd : CorrectionCommand) (adjId : Uuid) (q : Request) (base : Int)
    (d : Direction × Int) (chargeId : Nat) (db : Db) : Db :=
  { db with
    usageRecords := db.usageRecords ++ [correctedUsage cmd db]
    adjustments := db.adjustments ++ [correctionRow cmd adjId q d]
    ledger := db.ledger ++ [(correctionEntry cmd q.billingAccountId base d chargeId adjId).row
      db.ledger.length] }

structure CorrectionReads (cmd : CorrectionCommand) (adjId : Uuid) (q : Request) (base : Int)
    (d : Direction × Int) (chargeId : Nat) (db : Db) : Prop where
  found : db.findRequest cmd.requestId = some q
  plan : q.chargeSource ≠ .wallet
  settled : q.status = .settled
  based : q.settledMicros = some base
  delta : correctionDelta base cmd.correctedMicros = .ok d
  usage : usageViolation (correctedUsage cmd db) db = none
  fresh : ∀ x ∈ db.adjustments, x.id ≠ adjId
  entry : ledgerViolation (correctionEntry cmd q.billingAccountId base d chargeId adjId)
    { db with adjustments := db.adjustments ++ [correctionRow cmd adjId q d] } = none

theorem correctSettlement_parts {adjId : Uuid} {now : Int}
    (ran : (correctSettlement cmd adjId jobId now).eval db = .ok ((), db')) :
    ∃ q base d chargeId shifted, CorrectionReads cmd adjId q base d chargeId db ∧
      (correctTargets (signedDelta d) q).eval (correctionBooked cmd adjId q base d chargeId db) =
        .ok ((), shifted) ∧
      (recheckJobs cmd q.reservedMicros jobId now).eval { shifted with
        requests := updateWhere (·.id = cmd.requestId) (correctedRequest cmd)
          shifted.requests } = .ok ((), db') := by
  simp only [correctSettlement, Txn.eval_bind_ok, Txn.eval_require_ok, Txn.eval_query,
    selectForUpdate_ok, selectOne_ok, Txn.eval_orThrow_ok, check_ok, insertAdjustment,
    insertLedgerEntry, insertRow_ok, tryUpdate_ok] at ran
  obtain ⟨_, _, ⟨_, same⟩, _, _, same₁, _, _, ⟨_, same₂⟩, q, _, ⟨_, found, same₃⟩, _, _,
    ⟨plan, same₄⟩, _, _, ⟨settled, same₅⟩, base, _, ⟨_, based, same₆⟩, d, _, ⟨_, delta, same₇⟩,
    charge, _, ⟨_, _, same₈⟩, _, _, same₉, _, _, used, _, _, ⟨fresh, same₁₀⟩, _, _,
    ⟨entry, same₁₁⟩, _, shifted, moved, _, _, same₁₂, checked⟩ := ran
  cases same
  cases same₁
  cases same₂
  cases same₃
  cases same₄
  cases same₅
  cases same₆
  cases same₇
  cases same₈
  cases same₉
  obtain ⟨usage, rfl⟩ := insertUsageRecord_ok used
  cases same₁₀
  cases same₁₁
  cases same₁₂
  exact ⟨q, base, d, charge.id, shifted, ⟨found, by simpa using plan, by simpa using settled, based,
    delta, usage, fun x mem => adjustmentViolation_none fresh x mem, entry⟩, moved, checked⟩

theorem correctSettlement_ok {adjId : Uuid} {now : Int} (unique : db.KeysUnique)
    (ran : (correctSettlement cmd adjId jobId now).eval db = .ok ((), db')) :
    ∃ q base d chargeId jobs, CorrectionReads cmd adjId q base d chargeId db ∧
      db' = { db with
        windows := shiftWindows (fun _ => 0) (columnsShift q (signedDelta d)) db.windows
        apiKeys := shiftKeys (onRow q.apiKeyId (signedDelta d)) db.apiKeys
        requests := updateWhere (·.id = cmd.requestId) (correctedRequest cmd) db.requests
        ledger := db.ledger ++ [(correctionEntry cmd q.billingAccountId base d chargeId adjId).row
          db.ledger.length]
        adjustments := db.adjustments ++ [correctionRow cmd adjId q d]
        usageRecords := db.usageRecords ++ [correctedUsage cmd db]
        jobs := jobs } := by
  obtain ⟨q, base, d, chargeId, shifted, reads, moved, checked⟩ := correctSettlement_parts ran
  cases correctTargets_ok (by exact ⟨unique.windows, unique.apiKeys⟩) moved
  obtain ⟨jobs, rfl⟩ := recheckJobs_ok checked
  exact ⟨q, base, d, chargeId, jobs, reads, rfl⟩

def isOpen (requestId : Uuid) (q : Request) : Bool :=
  q.id = requestId && q.status ≠ .settled && q.status ≠ .released

def parkedRequest (reason : JobReason) (q : Request) : Request :=
  { q with
    status := .reconciliationRequired
    usageStatus := .unknown
    lastError := reason.text }

theorem markReconciliationRequired_ok {requestId : Uuid} {reason : JobReason} {deadline : Int}
    (ran : (markReconciliationRequired requestId reason deadline jobId).eval db = .ok ((), db')) :
    ∃ jobs, db' = { db with
      requests := updateWhere (isOpen requestId) (parkedRequest reason) db.requests
      jobs := jobs } := by
  simp only [markReconciliationRequired, Txn.eval_bind_ok, tryUpdate_ok] at ran
  obtain ⟨hit, _, same, rest⟩ := ran
  cases same
  split_ifs at rest
  · obtain ⟨jobs, rfl⟩ := enqueueReconciliationJobTx_ok rest
    exact ⟨jobs, rfl⟩
  · simp only [Txn.eval_query_bind, Txn.eval_require_ok] at rest
    cases rest.2
    exact ⟨_, rfl⟩

end YunhouUsers.Inference.Postgres
