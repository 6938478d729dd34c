import YunhouUsers.History
import YunhouUsers.Inference.Conservation.Admission

/-!
Quota conservation over every history of committed calls.
-/

namespace YunhouUsers.Inference.Postgres

open ReadCommitted Table Accounting

inductive Call where
  | activateWindows (cmd : ActivateWindowsCommand) (newId : WindowKind → Uuid)
  | reserve (cmd : ReserveCommand) (newId : Nat → Uuid)
  | release (requestId : Uuid)
  | releaseFromReconciliation (requestId : Uuid)
  | insertAttempt (a : Attempt)
  | settle (cmd : SettleCommand) (now : Int)
  | correctSettlement (cmd : CorrectionCommand) (adjId jobId : Uuid) (now : Int)
  | markReconciliationRequired (requestId : Uuid) (reason : JobReason) (deadline : Int)
    (jobId : Uuid)

def Call.commit : Call → Db → Db
  | .activateWindows cmd newId => (Postgres.activateWindowsTx cmd newId).apply
  | .reserve cmd newId => (Postgres.reserve cmd newId).apply
  | .release requestId => (Postgres.release requestId).apply
  | .releaseFromReconciliation requestId => (Postgres.releaseFromReconciliation requestId).apply
  | .insertAttempt a => (Postgres.insertAttemptTx a).apply
  | .settle cmd now => (Postgres.settle cmd now).apply
  | .correctSettlement cmd adjId jobId now =>
    (Postgres.correctSettlement cmd adjId jobId now).apply
  | .markReconciliationRequired requestId reason deadline jobId =>
    (Postgres.markReconciliationRequired requestId reason deadline jobId).apply

/-- The transaction of the call commits and leaves `db'`. -/
def Call.Ran (db db' : Db) : Call → Prop
  | .activateWindows cmd newId => ∃ ws, (activateWindowsTx cmd newId).eval db = .ok (ws, db')
  | .reserve cmd newId => ∃ id, (Postgres.reserve cmd newId).eval db = .ok (id, db')
  | .release requestId => (releaseLocked requestId false).eval db = .ok ((), db')
  | .releaseFromReconciliation requestId => (releaseLocked requestId true).eval db = .ok ((), db')
  | .insertAttempt a => (insertAttemptTx a).eval db = .ok ((), db')
  | .settle cmd now => (Postgres.settle cmd now).eval db = .ok ((), db')
  | .correctSettlement cmd adjId jobId now =>
    (Postgres.correctSettlement cmd adjId jobId now).eval db = .ok ((), db')
  | .markReconciliationRequired requestId reason deadline jobId =>
    (Postgres.markReconciliationRequired requestId reason deadline jobId).eval db = .ok ((), db')

theorem Call.commit_keeps {db : Db} {P : Db → Prop} {call : Call} (here : P db)
    (keeps : ∀ db', call.Ran db db' → P db') : P (call.commit db) := by
  cases call with
  | activateWindows | reserve =>
    exact Txn.apply_preserves _ P db here fun a db' ran => keeps db' ⟨a, ran⟩
  | _ => exact Txn.apply_preserves _ P db here fun _ db' ran => keeps db' ran

def runCalls (db : Db) (calls : List Call) : Db := calls.foldl (fun db call => call.commit db) db

/-- Admissions come from the quota service; every other call is arbitrary. -/
def Call.Shaped : Call → Prop
  | .reserve cmd _ => cmd.Shaped
  | _ => True

structure Db.Fresh (db : Db) : Prop where
  windows : db.windows = []
  requests : db.requests = []
  attempts : db.attempts = []
  usageRecords : db.usageRecords = []
  reservations : db.reservations = []
  ledger : db.ledger = []
  adjustments : db.adjustments = []
  jobs : db.jobs = []
  walletHolds : db.walletHolds = []
  keyIds : (db.apiKeys.map (·.id)).Nodup
  unused : ∀ k ∈ db.apiKeys, k.budgetUsed = 0

def Db.boundTo (db : Db) (requestId windowId : Uuid) : Bool :=
  db.reservations.any (fun r => r.requestId = requestId && r.windowId = some windowId)

/-- Conservation as an auditor of the tables reads it. -/
@[mk_iff]
structure Db.QuotaConserved (db : Db) : Prop where
  reserved : ∀ w ∈ db.windows, w.reserved =
    total (fun r => if r.state = .held ∧ r.windowId = some w.id then r.amount else 0)
      db.reservations
  used : ∀ w ∈ db.windows, w.used =
    total (fun q => if db.boundTo q.id w.id then db.requestNet q.id else 0) db.requests
  reconciled : mismatches db.reconcileWindowAggregates = []
  budget : ∀ k ∈ db.apiKeys, k.budgetUsed =
    total (fun r => if r.state = .held ∧ r.apiKeyId = some k.id then r.amount else 0)
      db.reservations +
    total (fun q =>
      if q.apiKeyId = some k.id ∧ q.status = .settled ∧ q.chargeSource = .plan then
        q.settledMicros.getD 0
      else 0) db.requests
  charges : ∀ q ∈ db.requests, (db.ledger.filter (isChargeOf q.id)).length ≤ 1
  windows_nonneg : ∀ w ∈ db.windows, 0 ≤ w.reserved ∧ 0 ≤ w.used
  keys_nonneg : ∀ k ∈ db.apiKeys, 0 ≤ k.budgetUsed

instance (db : Db) : Decidable db.QuotaConserved :=
  decidable_of_iff _ (Db.quotaConserved_iff db).symm

theorem Db.Fresh.conserved {db : Db} (fresh : db.Fresh) : db.Conserved := by
  refine ⟨⟨by simp [fresh.windows], fresh.keyIds⟩, ?_, by simp [fresh.reservations],
    by simp [fresh.requests], ?_, ?_, fresh.walletHolds⟩
  · rw [fresh.requests, fresh.reservations]
    constructor <;> simp
  · constructor <;> simp [fresh.requests, fresh.ledger]
  · refine ⟨by simp [fresh.windows], by simp [fresh.windows], fun k mem => ?_⟩
    simp [fresh.unused k mem, fresh.reservations, fresh.requests]

theorem Db.Conserved.commit {db : Db} (c : db.Conserved) {call : Call} (shaped : call.Shaped) :
    (call.commit db).Conserved := by
  refine call.commit_keeps c fun db' ran => ?_
  cases call with
  | activateWindows =>
    obtain ⟨_, ran⟩ := ran
    exact c.opened (activateWindowsTx_ok ran)
  | reserve =>
    obtain ⟨_, ran⟩ := ran
    exact c.reserve shaped ran
  | release | releaseFromReconciliation => exact c.releaseLocked ran
  | insertAttempt => exact c.insertAttempt ran
  | settle => exact c.settle ran
  | correctSettlement => exact c.correctSettlement ran
  | markReconciliationRequired => exact c.markReconciliationRequired ran

theorem Db.Conserved.runCalls {db : Db} (c : db.Conserved) {calls : List Call}
    (shaped : ∀ call ∈ calls, call.Shaped) : (runCalls db calls).Conserved :=
  History.foldl_keeps (fun _ _ c shaped => c.commit shaped) c (History.along_of_forall shaped)

theorem Db.Conserved.quotaConserved {db : Db} (c : db.Conserved) : db.QuotaConserved := by
  have ledger : ∀ w ∈ db.windows, w.used =
      total (fun q => if w.id ∈ q.windowIds then db.requestNet q.id else 0) db.requests := by
    intro w mem
    rw [c.balanced.used w mem]
    apply total_congr
    intro q memq
    rw [settledOnWindow, c.booked.net q memq]
  have held : ∀ (column : Reservation → Option Uuid) id, total (heldOn column id) db.reservations =
      total (fun r => if r.state = .held ∧ column r = some id then r.amount else 0)
        db.reservations := by
    intro column id
    apply total_congr
    intro r _
    by_cases held : r.state = .held <;> simp [heldOn, onRow, held]
  have held_nonneg : ∀ (column : Reservation → Option Uuid) id,
      0 ≤ total (heldOn column id) db.reservations := by
    intro column id
    apply total_nonneg
    intro r mem
    have := c.amount_nonneg r mem
    simp only [heldOn, onRow]
    split_ifs <;> omega
  have settled_nonneg := c.settledAmount_nonneg
  refine ⟨fun w mem => ?_, fun w mem => ?_, ?_, fun k mem => ?_, fun q _ => c.booked.charges q.id,
    fun w mem => ⟨?_, ?_⟩, fun k mem => ?_⟩
  · rw [c.balanced.reserved w mem]
    exact held _ _
  · rw [ledger w mem]
    apply total_congr
    intro q memq
    have bound : w.id ∈ q.windowIds ↔ db.boundTo q.id w.id = true := by
      rw [c.mem_windowIds memq, Db.boundTo]
      simp
    simp only [bound]
  · rw [mismatches, List.filter_eq_nil_iff]
    intro r mem
    obtain ⟨w, memw, rfl⟩ := List.mem_map.mp mem
    simp [WindowReconciliation.diff, ← ledger w (List.mem_filter.mp memw).1]
  · rw [c.balanced.budget k mem]
    congr 1
    · exact held _ _
    · apply total_congr
      intro q memq
      by_cases settled : q.status = .settled
      · simp [settledOnKey, settledAmount, settled, (c.booked.priced q memq settled).1]
      · simp [settledOnKey, settledAmount, settled]
  · rw [c.balanced.reserved w mem]
    exact held_nonneg _ _
  · rw [c.balanced.used w mem]
    apply total_nonneg
    intro q memq
    have := settled_nonneg q memq
    rw [settledOnWindow]
    split_ifs <;> omega
  · rw [c.balanced.budget k mem]
    refine Int.add_nonneg (held_nonneg _ _) (total_nonneg fun q memq => ?_)
    have := settled_nonneg q memq
    rw [settledOnKey]
    split_ifs <;> omega

/-- From fresh tables every history of calls conserves quota, whatever the calls say, as long
as admissions are shaped by the quota service. -/
theorem quota_conserved (db : Db) (fresh : db.Fresh) (calls : List Call)
    (shaped : ∀ call ∈ calls, call.Shaped) : (runCalls db calls).QuotaConserved :=
  (fresh.conserved.runCalls shaped).quotaConserved

def auditDb : Db :=
  { accounts := [⟨1, .active⟩], apiKeys := [⟨7, none, 0⟩, ⟨8, none, 0⟩], entitlementIds := [2] }

def auditRequest (apiKeyId windowWeeklyId : Option Uuid) : Request :=
  { id := 3, billingAccountId := 1, apiKeyId := apiKeyId, entitlementId := 2, policyVersionId := 5
    priceVersionId := none, status := .reserved, admittedAt := none, windowFiveHourId := none
    windowWeeklyId := windowWeeklyId, windowMonthlyId := none, reservedMicros := none
    settledMicros := none, chargeSource := .plan, usageStatus := .pending, lastError := ""
    completedAt := none }

def auditCalls (cmd : ReserveCommand) : List Call :=
  [.activateWindows
      { billingAccountId := 1, entitlementId := 2, anchor := 0, at_ := 0
        limits := fun kind => if kind = .monthly then none else some 100 }
      (fun kind => if kind = .fiveHour then 11 else 12),
    .reserve cmd (fun n => 20 + n),
    .insertAttempt ⟨30, 3, 1, .completed, "", none⟩,
    .settle
      { requestId := 3, usage := ⟨3, 30, .reported, 1⟩, chargeMicros := 10, walletCharge := none
        attemptId := none, attemptCost := none, costBasis := none, settledAt := 1 } 1]

def auditHold (kind : TargetKind) (windowId apiKeyId : Option Uuid) : HoldSpec :=
  ⟨kind, windowId, apiKeyId, 40⟩

def auditCommand : ReserveCommand :=
  ⟨auditRequest (some 7) none,
    [auditHold .windowFiveHour (some 11) none, auditHold .windowWeekly (some 12) none,
      auditHold .keyBudget none (some 7)], 0⟩

theorem auditCalls_shaped : ∀ call ∈ auditCalls auditCommand, call.Shaped := by
  simp only [auditCalls, List.forall_mem_cons, Call.Shaped, true_and]
  refine ⟨⟨?_, ?_, ?_⟩, by simp⟩
  · simp [auditCommand, auditHold]
  · intro kind w set
    cases kind <;> simp [auditCommand, windowColumn, auditRequest] at set
  · simp [auditCommand, auditHold, auditRequest]

theorem auditDb_fresh : auditDb.Fresh :=
  ⟨rfl, rfl, rfl, rfl, rfl, rfl, rfl, rfl, rfl, by decide, by decide⟩

theorem quota_conserved_audit :
    (runCalls auditDb (auditCalls ⟨auditRequest (some 7) none,
        [auditHold .windowFiveHour (some 11) none, auditHold .windowWeekly (some 12) none,
          auditHold .keyBudget none (some 7)], 0⟩)).windows.map (fun w => (w.used, w.reserved)) =
      [(10, 0), (10, 0)] ∧
    (runCalls auditDb (auditCalls ⟨auditRequest (some 7) none,
        [auditHold .windowFiveHour (some 11) none, auditHold .windowWeekly (some 12) none,
          auditHold .keyBudget none (some 7)], 0⟩)).QuotaConserved :=
  ⟨by decide, quota_conserved auditDb auditDb_fresh _ auditCalls_shaped⟩

/-- `Reserve` checks none of the shape: a window held under two kinds, a key hold on another
key, a key without a hold, and a window column without a hold each break the sums. -/
theorem quota_not_conserved :
    auditDb.Fresh ∧
    ¬ (runCalls auditDb (auditCalls ⟨auditRequest none none,
      [auditHold .windowFiveHour (some 11) none, auditHold .windowWeekly (some 11) none],
        0⟩)).QuotaConserved ∧
    ¬ (runCalls auditDb (auditCalls ⟨auditRequest (some 7) none,
      [auditHold .windowFiveHour (some 11) none, auditHold .keyBudget none (some 8)],
        0⟩)).QuotaConserved ∧
    ¬ (runCalls auditDb (auditCalls ⟨auditRequest (some 7) none,
      [auditHold .windowFiveHour (some 11) none], 0⟩)).QuotaConserved ∧
    ¬ (runCalls auditDb (auditCalls ⟨auditRequest none (some 12),
      [auditHold .windowFiveHour (some 11) none], 0⟩)).QuotaConserved := by
  refine ⟨auditDb_fresh, ?_, ?_, ?_, ?_⟩
  · decide
  · decide
  · decide
  · decide

end YunhouUsers.Inference.Postgres
