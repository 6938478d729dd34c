import YunhouUsers.Inference.Postgres.Reservation

/-!
Attempts, usage records and settlement (`request_repo.go` and `ledger_repo.go` of
`internal/inference/postgres`).
-/

namespace YunhouUsers.Inference.Postgres

open ReadCommitted Table Accounting

def attemptViolation (a : Attempt) (db : Db) : Option PgError :=
  if a.attemptNo = 0 then some (.checkViolation "inference_attempts_attempt_no_check")
  else if db.attempts.any (·.id = a.id) then
    some (.uniqueViolation "inference_attempts_pkey")
  else if db.attempts.any (fun x => x.requestId = a.requestId && x.attemptNo = a.attemptNo) then
    some (.uniqueViolation "inference_attempts_request_id_attempt_no_key")
  else if !db.requests.any (·.id = a.requestId) then
    some (.foreignKeyViolation "inference_attempts_request_id_fkey")
  else none

/-- `error_kind` is left to its default. -/
def insertAttemptTx (a : Attempt) : Tx Unit :=
  insertRow "insert attempt"
    (references [some (.request a.requestId)] ++
      [(.index "inference_attempts_pkey" [a.id], .update)])
    (attemptViolation a)
    (fun db => { db with attempts := db.attempts ++ [{ a with errorKind := "" }] })

def usageViolation (u : UsageRecord) (db : Db) : Option PgError :=
  if u.source = .pending then some (.checkViolation "inference_usage_records_source_check")
  else if db.usageRecords.any (fun x => x.attemptId = u.attemptId && x.revision = u.revision) then
    some (.uniqueViolation "inference_usage_records_attempt_id_revision_key")
  else if !db.requests.any (·.id = u.requestId) then
    some (.foreignKeyViolation "inference_usage_records_request_id_fkey")
  else if !db.attempts.any (·.id = u.attemptId) then
    some (.foreignKeyViolation "inference_usage_records_attempt_id_fkey")
  else none

/-- Revision 0 means the first one. -/
def insertUsageRecord (u : UsageRecord) : Tx Unit :=
  let u := { u with revision := if u.revision = 0 then 1 else u.revision }
  insertRow "insert usage record"
    (references [some (.request u.requestId), some (.attempt u.attemptId)] ++
      [(.index "inference_usage_records_attempt_id_revision_key" [u.attemptId, u.revision],
        .update)])
    (usageViolation u)
    (fun db => { db with usageRecords := db.usageRecords ++ [u] })

structure NewLedgerEntry where
  billingAccountId : Uuid
  requestId : Uuid
  entryType : EntryType
  amount : Int
  unit : LedgerUnit
  currency : Option String := none
  priceVersionId : Option Uuid := none
  reversesEntryId : Option Nat := none
  adjustmentId : Option Uuid := none
  createdBy : String := "system"

def NewLedgerEntry.row (e : NewLedgerEntry) (id : Nat) : LedgerEntry :=
  { id := id, billingAccountId := e.billingAccountId, requestId := some e.requestId
    entryType := e.entryType, amount := e.amount, unit := e.unit, currency := e.currency
    priceVersionId := e.priceVersionId, reversesEntryId := e.reversesEntryId
    adjustmentId := e.adjustmentId, createdBy := e.createdBy }

/-- First constraint of `inference_ledger_entries` the new row breaks: a charge may be zero
and is unique per request, the other entries are positive. -/
def ledgerViolation (e : NewLedgerEntry) (db : Db) : Option PgError :=
  if e.amount < 0 || (e.entryType ≠ .charge && e.amount = 0) then
    some (.checkViolation "inference_ledger_entries_amount_micros_check")
  else if e.currency.any (fun c => !validCurrency c) then
    some (.checkViolation "inference_ledger_entries_currency_check")
  else if decide (e.unit = .microcredit) != e.currency.isNone then
    some (.checkViolation "inference_ledger_entries_check")
  else if e.entryType = .charge && db.ledger.any (fun x =>
      x.entryType = .charge && x.requestId = some e.requestId) then
    some (.uniqueViolation "idx_inference_ledger_charge_once")
  else if !db.accounts.any (·.id = e.billingAccountId) then
    some (.foreignKeyViolation "inference_ledger_entries_billing_account_id_fkey")
  else if !db.requests.any (·.id = e.requestId) then
    some (.foreignKeyViolation "inference_ledger_entries_request_id_fkey")
  else if missing e.adjustmentId (db.adjustments.map (·.id)) then
    some (.foreignKeyViolation "inference_ledger_adjustment_fk")
  else none

/-- One ledger row.  The foreign key to the billing account is what makes a settlement
wait for an admission that holds the account lock. -/
def insertLedgerEntry (op : String) (e : NewLedgerEntry) : Tx Unit :=
  insertRow op
    (references [some (.account e.billingAccountId), some (.request e.requestId),
      e.adjustmentId.map .adjustment] ++
      (if e.entryType = .charge then
        [(.index "idx_inference_ledger_charge_once" [e.requestId], .update)] else []))
    (ledgerViolation e)
    (fun db => { db with ledger := db.ledger ++ [e.row db.ledger.length] })

structure SettleCommand where
  requestId : Uuid
  usage : UsageRecord
  chargeMicros : Int
  walletCharge : Option Money
  attemptId : Option Uuid
  attemptCost : Option Money
  costBasis : Option CostBasis
  settledAt : Int
deriving DecidableEq

/-- Converts one held target into consumption: the window's hold becomes usage, the key
budget keeps the charge instead of the hold. -/
def settleTarget (charge : Int) (r : Reservation) : Tx Unit :=
  match r.targetKind with
  | .keyBudget =>
    match r.apiKeyId with
    | none => .throw (.domain .internal "settle: reservation without api_key_id")
    | some keyId =>
      let covers := fun (k : ApiKey) => k.id = keyId && 0 ≤ k.budgetUsed - r.amount + charge
      updateRow "settle: key budget convert" [(.apiKey keyId, .noKeyUpdate)]
        (fun db => db.apiKeys.any covers)
        (fun db => { db with
          apiKeys := updateWhere covers
            (fun k => { k with budgetUsed := k.budgetUsed - r.amount + charge }) db.apiKeys })
        (.domain .conflict
          "settle: key budget correction would go negative (concurrent settlement?)")
  | _ =>
    match r.windowId with
    | none => .throw (.domain .internal "settle: reservation without window_id")
    | some windowId =>
      let covers := fun (w : QuotaWindow) =>
        w.id = windowId && !w.voided && r.amount ≤ w.reserved
      updateRow "settle: window convert" [(.window windowId, .noKeyUpdate)]
        (fun db => db.windows.any covers)
        (fun db => { db with
          windows := updateWhere covers
            (fun w => { w with reserved := w.reserved - r.amount, used := w.used + charge })
            db.windows })
        (.domain .conflict "settle: window reservation no longer held (concurrent settlement?)")

def settleRows (charge : Int) : List Reservation → Tx Unit
  | [] => pure ()
  | r :: rows => do
    settleTarget charge r
    moveReservation "settle: reservation" r.id .settled
      "settle: reservation already transitioned (concurrent release?)"
    settleRows charge rows

def updateAttemptCost (op : String) (cmd : SettleCommand) : Tx Unit :=
  match cmd.attemptId, cmd.attemptCost, cmd.costBasis with
  | some attemptId, some cost, some basis => do
    let _ ← tryUpdate op [(.attempt attemptId, .noKeyUpdate)]
      (fun db => db.attempts.any (·.id = attemptId))
      (fun db => { db with
        attempts := updateWhere (·.id = attemptId)
          (fun a => { a with cost := some (cost, basis) }) db.attempts })
    pure ()
  | _, _, _ => pure ()

def markSettled (op : String) (cmd : SettleCommand) (settled : Int) : Tx Unit := do
  let _ ← tryUpdate op [(.request cmd.requestId, .noKeyUpdate)]
    (fun db => db.requests.any (·.id = cmd.requestId))
    (fun db => { db with
      requests := updateWhere (·.id = cmd.requestId)
        (fun q => { q with
          status := .settled
          settledMicros := some settled
          usageStatus := cmd.usage.source
          completedAt := some cmd.settledAt }) db.requests })
  pure ()

variable (cmd : SettleCommand)

/-- The charge in money; without a priced one the recovery path books the reserved hold in
the wallet's own currency. -/
def resolveWalletCharge : Tx Money :=
  match cmd.walletCharge with
  | some m => pure m
  | none => do
    let currency ← selectOne "settle wallet: currency" fun db =>
      (db.walletHolds.find? (·.requestId = cmd.requestId)).bind
        (fun h => (db.findWallet h.walletId).map (·.currency))
    check (newMoney cmd.chargeMicros currency)

def settleWallet (now : Int) (q : Request) : Tx Unit := do
  Txn.require (0 ≤ cmd.chargeMicros) (.domain .invalidInput "settle wallet: negative charge")
  insertUsageRecord cmd.usage
  let charge ← resolveWalletCharge cmd
  Txn.require (charge.micros = cmd.chargeMicros)
    (.domain .invalidInput
      "settle wallet: wallet charge and charge_micros disagree (调用方必须同源)")
  insertLedgerEntry "settle wallet: ledger charge"
    { billingAccountId := q.billingAccountId, requestId := cmd.requestId, entryType := .charge
      amount := charge.micros, unit := .micromoney, currency := some charge.currency
      priceVersionId := q.priceVersionId }
  settleWalletLocked cmd.requestId charge now
  let mine := fun (r : Reservation) => heldOf cmd.requestId r && r.targetKind = .wallet
  .exec "settle wallet: reservation"
    (fun db => (db.reservations.filter mine).map (fun r => (.reservation r.id, .noKeyUpdate)))
    (fun _ db => { db with
      reservations := updateWhere mine (fun r => { r with state := .settled }) db.reservations })
    (fun db =>
      if db.reservations.any mine then .ok ()
      else .error (.domain .conflict
        "settle wallet: reservation already transitioned (concurrent release?)"))
  updateAttemptCost "settle wallet: attempt cost" cmd
  markSettled "settle wallet: request" cmd charge.micros

def settlePlan (q : Request) : Tx Unit := do
  insertUsageRecord cmd.usage
  insertLedgerEntry "settle: ledger charge"
    { billingAccountId := q.billingAccountId, requestId := cmd.requestId, entryType := .charge
      amount := cmd.chargeMicros, unit := .microcredit, priceVersionId := q.priceVersionId }
  let rows ← loadHeldReservations cmd.requestId
  Txn.require (!rows.isEmpty)
    (.domain .conflict "settle: no held reservations (already released or settled?)")
  settleRows cmd.chargeMicros rows
  updateAttemptCost "settle: attempt cost" cmd
  markSettled "settle: request" cmd cmd.chargeMicros

def settle (now : Int) : Tx Unit := do
  Txn.require (0 ≤ cmd.chargeMicros) (.domain .invalidInput "settle: negative charge")
  let q ← selectForUpdate "settle: lock request" (.request cmd.requestId)
    fun db => db.findRequest cmd.requestId
  Txn.require (q.status ≠ .settled && q.status ≠ .released)
    (.domain .conflict ("settle: request already finalized (" ++ q.status.text ++ ")"))
  match q.chargeSource with
  | .wallet => settleWallet cmd now q
  | .plan => settlePlan cmd q

end YunhouUsers.Inference.Postgres
