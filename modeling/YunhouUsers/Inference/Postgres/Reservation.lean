import YunhouUsers.Inference.Postgres.Wallet

/-!
Releasing reservations (`internal/inference/postgres/reservation_repo.go`).
-/

namespace YunhouUsers.Inference.Postgres

open ReadCommitted Table

def heldOf (requestId : Uuid) (r : Reservation) : Bool :=
  r.requestId = requestId && r.state = .held

def loadHeldReservations (requestId : Uuid) : Tx (List Reservation) :=
  Txn.query "load held reservations" fun db =>
    (db.reservations.filter (heldOf requestId)).insertionSort fun a b =>
      windowOrderKey a.targetKind ≤ windowOrderKey b.targetKind

def moveReservation (op : String) (id : Uuid) (state : ReservationState) (miss : String) :
    Tx Unit :=
  updateRow op [(.reservation id, .noKeyUpdate)]
    (fun db => db.reservations.any (fun r => r.id = id && r.state = .held))
    (fun db => { db with
      reservations := updateWhere (fun r => r.id = id && r.state = .held)
        (fun r => { r with state := state }) db.reservations })
    (.domain .conflict miss)

def releaseTarget (requestId : Uuid) (r : Reservation) : Tx Unit :=
  match r.targetKind with
  | .keyBudget =>
    match r.apiKeyId with
    | none => .throw (.domain .internal "release: reservation without api_key_id")
    | some keyId =>
      let covers := fun (k : ApiKey) => k.id = keyId && r.amount ≤ k.budgetUsed
      updateRow "release: key budget" [(.apiKey keyId, .noKeyUpdate)]
        (fun db => db.apiKeys.any covers)
        (fun db => { db with
          apiKeys := updateWhere covers (fun k => { k with budgetUsed := k.budgetUsed - r.amount })
            db.apiKeys })
        (.domain .conflict
          "release: key budget no longer covers the hold (concurrent settlement?)")
  | .wallet => releaseWalletLocked requestId
  | _ =>
    match r.windowId with
    | none => .throw (.domain .internal "release: reservation without window_id")
    | some windowId =>
      let covers := fun (w : QuotaWindow) => w.id = windowId && r.amount ≤ w.reserved
      updateRow "release: window" [(.window windowId, .noKeyUpdate)]
        (fun db => db.windows.any covers)
        (fun db => { db with
          windows := updateWhere covers (fun w => { w with reserved := w.reserved - r.amount })
            db.windows })
        (.domain .conflict
          "release: window reservation no longer held (concurrent settlement?)")

/-- The loop over the held rows; the result is the last five-hour window it released. -/
def releaseRows (requestId : Uuid) : List Reservation → Option Uuid → Tx (Option Uuid)
  | [], fiveHourWindow => pure fiveHourWindow
  | r :: rows, fiveHourWindow => do
    releaseTarget requestId r
    moveReservation "release: reservation" r.id .released
      "release: reservation already transitioned (concurrent settlement?)"
    releaseRows requestId rows
      (if r.targetKind = .windowFiveHour then r.windowId else fiveHourWindow)

/-- A window nobody consumed or holds is taken back. -/
def voidUnusedFiveHourWindow (windowId : Uuid) : Tx Unit := do
  let w ← selectOne "void five-hour window: read" fun db => db.findWindow windowId
  if w.voided || w.used ≠ 0 || w.reserved ≠ 0 then
    pure ()
  else do
    let held ← Txn.query "void five-hour window: count held" fun db =>
      (db.reservations.filter (fun r => r.windowId = some windowId && r.state = .held)).length
    if held ≠ 0 then
      pure ()
    else do
      let unused := fun (w : QuotaWindow) =>
        w.id = windowId && !w.voided && w.used = 0 && w.reserved = 0
      let _ ← tryUpdate "void five-hour window" [(.window windowId, .noKeyUpdate)]
        (fun db => db.windows.any unused)
        (fun db => { db with
          windows := updateWhere unused (fun w => { w with voided := true }) db.windows })
      pure ()

/-- Only a request that held a five-hour window can leave one unused. -/
def voidReleased : Option Uuid → Tx Unit
  | some windowId => voidUnusedFiveHourWindow windowId
  | none => pure ()

def updateRequestStatus (id : Uuid) (status : RequestStatus) (lastErr : String) : Tx Unit :=
  updateRow "update request status" [(.request id, .noKeyUpdate)]
    (fun db => db.requests.any (·.id = id))
    (fun db => { db with
      requests := updateWhere (·.id = id)
        (fun q => { q with status := status, lastError := lastErr }) db.requests })
    (mapError "update request status" .noRows)

def ReconciliationJob.isOpen (requestId : Uuid) (j : ReconciliationJob) : Bool :=
  j.requestId = requestId && (j.status = .pending || j.status = .running)

def resolveJobs (op : String) (requestId : Uuid) (which : ReconciliationJob → Bool) : Tx Unit := do
  let p := fun j => ReconciliationJob.isOpen requestId j && which j
  let _ ← tryUpdate op [(.job requestId, .noKeyUpdate)] (fun db => db.jobs.any p)
    (fun db => { db with
      jobs := updateWhere p (fun j => { j with status := .resolved }) db.jobs })
  pure ()

/-- Only the recovery worker, with proof of zero consumption, may release a request parked in
reconciliation. -/
def releaseLocked (requestId : Uuid) (fromReconciliation : Bool) : Tx Unit := do
  let q ← selectOne "release: load request" fun db => db.findRequest requestId
  lockAccountTx q.billingAccountId
  let q ← selectForUpdate "release: lock request" (.request requestId)
    fun db => db.findRequest requestId
  Txn.require (q.status ≠ .settled && q.status ≠ .released)
    (.domain .conflict ("release: request already finalized (" ++ q.status.text ++ ")"))
  Txn.require (q.status ≠ .reconciliationRequired || fromReconciliation)
    (.domain .conflict "release: request in reconciliation (禁止仅凭 TTL/未知状态释放)")
  let rows ← loadHeldReservations requestId
  Txn.require (!rows.isEmpty)
    (.domain .conflict "release: no held reservations (already released or settled?)")
  let fiveHourWindow ← releaseRows requestId rows none
  voidReleased fiveHourWindow
  Txn.when fromReconciliation
    (resolveJobs "release: resolve reconciliation job" requestId (fun _ => true))
  updateRequestStatus requestId .released ""

def release (requestId : Uuid) : Tx Unit := releaseLocked requestId false

def releaseFromReconciliation (requestId : Uuid) : Tx Unit := releaseLocked requestId true

end YunhouUsers.Inference.Postgres
