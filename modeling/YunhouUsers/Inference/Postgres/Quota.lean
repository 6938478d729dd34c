import Mathlib.Data.List.Sort
import YunhouUsers.Inference.Quota.Window
import YunhouUsers.Inference.Postgres.Store

/-!
Window activation and plan admission (`internal/inference/postgres/quota_repo.go`).

Ids the code draws from `uuid.NewString()` are arguments here; a collision is caught by
the primary key like any other duplicate.
-/

namespace YunhouUsers.Inference.Postgres

open ReadCommitted Table Quota

/-- First constraint of `inference_quota_windows` the new row breaks. -/
def windowViolation (w : QuotaWindow) (db : Db) : Option PgError :=
  if w.limit < 0 then some (.checkViolation "inference_quota_windows_limit_micros_check")
  else if w.stop ≤ w.start then some (.checkViolation "inference_quota_windows_check")
  else if w.entitlementId ∉ db.entitlementIds then
    some (.foreignKeyViolation "inference_quota_windows_entitlement_id_fkey")
  else if db.windows.any (·.id = w.id) then
    some (.uniqueViolation "inference_quota_windows_pkey")
  else if db.windows.any (fun x =>
      x.entitlementId = w.entitlementId && x.kind = w.kind && x.start = w.start) then
    some (.uniqueViolation "idx_inference_quota_windows_unique")
  else if db.windows.any (fun x =>
      !x.voided && x.entitlementId = w.entitlementId && x.kind = w.kind &&
        x.start < w.stop && w.start < x.stop) then
    some (.exclusionViolation "inference_quota_windows_no_overlap")
  else none

/-- `insertQuotaWindow`, with the conflict turned into the retry signal of
`ActivateWindowsTx`. -/
def insertQuotaWindow (w : QuotaWindow) : Tx Unit :=
  .exec "insert quota window"
    (fun _ => references [some (.entitlement w.entitlementId)] ++
      [(.index "inference_quota_windows_pkey" [w.id], .update)])
    (fun _ db => { db with windows := db.windows ++ [w] })
    fun view =>
      match windowViolation w view with
      | some (.uniqueViolation _) => .error (.activationConflict w.kind w.start)
      | some (.exclusionViolation _) => .error (.activationConflict w.kind w.start)
      | some v => .error (mapError "insert quota window" v)
      | none => .ok ()

structure ActivateWindowsCommand where
  billingAccountId : Uuid
  entitlementId : Uuid
  anchor : Int
  at_ : Int
  /-- A kind without a limit is disabled, never unlimited. -/
  limits : WindowKind → Option Int

/-- One round of the loop over `WindowOrder`: what is active so far, and the windows
resolved so far. -/
def activateKind (cmd : ActivateWindowsCommand) (newId : WindowKind → Uuid) (kind : WindowKind)
    (active out : List QuotaWindow) : Tx (List QuotaWindow × List QuotaWindow) :=
  match cmd.limits kind with
  | none => pure (active, out)
  | some limit =>
    match consumptionWindow kind cmd.anchor active cmd.at_ with
    | .error e => .throw e
    | .ok (iv, true) => do
      let nw : QuotaWindow :=
        { id := newId kind, entitlementId := cmd.entitlementId, kind := kind
          start := iv.start, stop := iv.stop, limit := limit
          used := 0, reserved := 0, voided := false }
      insertQuotaWindow nw
      pure (active ++ [nw], out ++ [nw])
    | .ok (_, false) =>
      match active.find? (liveAt kind cmd.at_) with
      | some a => pure (active, out ++ [a])
      | none => pure (active, out)

def activateKinds (cmd : ActivateWindowsCommand) (newId : WindowKind → Uuid) :
    List WindowKind → List QuotaWindow → List QuotaWindow → Tx (List QuotaWindow)
  | [], _, out => pure out
  | kind :: kinds, active, out => do
    let (active, out) ← activateKind cmd newId kind active out
    activateKinds cmd newId kinds active out

/-- Resolves the windows of one admission under the account lock and creates those that the first
consumption opens. -/
def activateWindowsTx (cmd : ActivateWindowsCommand) (newId : WindowKind → Uuid) :
    Tx (List QuotaWindow) := do
  lockAccountTx cmd.billingAccountId
  let active ← Txn.query "activate windows: load" fun db =>
    db.windows.filter fun w => w.entitlementId = cmd.entitlementId && !w.voided
  activateKinds cmd newId windowOrder active []

def windowOrderKey : TargetKind → Nat
  | .windowFiveHour => 0
  | .windowWeekly => 1
  | .windowMonthly => 2
  | .keyBudget => 3
  | .wallet => 4

def windowKindOfTarget : TargetKind → Option WindowKind
  | .windowFiveHour => some .fiveHour
  | .windowWeekly => some .weekly
  | .windowMonthly => some .monthly
  | _ => none

structure HoldSpec where
  targetKind : TargetKind
  windowId : Option Uuid
  apiKeyId : Option Uuid
  amount : Int
deriving DecidableEq

structure ReserveCommand where
  request : Request
  holds : List HoldSpec
  admittedAt : Int
deriving DecidableEq

def sortHolds (holds : List HoldSpec) : List HoldSpec :=
  holds.insertionSort fun a b => windowOrderKey a.targetKind ≤ windowOrderKey b.targetKind

structure HoldProgress where
  blocked : List WindowBlock := []
  keyBudgetBlocked : Bool := false
  deficit : Int := 0
  reserveAmount : Int := 0
deriving DecidableEq

variable (p : HoldProgress)

def HoldProgress.admitHold (amount : Int) : HoldProgress :=
  { p with reserveAmount := if amount > p.reserveAmount then amount else p.reserveAmount }

def HoldProgress.short (available amount : Int) : HoldProgress :=
  if available < amount ∧ amount - available > p.deficit then
    { p with deficit := amount - available }
  else p

def ApiKey.fits (keyId : Uuid) (amount : Int) (k : ApiKey) : Bool :=
  k.id = keyId && k.budgetLimit.all (fun limit => k.budgetUsed + amount ≤ limit)

def QuotaWindow.fits (windowId : Uuid) (amount : Int) (w : QuotaWindow) : Bool :=
  w.id = windowId && !w.voided && w.used + w.reserved + amount ≤ w.limit

/-- The guarded `UPDATE` of a key budget; a miss records the gap to the limit. -/
def holdKeyBudget (keyId : Uuid) (amount : Int) : Tx HoldProgress := do
  let hit ← tryUpdate "reserve: key budget" [(.apiKey keyId, .noKeyUpdate)]
    (fun db => db.apiKeys.any (ApiKey.fits keyId amount))
    (fun db => { db with
      apiKeys := updateWhere (ApiKey.fits keyId amount)
        (fun k => { k with budgetUsed := k.budgetUsed + amount }) db.apiKeys })
  if hit then
    pure (p.admitHold amount)
  else do
    let key ← Txn.query "reserve: key budget detail" fun db => db.findApiKey keyId
    let p := { p with keyBudgetBlocked := true }
    match key.bind (fun k => k.budgetLimit.map (fun limit => limit - k.budgetUsed)) with
    | some available => pure (p.short available amount)
    | none => pure p

/-- The guarded `UPDATE` of a window.  A miss always blocks; the row is read again only for
the detail of the answer, and may be gone. -/
def holdWindow (kind : TargetKind) (windowId : Uuid) (amount : Int) : Tx HoldProgress := do
  let hit ← tryUpdate "reserve: window" [(.window windowId, .noKeyUpdate)]
    (fun db => db.windows.any (QuotaWindow.fits windowId amount))
    (fun db => { db with
      windows := updateWhere (QuotaWindow.fits windowId amount)
        (fun w => { w with reserved := w.reserved + amount }) db.windows })
  if hit then
    pure (p.admitHold amount)
  else do
    let full ← Txn.query "reserve: window detail" fun db => db.findWindow windowId
    match full with
    | some w =>
      let block : WindowBlock :=
        { kind := windowKindOfTarget kind, limit := w.limit, used := w.used
          reserved := w.reserved, resetsAt := some w.stop }
      pure (({ p with blocked := p.blocked ++ [block] } : HoldProgress).short
        (w.limit - w.used - w.reserved) amount)
    | none =>
      let block : WindowBlock :=
        { kind := windowKindOfTarget kind, limit := 0, used := 0, reserved := 0, resetsAt := none }
      pure { p with blocked := p.blocked ++ [block] }

def applyHold (h : HoldSpec) : Tx HoldProgress :=
  if h.amount < 0 then
    .throw (.domain .invalidInput "reserve: hold amount must be >= 0")
  else if h.targetKind = .keyBudget then
    match h.apiKeyId with
    | none => .throw (.domain .invalidInput "reserve: key budget hold needs api_key_id")
    | some keyId => holdKeyBudget p keyId h.amount
  else
    match h.windowId with
    | none => .throw (.domain .invalidInput "reserve: window hold needs window_id")
    | some windowId => holdWindow p h.targetKind windowId h.amount

def applyHolds : List HoldSpec → HoldProgress → Tx HoldProgress
  | [], p => pure p
  | h :: hs, p => do
    let p ← applyHold p h
    applyHolds hs p

def missing (id : Option Uuid) (ids : List Uuid) : Bool := id.any (fun i => i ∉ ids)

variable (q : Request)

def requestViolation (db : Db) : Option PgError :=
  let windowIds := db.windows.map (·.id)
  if q.reservedMicros.any (fun r => r < 0) then
    some (.checkViolation "inference_requests_reserved_micros_check")
  else if db.requests.any (·.id = q.id) then
    some (.uniqueViolation "inference_requests_pkey")
  else if !db.accounts.any (·.id = q.billingAccountId) then
    some (.foreignKeyViolation "inference_requests_billing_account_id_fkey")
  else if missing q.apiKeyId (db.apiKeys.map (·.id)) then
    some (.foreignKeyViolation "inference_requests_api_key_id_fkey")
  else if q.entitlementId ∉ db.entitlementIds then
    some (.foreignKeyViolation "inference_requests_entitlement_id_fkey")
  else if missing q.windowFiveHourId windowIds then
    some (.foreignKeyViolation "inference_requests_window_five_hour_fk")
  else if missing q.windowWeeklyId windowIds then
    some (.foreignKeyViolation "inference_requests_window_weekly_fk")
  else if missing q.windowMonthlyId windowIds then
    some (.foreignKeyViolation "inference_requests_window_monthly_fk")
  else none

theorem requestViolation_none {q : Request} {db : Db} (ok : requestViolation q db = none) :
    ∀ x ∈ db.requests, x.id ≠ q.id := by
  unfold requestViolation at ok
  split_ifs at ok with _ id
  simp only [List.any_eq_true, decide_eq_true_eq] at id
  exact fun x mem same => id ⟨x, mem, same⟩

/-- `insertRequest` writes neither `settled_micros`, `last_error` nor `completed_at`. -/
def insertedRequest : Request :=
  { q with settledMicros := none, lastError := "", completedAt := none }

def insertRequest : Tx Unit :=
  insertRow "insert request"
    (references [some (.account q.billingAccountId), q.apiKeyId.map .apiKey,
      some (.entitlement q.entitlementId), q.windowFiveHourId.map .window,
      q.windowWeeklyId.map .window, q.windowMonthlyId.map .window] ++
      [(.index "inference_requests_pkey" [q.id], .update)])
    (requestViolation q)
    (fun db => { db with requests := db.requests ++ [insertedRequest q] })

/-- Migration 030: a window target names a window, a key target a key, a wallet neither. -/
def targetRefsOk (r : Reservation) : Bool :=
  match r.targetKind with
  | .keyBudget => r.windowId.isNone && r.apiKeyId.isSome
  | .wallet => r.windowId.isNone && r.apiKeyId.isNone
  | _ => r.windowId.isSome && r.apiKeyId.isNone

def reservationViolation (r : Reservation) (db : Db) : Option PgError :=
  if r.amount < 0 then some (.checkViolation "inference_reservations_amount_micros_check")
  else if !targetRefsOk r then
    some (.checkViolation "inference_reservations_target_refs_check")
  else if db.reservations.any (·.id = r.id) then
    some (.uniqueViolation "inference_reservations_pkey")
  else if db.reservations.any (fun x =>
      x.requestId = r.requestId && x.targetKind = r.targetKind) then
    some (.uniqueViolation "inference_reservations_request_id_target_kind_key")
  else if !db.requests.any (·.id = r.requestId) then
    some (.foreignKeyViolation "inference_reservations_request_id_fkey")
  else if missing r.windowId (db.windows.map (·.id)) then
    some (.foreignKeyViolation "inference_reservations_window_id_fkey")
  else if missing r.apiKeyId (db.apiKeys.map (·.id)) then
    some (.foreignKeyViolation "inference_reservations_api_key_id_fkey")
  else none

def insertReservation (op : String) (r : Reservation) : Tx Unit :=
  insertRow op
    (references [some (.request r.requestId), r.windowId.map .window, r.apiKeyId.map .apiKey] ++
      [(.index "inference_reservations_pkey" [r.id], .update)])
    (reservationViolation r)
    (fun db => { db with reservations := db.reservations ++ [r] })

def HoldSpec.toReservation (h : HoldSpec) (id requestId : Uuid) : Reservation :=
  { id := id, requestId := requestId, targetKind := h.targetKind, windowId := h.windowId
    apiKeyId := h.apiKeyId, amount := h.amount, state := .held }

def insertReservations (requestId : Uuid) (newId : Nat → Uuid) :
    List HoldSpec → Nat → Tx Unit
  | [], _ => pure ()
  | h :: hs, n => do
    insertReservation "reserve: insert reservation" (h.toReservation (newId n) requestId)
    insertReservations requestId newId hs (n + 1)

def bindWindow (h : HoldSpec) : Request :=
  match h.targetKind with
  | .windowFiveHour => { q with windowFiveHourId := h.windowId }
  | .windowWeekly => { q with windowWeeklyId := h.windowId }
  | .windowMonthly => { q with windowMonthlyId := h.windowId }
  | _ => q

/-- The request row an admission writes: each consumption is mirrored into all targets, so
the reserved amount is the largest hold, not their sum. -/
def admittedRequest (cmd : ReserveCommand) (p : HoldProgress) : Request :=
  (sortHolds cmd.holds).foldl bindWindow
    { cmd.request with
      status := .reserved
      admittedAt := some cmd.admittedAt
      reservedMicros := some p.reserveAmount }

def reserve (cmd : ReserveCommand) (newId : Nat → Uuid) : Tx Uuid := do
  lockAccountTx cmd.request.billingAccountId
  let p ← applyHolds (sortHolds cmd.holds) {}
  Txn.require (p.blocked.isEmpty && !p.keyBudgetBlocked)
    (.quotaExceeded p.blocked p.keyBudgetBlocked
      (if p.deficit > 0 then some p.deficit else none))
  insertRequest (admittedRequest cmd p)
  insertReservations cmd.request.id newId (sortHolds cmd.holds) 0
  pure cmd.request.id

end YunhouUsers.Inference.Postgres
