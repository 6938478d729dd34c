import YunhouUsers.Inference.Entitlements.Store

/-!
The entitlement sync worker (workers/entitlement_sync.go).

`Env` is what the database and the configuration answer: new ids and the database clock.
-/

namespace YunhouUsers.Inference.Entitlements

structure Env where
  uuid : Db → String
  dbNow : Db → Int
  maxBackoff : Int

structure SourcePlan where
  source : Source
  /-- empty for an insert -/
  entitlementId : String
  action : ConvergeAction
deriving DecidableEq

def syncDecision (db : Db) (now : Int) (userId productCode : String) : Except Err SyncDecision :=
  let sub := getSyncSubscription db userId productCode
  let paidOrder := match sub with
    | some sub =>
      if sub.status = .active then getLatestPaidBenefitOrder db userId sub.planId else none
    | none => none
  decideSync sub paidOrder now

def syncSubscriptionId (db : Db) (userId productCode subscriptionIdHint : String) : String :=
  match getSyncSubscription db userId productCode with
  | some sub => sub.id
  | none => subscriptionIdHint

def candidates (subscriptionId : String) : List Source :=
  [⟨.subscription, subscriptionId⟩, ⟨.grant, bundleGiftSourceID subscriptionId⟩]

def SyncDecision.restrict (decision : SyncDecision) (source : Source) : SyncDecision :=
  { decision with target := decision.target.filter (·.source = source) }

def planSources (db : Db) (now : Int) (decision : SyncDecision) :
    List Source → Except Err (List SourcePlan)
  | [] => .ok []
  | source :: rest => do
    let current := getLatestEntitlementBySource db source
    let action ← converge current (decision.restrict source) now
    let plans ← planSources db now decision rest
    let entitlementId := match current with
      | some e => e.id
      | none => ""
    return if action = .noop then plans else ⟨source, entitlementId, action⟩ :: plans

def planSync (db : Db) (now : Int) (userId productCode subscriptionIdHint : String) :
    Except Err (List SourcePlan) :=
  if userId = "" || productCode = "" then
    .error (.domain .invalidInput "entitlement sync: user and product required")
  else do
    let decision ← syncDecision db now userId productCode
    let subscriptionId := syncSubscriptionId db userId productCode subscriptionIdHint
    if subscriptionId = "" then return []
    planSources db now decision (candidates subscriptionId)

def applyPlan (env : Env) (accountId : String) (db : Db) (plan : SourcePlan) :
    Except Failure Db :=
  match plan.action with
  | .noop => .ok db
  | .insert revision anchor effectiveFrom effectiveTo =>
    match grantFromPlan revision anchor effectiveFrom effectiveTo with
    | .error e => .error (.err e)
    | .ok e =>
      insertEntitlementTx db
        { e with
          id := env.uuid db
          billingAccountId := accountId
          createdAt := env.dbNow db }
  | .revise patch => reviseEntitlementTx db plan.entitlementId patch
  | .revive patch => reviveEntitlementTx db plan.entitlementId patch
  | .retire expectedRevision status =>
    retireEntitlementTx db plan.entitlementId expectedRevision status

def ConvergeAction.isInsert : ConvergeAction → Bool
  | .insert .. => true
  | _ => false

def markDelivered (outboxId : Option Nat) (db : Db) : Db :=
  match outboxId with
  | some id => markOutboxDeliveredTx db id
  | none => db

/-- The result is `true` when a concurrent converger won; only the account of the first grant is
stored outside the transaction. -/
def applyPlans (env : Env) (userId : String) (plans : List SourcePlan) (outboxId : Option Nat)
    (db : Db) : Except Failure Bool × Db :=
  if plans = [] then (.ok false, markDelivered outboxId db)
  else
    let account :=
      if plans.any (·.action.isInsert) then
        (ensureBillingAccount (env.uuid db) db userId).map (fun r => (r.1.id, r.2))
      else .ok ("", db)
    match account with
    | .error e => (.error (.err e), db)
    | .ok (accountId, db) =>
      match plans.foldlM (applyPlan env accountId) db with
      | .ok db' => (.ok false, markDelivered outboxId db')
      | .error failure => (if failure.conflict then .ok true else .error failure, db)

inductive Outcome where
  | delivered (plans : List SourcePlan)
  | racing
  | failed
deriving DecidableEq

def processMessage (env : Env) (now : Int) (db : Db) (msg : OutboxMessage) : Outcome × Db :=
  let reschedule (db : Db) :=
    markOutboxFailed db msg.id (now + SyncStore.backoff env.maxBackoff msg.attempts)
  match msg.payload with
  | none => (.failed, reschedule db)
  | some m =>
    match planSync db now m.userId m.productCode m.subscriptionId with
    | .error _ => (.failed, reschedule db)
    | .ok plans =>
      match applyPlans env m.userId plans (some msg.id) db with
      | (.error _, db') => (.failed, reschedule db')
      | (.ok true, db') => (.racing, markOutboxFailed db' msg.id now)
      | (.ok false, db') => (.delivered plans, db')

def processMessages (env : Env) (now : Int) : List OutboxMessage → Db → List Outcome × Db
  | [], db => ([], db)
  | msg :: msgs, db =>
    let (outcome, db') := processMessage env now db msg
    let (outcomes, db'') := processMessages env now msgs db'
    (outcome :: outcomes, db'')

end YunhouUsers.Inference.Entitlements
