import YunhouUsers.Payments.Store

/-!
Self-service on a subscription that Paddle bills (`paddle_subscription.go`,
`subscription_selfservice.go`), and Paddle's `subscription.canceled` webhook.

The reads before a transaction take no locks and write nothing, so they stand in one bracket of
their own.  A database error ends a session like a lost connection.
-/

namespace YunhouUsers.Payments

open ReadCommitted

structure Service where
  paddle : Bool
  /-- `PADDLE_PRICES_JSON`; a plan without a price has `""` -/
  paddlePrices : Id → String
  benefitSync : Bool

structure ChannelUpgradeResult where
  subscriptionId : Id
  fromPlanId : Id
  toPlanId : Id
  nextBilledAt : Int
deriving DecidableEq

inductive Reply where
  | upgraded (r : ChannelUpgradeResult)
  | subscription (s : Subscription)
  | acknowledged
  | failed (e : Err)
deriving DecidableEq

def Reply.of : Except Err Reply → Reply
  | .ok r => r
  | .error e => .failed e

abbrev Program := Proc Db LockKey Stmt Reply

def readThen {α : Type} (reads : Tx α) (body : α → Tx Reply) : Program :=
  reads.inTx fun
    | .ok a => (body a).inTx fun r => .done (.of r)
    | .error e => .done (.failed e)

def hasPrefix (s lead : String) : Bool := lead.toList.isPrefixOf s.toList

variable (sub : Subscription)

/-- Rows from before the channel column are known by the shape of their external id. -/
def paddleManagedSubID : Option String :=
  match sub.externalSubscriptionId, sub.channel with
  | none, _ => none
  | some ext, some channel => if channel = .paddle then some ext else none
  | some ext, none => if hasPrefix ext "sub_" then some ext else none

def channelSelfServiceGate : Except Err String :=
  match paddleManagedSubID sub with
  | some ext => .ok ext
  | none =>
    if sub.channel = some .paypal then .error .subscriptionNotChannelManaged
    else .error .subscriptionNoAutoRenew

def ofExcept {α : Type} : Except Err α → Tx α
  | .ok a => .pure a
  | .error e => .throw e

def activePaddleSub (userId : Id) : Tx Subscription := do
  let row ← .query (.sql "find active subscription") fun db =>
    db.subscriptions.find? fun s =>
      s.userId = userId && s.productCode = .kayaMembership && s.status = .active
  let sub ← .orThrow row .subscriptionNotFound
  .require (paddleManagedSubID sub).isSome .subscriptionNotChannelManaged
  pure sub

def findSubscription (id : Id) : Tx Subscription := do
  let row ← .query (.sql "find subscription") fun db => db.findSubscription id
  .orThrow row .subscriptionNotFound

def updateSubscriptionPrice (update : PriceUpdate) (failure : PaddleError → Err)
    (answer : Except PaddleError (Option Int)) : Tx (Option Int) :=
  .exec (.updateSubscriptionPrice update) (fun _ => []) (fun _ db => db)
    fun _ => answer.mapError failure

def requireTarget (toPlan : Plan) (sub : Subscription) : Tx Unit := do
  .require toPlan.isActive .planInactive
  .require toPlan.acceptingNewSubscriptions .planNotAcceptingNew
  .require (toPlan.productCode = sub.productCode) .planChangeNotUpgrade

def setPlan (planId : Id) (expiresAt : Int) (s : Subscription) : Subscription :=
  { s with
    planId := planId
    expiresAt := some expiresAt }

/-- The plan and the expiry follow the channel; without a billing date the expiry is a cycle from
now. -/
def switchPlan (subId targetPlanId : Id) (toPlan : Plan) (nextBilled : Option Int) (missed : Err) :
    Tx Int := do
  let now ← timeNow
  let expiresAt := nextBilled.getD (now + min toPlan.intervalDays maxIntervalDays * day)
  let hit ← updateSubscription "switch subscription plan" subId (·.status = .active)
    (setPlan targetPlanId expiresAt)
  .require hit missed
  pure expiresAt

structure UpgradeCall where
  userId : Id
  targetPlanId : Id
  answer : Except PaddleError (Option Int)

variable (svc : Service)

def upgradeReads (call : UpgradeCall) : Tx (Subscription × Plan) := do
  .require svc.paddle .paddleNotConfigured
  let sub ← activePaddleSub call.userId
  .require (sub.planId ≠ call.targetPlanId) .samePlanChange
  let toPlan ← findPlan "find target plan" call.targetPlanId
  requireTarget toPlan sub
  let fromPlan ← findPlan "find current plan" sub.planId
  .require (fromPlan.intervalDays < toPlan.intervalDays) .planChangeNotUpgrade
  .require (svc.paddlePrices call.targetPlanId ≠ "") .paddlePriceNotConfigured
  pure (sub, toPlan)

def upgradeBody (call : UpgradeCall) (sub : Subscription) (toPlan : Plan) : Tx Reply := do
  let locked ← lockSubscription (.lockForUpgrade sub.id sub.planId) sub.id
  .require (locked.status = .active) .subscriptionNotFound
  let nextBilled ← updateSubscriptionPrice
    ⟨.upgradeChannelSubscription sub.planId, sub.id, call.targetPlanId⟩ .paddle call.answer
  let expiresAt ← switchPlan sub.id call.targetPlanId toPlan nextBilled .subscriptionNotFound
  pure (.upgraded ⟨sub.id, sub.planId, call.targetPlanId, expiresAt⟩)

def upgradeChannelSubscription (call : UpgradeCall) : Program :=
  readThen (upgradeReads svc call) fun r => upgradeBody call r.1 r.2

structure ChangeCall where
  userId : Id
  subId : Id
  targetPlanId : Id
  answer : Except PaddleError (Option Int)

def changeReads (call : ChangeCall) : Tx (Subscription × Plan) := do
  let sub ← findSubscription call.subId
  .require (sub.userId = call.userId) .subscriptionNotFound
  .require (sub.status = .active) .subscriptionAlreadyEnded
  .require (sub.planId ≠ call.targetPlanId) .samePlanChange
  let toPlan ← findPlan "find target plan" call.targetPlanId
  requireTarget toPlan sub
  let fromPlan ← findPlan "find current plan" sub.planId
  .require (fromPlan.intervalDays < toPlan.intervalDays) .planDowngradeNotSupported
  let _ ← ofExcept (channelSelfServiceGate sub)
  .require sub.autoRenew .subscriptionNoAutoRenew
  .require svc.paddle .paddleNotConfigured
  .require (svc.paddlePrices call.targetPlanId ≠ "") .paddlePriceNotConfigured
  pure (sub, toPlan)

def changeBody (call : ChangeCall) (sub : Subscription) (toPlan : Plan) : Tx Reply := do
  let locked ← lockSubscription (.sql "lock subscription") sub.id
  .require (locked.status = .active) .subscriptionAlreadyEnded
  .require locked.autoRenew .subscriptionNoAutoRenew
  .require (locked.planId ≠ call.targetPlanId) .samePlanChange
  let lockedFromPlan ← findPlan "find locked current plan" locked.planId
  .require (toPlan.productCode = lockedFromPlan.productCode) .planChangeNotUpgrade
  .require (lockedFromPlan.intervalDays < toPlan.intervalDays) .planDowngradeNotSupported
  let nextBilled ← updateSubscriptionPrice ⟨.changePlanByID, sub.id, call.targetPlanId⟩
    (fun _ => .channelUnavailable) call.answer
  let expiresAt ← switchPlan sub.id call.targetPlanId toPlan nextBilled .channelUnavailable
  pure (.subscription (setPlan call.targetPlanId expiresAt sub))

def changePlanByID (call : ChangeCall) : Program :=
  readThen (changeReads svc call) fun r => changeBody call r.1 r.2

def cancelSubscription (subId : Id) (answer : Except PaddleError Unit) :
    Tx (Except PaddleError Unit) :=
  .exec (.cancelSubscription subId) (fun _ => []) (fun _ db => db) fun _ => .ok answer

def stopRenewing (s : Subscription) : Subscription := { s with autoRenew := false }

def flipAutoRenew (subId : Id) : Tx Bool :=
  updateSubscription "flip auto_renew" subId (·.autoRenew) stopRenewing

structure CancelCall where
  userId : Id
  subId : Id
  answer : Except PaddleError Unit

def cancelReads (call : CancelCall) : Tx Subscription := do
  let sub ← findSubscription call.subId
  .require (sub.userId = call.userId) .subscriptionNotFound
  .require (sub.status = .active) .subscriptionAlreadyEnded
  let _ ← ofExcept (channelSelfServiceGate sub)
  .require (!sub.autoRenew || svc.paddle) .paddleNotConfigured
  pure sub

def cancelBody (call : CancelCall) (sub : Subscription) : Tx Reply :=
  if !sub.autoRenew then pure (.subscription sub)
  else do
    let locked ← lockSubscription (.sql "lock subscription") sub.id
    .require (locked.status = .active) .subscriptionAlreadyEnded
    if !locked.autoRenew then pure (.subscription locked)
    else do
      let answer ← cancelSubscription sub.id call.answer
      -- a subscription that is gone at Paddle is healed like a cancelled one
      match answer with
      | .error .other => .throw .channelUnavailable
      | _ =>
        let _ ← flipAutoRenew sub.id
        pure (.subscription (stopRenewing locked))

def cancelSubscriptionByID (call : CancelCall) : Program :=
  readThen (cancelReads svc call) fun sub => cancelBody call sub

structure ChannelCancelCall where
  userId : Id
  answer : Except PaddleError Unit

def channelCancelReads (call : ChannelCancelCall) : Tx Subscription := do
  .require svc.paddle .paddleNotConfigured
  let sub ← activePaddleSub call.userId
  let answer ← cancelSubscription sub.id call.answer
  match answer with
  | .error e => .throw (.paddle e)
  | .ok _ => pure sub

/-- The flip after the channel's cancel is a statement of its own, without a condition. -/
def channelCancelFlip : Tx Reply := do
  let _ ← updateSubscription "auto_renew flip" sub.id (fun _ => true) stopRenewing
  pure (.subscription sub)

def cancelChannelSubscription (call : ChannelCancelCall) : Program :=
  readThen (channelCancelReads svc call) channelCancelFlip

def endSubscription (s : Subscription) : Subscription :=
  { s with
    status := .cancelled
    autoRenew := false }

def enqueueBenefitSync (m : EntitlementSyncMessage) : Tx Unit :=
  .exec (.sql "enqueue benefit sync") (fun _ => [])
    (fun _ db => { db with outbox := db.outbox ++ [m] }) fun _ => .ok ()

def Db.findByExternalId (db : Db) (external : String) : Option Subscription :=
  db.subscriptions.find? fun s => s.externalSubscriptionId = some external

def endLocked (sub : Subscription) : Tx Reply :=
  if sub.status = .cancelled then do
    let _ ← flipAutoRenew sub.id
    pure .acknowledged
  else do
    let _ ← updateSubscription "cancel subscription" sub.id (·.status ≠ .cancelled)
      endSubscription
    .when svc.benefitSync
      (enqueueBenefitSync ⟨sub.userId, sub.productCode, .subCancelled, sub.id⟩)
    pure .acknowledged

/-- An id we never stamped on a row is acknowledged and left alone. -/
def cancelledBody (external : String) : Tx Reply :=
  if external = "" then pure .acknowledged
  else do
    let row ← .queryLocking (.sql "find subscription by external sub id")
      (fun db => (db.findByExternalId external).toList.map fun s => (.subscription s.id, .update))
      fun db => db.findByExternalId external
    match row with
    | none => pure .acknowledged
    | some sub => endLocked svc sub

def onPaddleSubscriptionCancelled (external : String) : Program :=
  (cancelledBody svc external).inTx fun r => .done (.of r)

inductive Call where
  | upgrade (call : UpgradeCall)
  | change (call : ChangeCall)
  | cancel (call : CancelCall)
  | channelCancel (call : ChannelCancelCall)
  | cancelled (external : String)

def Call.program : Call → Program
  | .upgrade call => upgradeChannelSubscription svc call
  | .change call => changePlanByID svc call
  | .cancel call => cancelSubscriptionByID svc call
  | .channelCancel call => cancelChannelSubscription svc call
  | .cancelled external => onPaddleSubscriptionCancelled svc external

def tick (elapsed : Nat) (db : Db) : Db := { db with now := db.now + elapsed }

end YunhouUsers.Payments
