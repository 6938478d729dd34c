import YunhouUsers.Payments.Domain
import YunhouUsers.ReadCommitted.Session
import YunhouUsers.Table

/-!
The payment tables and the SQL statements the payment service runs on them, with the row locks
they take.
-/

namespace YunhouUsers.Payments

open ReadCommitted Table

structure Db where
  plans : List Plan := []
  subscriptions : List Subscription := []
  outbox : List EntitlementSyncMessage := []
  now : Int := 0
deriving DecidableEq

inductive LockKey where
  | subscription (id : Id)
deriving DecidableEq

/-- Who asks Paddle to move a subscription to another price, and after reading which plan. -/
inductive Caller where
  | upgradeChannelSubscription (planRead : Id)
  | changePlanByID
deriving DecidableEq

/-- A call of `UpdateSubscriptionPrice`, by our ids of what the Paddle ids stand for. -/
structure PriceUpdate where
  caller : Caller
  subId : Id
  targetPlanId : Id
deriving DecidableEq

/-- A statement of the service, or a call it makes while its transaction is open. -/
inductive Stmt where
  | sql (op : String)
  /-- the row lock of an upgrade that had read a plan -/
  | lockForUpgrade (subId planRead : Id)
  | updateSubscriptionPrice (update : PriceUpdate)
  | cancelSubscription (subId : Id)
deriving DecidableEq

abbrev Tx := Txn Db LockKey Stmt Err

def Db.findPlan (db : Db) (id : Id) : Option Plan := db.plans.find? fun p => p.id = id

def Db.findSubscription (db : Db) (id : Id) : Option Subscription :=
  db.subscriptions.find? fun s => s.id = id

def findPlan (op : String) (id : Id) : Tx Plan := do
  let row ← .query (.sql op) fun db => db.findPlan id
  .orThrow row .planNotFound

def lockSubscription (stmt : Stmt) (id : Id) : Tx Subscription := do
  let row ← .queryLocking stmt
    (fun db => (db.findSubscription id).toList.map fun s => (.subscription s.id, .update))
    fun db => db.findSubscription id
  .orThrow row .subscriptionNotFound

def Db.hitsSubscription (db : Db) (id : Id) (p : Subscription → Bool) : Bool :=
  db.subscriptions.any fun s => s.id = id && p s

/-- `UPDATE subscriptions … WHERE id = $1 AND …`, with whether a row was hit. -/
def updateSubscription (op : String) (id : Id) (p : Subscription → Bool)
    (f : Subscription → Subscription) : Tx Bool :=
  .exec (.sql op)
    (fun view => if view.hitsSubscription id p then [(.subscription id, .noKeyUpdate)] else [])
    (fun view db =>
      if view.hitsSubscription id p then
        { db with subscriptions := updateWhere (fun s => s.id = id && p s) f db.subscriptions }
      else db)
    (fun view => .ok (view.hitsSubscription id p))

def timeNow : Tx Int := .query (.sql "time.Now()") fun db => db.now

end YunhouUsers.Payments
