import YunhouUsers.StableSort
import YunhouUsers.Table
import YunhouUsers.Inference.Domain

/-!
What the sync workers have in common: the outbox (postgres/outbox_repo.go), the account of a user
(billing_account_repo.go) and the delay of `reschedule` (workers/entitlement_sync.go, wallet_sync.go).

Here a statement is a function of its table, or any statement of the caller's monad; each worker
runs them on its own store.
-/

namespace YunhouUsers.Inference.SyncStore

open Table

inductive OutboxStatus where
  | pending
  | delivered
  | failed
deriving DecidableEq

structure OutboxMessage (Payload : Type) where
  id : Nat
  topic : String
  /-- `none` does not decode. -/
  payload : Option Payload
  status : OutboxStatus
  attempts : Nat
  nextRetryAt : Option Int
deriving DecidableEq

section

variable {Payload : Type} (outbox : List (OutboxMessage Payload))

def fetchPendingOutboxByTopic (topic : String) (limit now : Int) : List (OutboxMessage Payload) :=
  let limit := if limit ≤ 0 then 100 else limit
  (sortStable (fun a b => a.id < b.id) (outbox.filter fun r =>
    r.status = .pending && (match r.nextRetryAt with
      | none => true
      | some at_ => at_ ≤ now) && r.topic = topic)).take limit.toNat

def markOutboxDelivered (id : Nat) : List (OutboxMessage Payload) :=
  updateWhere (·.id = id) (fun r => { r with status := .delivered }) outbox

def markOutboxFailed (id : Nat) (nextRetry : Int) : List (OutboxMessage Payload) :=
  updateWhere (·.id = id)
    (fun r => { r with attempts := r.attempts + 1, nextRetryAt := some nextRetry }) outbox

end

/-- `5s << min(attempts, 10)`, within the limit. -/
def backoff (maxBackoff : Int) (attempts : Nat) : Int :=
  let backoff : Int := 5000000 * 2 ^ min attempts 10
  if backoff > maxBackoff || backoff < 0 then maxBackoff else backoff

section

variable {M : Type → Type} [Monad M] [MonadExceptOf Err M] {Account : Type}

def getBillingAccountByUser (select : M (Option Account)) : M Account := do
  match ← select with
  | some account => pure account
  | none => throw (mapError "get billing account by user" .noRows)

/-- `insert` is `INSERT … ON CONFLICT (user_id) DO NOTHING RETURNING …`, `select` is by the user. -/
def ensureBillingAccount (insert select : M (Option Account)) : M Account := do
  match ← insert with
  | some account => pure account
  | none => getBillingAccountByUser select

end

end YunhouUsers.Inference.SyncStore
