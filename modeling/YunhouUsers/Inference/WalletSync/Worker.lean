import Mathlib.Control.Monad.Cont
import YunhouUsers.Inference.Gateway.World
import YunhouUsers.Inference.Postgres.WalletLedger
import YunhouUsers.ReadCommitted.Steps
import YunhouUsers.ReadCommitted.Zoom
import YunhouUsers.Inference.SyncStore

/-!
The wallet sync worker (`internal/inference/workers/wallet_sync.go`) and the outbox it consumes
(`internal/inference/postgres/outbox_repo.go`).

A worker is a session; everything that can go wrong on the way is given to it beforehand as
`Weather`: the statement that fails, a commit that is lost or not reported. A crash is the `kill`
of the session.
-/

namespace YunhouUsers.Inference.WalletSync

open ReadCommitted Table Postgres
open Gateway (codeOf)

inductive Kind where
  | topup
  | refund
  | other (text : String)
deriving DecidableEq

structure WalletSyncMessage where
  kind : Kind
  userId : Option Uuid
  paymentId : Option Uuid
  refundId : Option Uuid
  amountMicros : Int
  currency : String
deriving DecidableEq

abbrev OutboxRow := SyncStore.OutboxMessage WalletSyncMessage

/-- The inference store with the outbox and the `user_id` column of the billing accounts. -/
structure SyncDb where
  store : Db
  /-- User and account. -/
  owners : List (Uuid × Uuid)
  outbox : List OutboxRow
deriving DecidableEq

inductive SyncKey where
  | store (key : LockKey)
  | owner (userId : Uuid)
  | outbox (id : Nat)
deriving DecidableEq

inductive Label where
  | op (name : String)
  | newAccount (id : Uuid)
  | newWallet (id : Uuid)
deriving DecidableEq

abbrev SyncTx := Txn SyncDb SyncKey Label Err
abbrev SyncProc := Proc SyncDb SyncKey Label Unit

def inStore {α : Type} (name : String → Label) (t : Tx α) : SyncTx α :=
  t.zoom SyncDb.store (fun store db => { db with store }) .store name id

def topicWalletSync : String := "wallet.sync"

def fetchPendingOutboxByTopic (topic : String) (limit : Int) (now : Int) :
    SyncTx (List OutboxRow) :=
  .query (.op "outbox: fetch") fun db =>
    SyncStore.fetchPendingOutboxByTopic db.outbox topic limit now

def updateOutbox (op : String) (id : Nat) (write : List OutboxRow → List OutboxRow) : SyncTx Unit :=
  .exec (.op op) (fun view =>
      if view.outbox.any (·.id = id) then [(.outbox id, .noKeyUpdate)] else [])
    (fun _ db => { db with outbox := write db.outbox })
    (fun _ => .ok ())

def markOutboxDeliveredTx (id : Nat) : SyncTx Unit :=
  updateOutbox "outbox: deliver" id (SyncStore.markOutboxDelivered · id)

def markOutboxFailed (id : Nat) (nextRetry : Int) : SyncTx Unit :=
  updateOutbox "outbox: fail" id (SyncStore.markOutboxFailed · id nextRetry)

/-- `INSERT … ON CONFLICT (user_id) DO NOTHING RETURNING id`. -/
def insertAccount (userId newId : Uuid) : SyncTx (Option Uuid) :=
  .exec (.newAccount newId)
    (fun _ => [(.owner userId, .update),
      (.store (.index "inference_billing_accounts_pkey" [newId]), .update)])
    (fun _ db =>
      if db.owners.any (fun o => o.1 = userId) then db
      else { db with
        store := { db.store with accounts := db.store.accounts ++ [⟨newId, .active⟩] }
        owners := db.owners ++ [(userId, newId)] })
    (fun view => .ok (if view.owners.any (fun o => o.1 = userId) then none else some newId))

def selectAccount (userId : Uuid) : SyncTx (Option Uuid) :=
  .query (.op "get billing account by user")
    fun db => (db.owners.find? (fun o => o.1 = userId)).map Prod.snd

/-- An error of the connection or the server, which `mapError` does not know. -/
structure Transient where
  err : Err
  unknown : codeOf err ≠ .conflict

def failing {α : Type} (fault : Option (Nat × Transient)) (t : SyncTx α) : SyncTx α :=
  match fault with
  | none => t
  | some (n, transient) => t.failAt transient.err n

/-- What becomes of a commit: done, undone, or done without the caller being told. -/
inductive Fate where
  | done
  | undone
  | unseen
deriving DecidableEq

def Fate.commit (fate : Fate) (ok failed : SyncProc) : SyncProc :=
  match fate with
  | .done => .commit ok
  | .undone => .rollback failed
  | .unseen => .commit failed

structure Weather where
  /-- The ids an insert of an account and of a wallet draws. -/
  accountId : Uuid
  walletId : Uuid
  now : Int
  accountFault : Option (Nat × Transient) := none
  accountFate : Fate := .done
  ownerFault : Option (Nat × Transient) := none
  beginFault : Bool := false
  applyFault : Option (Nat × Transient) := none
  deliverFault : Option (Nat × Transient) := none
  fate : Fate := .done
  replayBeginFault : Bool := false
  replayFault : Option (Nat × Transient) := none
  replayFate : Fate := .done
  rescheduleFault : Option (Nat × Transient) := none

structure SyncConfig where
  batchLimit : Int
  maxBackoff : Int

def reschedule (cfg : SyncConfig) (msg : OutboxRow) (w : Weather) (next : SyncProc) : SyncProc :=
  (failing w.rescheduleFault
    (markOutboxFailed msg.id (w.now + SyncStore.backoff cfg.maxBackoff msg.attempts))).inTx fun _ => next

def markDeliveredAfterReplay (cfg : SyncConfig) (msg : OutboxRow) (w : Weather) (next : SyncProc) :
    SyncProc :=
  if w.replayBeginFault then
    reschedule cfg msg w next
  else
    (failing w.replayFault (markOutboxDeliveredTx msg.id)).andThen fun
      | .error _ => .rollback (reschedule cfg msg w next)
      | .ok () => w.replayFate.commit next (reschedule cfg msg w next)

def connectionLost : Err := .domain .internal "postgres: ensure billing account: bad connection"

/-- Statements outside a transaction: each is committed before the next. -/
abbrev Statements := ExceptT Err (ContT SyncProc Id)

def ensureBillingAccount (userId : Uuid) (w : Weather) : Statements Uuid :=
  SyncStore.ensureBillingAccount
    (fun next => (failing w.accountFault (insertAccount userId w.accountId)).andThen fun
      | .error e => .rollback (next (.error e))
      | .ok row => w.accountFate.commit (next (.ok row)) (next (.error connectionLost)))
    (fun next => (failing w.ownerFault (selectAccount userId)).inTx next)

def applyMovement (wm : WalletSyncMessage) (accountId paymentId : Uuid) (w : Weather) :
    SyncTx Unit :=
  let draw := fun name => if name = "create wallet" then Label.newWallet w.walletId else .op name
  match wm.kind with
  | .topup => inStore draw (creditTopupTx
      { accountId, currency := wm.currency, amountMicros := wm.amountMicros, paymentId }
      w.walletId w.now)
  | .refund =>
    match wm.refundId with
    | none => .throw (.domain .invalidInput "wallet sync: refund message without refund_id")
    | some refundId => inStore .op (refundWalletTx
        { accountId, currency := wm.currency, amountMicros := wm.amountMicros, refundId } w.now)
  | .other text => .throw (.domain .invalidInput ("wallet sync: unknown kind " ++ text))

def settleMessage (cfg : SyncConfig) (msg : OutboxRow) (wm : WalletSyncMessage)
    (accountId paymentId : Uuid) (w : Weather) (next : SyncProc) : SyncProc :=
  (failing w.applyFault (applyMovement wm accountId paymentId w)).andThen fun
    | .error e => .rollback (if codeOf e = .conflict then markDeliveredAfterReplay cfg msg w next
        else reschedule cfg msg w next)
    | .ok () => (failing w.deliverFault (markOutboxDeliveredTx msg.id)).andThen fun
      | .error _ => .rollback (reschedule cfg msg w next)
      | .ok () => w.fate.commit next (reschedule cfg msg w next)

def processMessage (cfg : SyncConfig) (msg : OutboxRow) (w : Weather) (next : SyncProc) : SyncProc :=
  match msg.payload with
  | none => reschedule cfg msg w next
  | some wm =>
    match wm.userId, wm.paymentId with
    | some userId, some paymentId =>
      if wm.amountMicros ≤ 0 || wm.currency = "" then
        reschedule cfg msg w next
      else
        ensureBillingAccount userId w fun
          | .error _ => reschedule cfg msg w next
          | .ok accountId =>
            if w.beginFault then reschedule cfg msg w next
            else settleMessage cfg msg wm accountId paymentId w next
    | _, _ => reschedule cfg msg w next

structure PassWeather where
  now : Int
  fetchFault : Option (Nat × Transient) := none
  /-- By the position of the message in the batch. -/
  weather : Nat → Weather

def processMessages (cfg : SyncConfig) (weather : Nat → Weather) (next : SyncProc) :
    Nat → List OutboxRow → SyncProc
  | _, [] => next
  | i, msg :: msgs =>
    processMessage cfg msg (weather i) (processMessages cfg weather next (i + 1) msgs)

def runPass (cfg : SyncConfig) (p : PassWeather) (next : SyncProc) : SyncProc :=
  (failing p.fetchFault (fetchPendingOutboxByTopic topicWalletSync cfg.batchLimit p.now)).inTx fun
    | .error _ => next
    | .ok msgs => processMessages cfg p.weather next 0 msgs

def worker (cfg : SyncConfig) : List PassWeather → SyncProc
  | [] => .done ()
  | p :: ps => runPass cfg p (worker cfg ps)

end YunhouUsers.Inference.WalletSync
