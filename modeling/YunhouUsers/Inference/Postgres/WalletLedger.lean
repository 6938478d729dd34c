import YunhouUsers.Inference.Accounting.Wallet
import YunhouUsers.Inference.Postgres.Wallet

/-!
Money in and out of a wallet besides its calls: top-ups, refunds and reversals
(`internal/inference/postgres/wallet_repo.go`).  Audit rows are left out.
-/

namespace YunhouUsers.Inference.Postgres

open ReadCommitted Table Accounting

/-- An insert that gives way to the account's wallet, then a read. -/
def getOrCreateWalletLocked (accountId : Uuid) (currency : String) (newId : Uuid) : Tx Wallet := do
  Txn.exec "create wallet"
    (fun _ => references [some (.account accountId)] ++
      [(.index "inference_wallets_pkey" [newId], .update)])
    (fun _ db =>
      if db.wallets.any (fun w => w.billingAccountId = accountId && w.currency = currency) then db
      else { db with wallets := db.wallets ++ [⟨newId, accountId, currency, false, none⟩] })
    (fun _ => .ok ())
  selectOne "read wallet" (fun db => db.wallets.find? (fun w =>
    w.billingAccountId = accountId && w.currency = currency))

def insertWalletEntry (op : String) (walletId : Uuid) (spec : WalletEntrySpec)
    (reversesEntryId : Option Nat) (businessKey : BusinessKey) (now : Int)
    (violation : WalletEntry → Db → Option PgError) : Tx Unit :=
  let entry := fun db : Db =>
    { id := db.walletEntries.length, walletId := walletId, entryType := spec.type
      direction := spec.direction, source := spec.source, amount := spec.amount.micros
      currency := spec.amount.currency, requestId := none, reversesEntryId := reversesEntryId
      businessKey := businessKey, createdAt := now : WalletEntry }
  insertRow op (references [some (.wallet walletId)]) (fun db => violation (entry db) db)
    (fun db => { db with walletEntries := db.walletEntries ++ [entry db] })

structure WalletTopupCommand where
  accountId : Uuid
  currency : String
  amountMicros : Int
  paymentId : Uuid
deriving DecidableEq

def creditTopupTx (cmd : WalletTopupCommand) (newId : Uuid) (now : Int) : Tx Unit := do
  let m ← check (newMoney cmd.amountMicros cmd.currency)
  Txn.require (0 < m.micros) (.domain .invalidInput "wallet topup: amount must be > 0")
  let spec : WalletEntrySpec := ⟨.topup, .credit, .cash, m⟩
  check (validateWalletEntry spec)
  lockAccountTx cmd.accountId
  let wallet ← getOrCreateWalletLocked cmd.accountId cmd.currency newId
  let _ ← lockWalletTx wallet.id
  insertWalletEntry "wallet topup" wallet.id spec none (.topup cmd.paymentId) now
    walletEntryViolation

structure WalletRefundCommand where
  accountId : Uuid
  currency : String
  amountMicros : Int
  refundId : Uuid
deriving DecidableEq

/-- A refund of a top-up that is not booked yet is an error. -/
def refundWalletTx (cmd : WalletRefundCommand) (now : Int) : Tx Unit := do
  let m ← check (newMoney cmd.amountMicros cmd.currency)
  Txn.require (0 < m.micros) (.domain .invalidInput "wallet refund: amount must be > 0")
  let spec : WalletEntrySpec := ⟨.refund, .debit, .cash, m⟩
  check (validateWalletEntry spec)
  lockAccountTx cmd.accountId
  let row ← Txn.queryLocking "wallet refund: wallet"
    (fun db => (db.wallets.filter (fun w =>
      w.billingAccountId = cmd.accountId && w.currency = cmd.currency)).map
        (fun w => (.wallet w.id, .update)))
    (fun db => db.wallets.find? (fun w =>
      w.billingAccountId = cmd.accountId && w.currency = cmd.currency))
  let wallet ← Txn.orThrow row (mapError "wallet refund: wallet" .noRows)
  insertWalletEntry "wallet refund" wallet.id spec none (.refund cmd.refundId) now
    walletEntryViolation

def reversalViolation (e : WalletEntry) (db : Db) : Option PgError :=
  (walletEntryViolation e db).or
    (if db.walletEntries.any (·.reversesEntryId = e.reversesEntryId) then
      some (.uniqueViolation "idx_inference_wallet_entries_reversal_once") else none)

def reverseWalletEntryTx (accountId : Uuid) (entryId : Nat) (now : Int) : Tx Unit := do
  lockAccountTx accountId
  let row ← Txn.queryLocking "wallet reversal: load original"
    (fun db => ((db.walletEntries.filter (·.id = entryId)).map
      (fun e => (.wallet e.walletId, .update))))
    (fun db => (db.walletEntries.find? (·.id = entryId)).bind
      (fun e => (db.findWallet e.walletId).map (fun w => (e, w.billingAccountId))))
  let (orig, owner) ← Txn.orThrow row (mapError "wallet reversal: load original" .noRows)
  Txn.require (owner = accountId)
    (.domain .invalidInput "wallet reversal: entry does not belong to the account")
  let m ← check (newMoney orig.amount orig.currency)
  let rev ← check (reversalOf ⟨orig.entryType, orig.direction, orig.source, m⟩)
  let _ ← lockWalletTx orig.walletId
  insertWalletEntry "wallet reversal: insert" orig.walletId rev (some entryId)
    (.reversal entryId) now reversalViolation

inductive HoldOp where
  | freeze (cmd : ReserveWalletCommand) (holdId reservationId : Uuid)
  | settle (requestId : Uuid) (charge : Money) (now : Int)
  | release (requestId : Uuid)
deriving DecidableEq

def HoldOp.tx : HoldOp → Tx Unit
  | .freeze cmd holdId reservationId => do
    let _ ← reserveWallet cmd holdId reservationId
  | .settle requestId charge now => settleWalletLocked requestId charge now
  | .release requestId => releaseWalletLocked requestId

inductive WalletOp where
  | hold (op : HoldOp)
  | topup (cmd : WalletTopupCommand) (newId : Uuid) (now : Int)
  | refund (cmd : WalletRefundCommand) (now : Int)
  | reverse (accountId : Uuid) (entryId : Nat) (now : Int)
deriving DecidableEq

def WalletOp.tx : WalletOp → Tx Unit
  | .hold op => op.tx
  | .topup cmd newId now => creditTopupTx cmd newId now
  | .refund cmd now => refundWalletTx cmd now
  | .reverse accountId entryId now => reverseWalletEntryTx accountId entryId now

def playOps (ops : List WalletOp) (db : Db) : Db := ops.foldl (fun db op => op.tx.apply db) db

end YunhouUsers.Inference.Postgres
