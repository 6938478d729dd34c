import YunhouUsers.Inference.Accounting
import YunhouUsers.Inference.Postgres.Quota

/-!
Wallet admission, settlement and release (`internal/inference/postgres/wallet_repo.go`).

Every row an insert references is locked `FOR KEY SHARE` by the foreign-key check; the
references are those of migrations 026 and 030.
-/

namespace YunhouUsers.Inference.Postgres

open ReadCommitted Table Accounting

def WalletEntry.part (w : Uuid) (source : WalletSource) (direction : Direction)
    (e : WalletEntry) : Int :=
  if e.walletId = w ∧ e.source = source ∧ e.direction = direction then e.amount else 0

def WalletHold.heldCash (w : Uuid) (h : WalletHold) : Int :=
  if h.walletId = w ∧ h.state = .held then h.cash else 0

def WalletHold.heldBonus (w : Uuid) (h : WalletHold) : Int :=
  if h.walletId = w ∧ h.state = .held then h.bonus else 0

namespace Db

def entrySum (db : Db) (w : Uuid) (source : WalletSource) (direction : Direction) : Int :=
  total (WalletEntry.part w source direction) db.walletEntries

def heldCash (db : Db) (w : Uuid) : Int := total (WalletHold.heldCash w) db.walletHolds

def heldBonus (db : Db) (w : Uuid) : Int := total (WalletHold.heldBonus w) db.walletHolds

end Db

/-- Two statements, the ledger sums and then the held split. -/
def walletSumsLocked (walletId : Uuid) : Tx WalletSums := do
  let entries ← Txn.query "wallet sums: entries" fun db =>
    (db.entrySum walletId .cash .credit, db.entrySum walletId .cash .debit,
      db.entrySum walletId .bonus .credit, db.entrySum walletId .bonus .debit)
  let held ← Txn.query "wallet sums: holds" fun db =>
    (db.heldCash walletId, db.heldBonus walletId)
  pure
    { cashCredit := entries.1, cashDebit := entries.2.1
      bonusCredit := entries.2.2.1, bonusDebit := entries.2.2.2
      heldCash := held.1, heldBonus := held.2 }

/-- What one entry adds to the month's spend: consumption, less its reversals. -/
def spendOf (entries : List WalletEntry) (e : WalletEntry) : Int :=
  if e.entryType = .consume ∧ e.direction = .debit then e.amount
  else if e.entryType = .reversal ∧ e.direction = .credit ∧
      (e.reversesEntryId.bind (fun o => entries.find? (·.id = o))).any
        (·.entryType = .consume) then
    -e.amount
  else 0

def monthSpendLocked (walletId : Uuid) (start stop : Int) : Tx Int :=
  Txn.query "wallet month spend" fun db =>
    total (spendOf db.walletEntries) (db.walletEntries.filter fun e =>
      e.walletId = walletId && start ≤ e.createdAt && e.createdAt < stop)

def lockWalletTx (walletId : Uuid) : Tx Wallet :=
  selectForUpdate "lock wallet" (.wallet walletId) (fun db => db.findWallet walletId)

def Wallet.settings (w : Wallet) : OverageSettings := ⟨w.overageEnabled, w.monthlySpendLimit⟩

structure ReserveWalletCommand where
  request : Request
  walletId : Uuid
  holdMicros : Int
  priceVersionId : Option Uuid
  admittedAt : Int
  monthStart : Int
  monthEnd : Int
deriving DecidableEq

def check {α : Type} : Except Err α → Tx α
  | .ok a => .pure a
  | .error e => .throw e

theorem check_ok {α : Type} {r : Except Err α} {db : Db} {p : α × Db} :
    (check r).eval db = .ok p ↔ ∃ a, r = .ok a ∧ p = (a, db) := by
  cases r <;> simp [check, eq_comm]

def holdViolation (h : WalletHold) (db : Db) : Option PgError :=
  if h.amount < 0 then some (.checkViolation "inference_wallet_holds_amount_micros_check")
  else if h.cash < 0 then some (.checkViolation "inference_wallet_holds_cash_micros_check")
  else if h.bonus < 0 then some (.checkViolation "inference_wallet_holds_bonus_micros_check")
  else if h.cash + h.bonus ≠ h.amount then some (.checkViolation "inference_wallet_holds_check")
  else if db.walletHolds.any (·.id = h.id) then
    some (.uniqueViolation "inference_wallet_holds_pkey")
  else if db.walletHolds.any (·.requestId = h.requestId) then
    some (.uniqueViolation "inference_wallet_holds_request_id_key")
  else if !db.wallets.any (·.id = h.walletId) then
    some (.foreignKeyViolation "inference_wallet_holds_wallet_id_fkey")
  else if !db.requests.any (·.id = h.requestId) then
    some (.foreignKeyViolation "inference_wallet_holds_request_id_fkey")
  else none

/-- The hold row also carries the pinned price version; without one the `uuid` column gets
an empty text. -/
def insertWalletHold (h : WalletHold) (priceVersionId : Option Uuid) : Tx Unit :=
  insertRow "reserve wallet: hold"
    (references [some (.wallet h.walletId), some (.request h.requestId)] ++
      [(.index "inference_wallet_holds_pkey" [h.id], .update),
       (.index "inference_wallet_holds_request_id_key" [h.requestId], .update)])
    (fun db => if priceVersionId.isNone then some .invalidSyntax else holdViolation h db)
    (fun db => { db with walletHolds := db.walletHolds ++ [h] })

def walletRequest (cmd : ReserveWalletCommand) : Request :=
  { cmd.request with
    status := .reserved
    admittedAt := some cmd.admittedAt
    chargeSource := .wallet
    priceVersionId := cmd.priceVersionId.or cmd.request.priceVersionId
    reservedMicros := some cmd.holdMicros }

def reserveWallet (cmd : ReserveWalletCommand) (holdId reservationId : Uuid) : Tx Uuid := do
  Txn.require (0 ≤ cmd.holdMicros) (.domain .invalidInput "reserve wallet: hold must be >= 0")
  lockAccountTx cmd.request.billingAccountId
  let wallet ← lockWalletTx cmd.walletId
  Txn.require (wallet.billingAccountId = cmd.request.billingAccountId)
    (.domain .invalidInput "reserve wallet: wallet does not belong to the account")
  let sums ← walletSumsLocked wallet.id
  let spent ← monthSpendLocked wallet.id cmd.monthStart cmd.monthEnd
  check (checkWalletSpend (Wallet.settings wallet) (spent + sums.heldCash + sums.heldBonus)
    cmd.holdMicros)
  let bal ← check (deriveWalletBalance wallet.currency sums)
  -- a zero hold freezes an empty split and never looks at the balance
  let split ← check (if cmd.holdMicros > 0 then
    splitFreeze bal.bonusAvailable bal.cashAvailable cmd.holdMicros else .ok (0, 0))
  insertRequest (walletRequest cmd)
  insertWalletHold
    { id := holdId, walletId := wallet.id, requestId := cmd.request.id, amount := cmd.holdMicros
      cash := split.1, bonus := split.2, state := .held }
    cmd.priceVersionId
  insertReservation "reserve wallet: reservation"
    { id := reservationId, requestId := cmd.request.id, targetKind := .wallet, windowId := none
      apiKeyId := none, amount := cmd.holdMicros, state := .held }
  pure cmd.request.id

/-- First constraint of `inference_wallet_entries` a consume row breaks. -/
def walletEntryViolation (e : WalletEntry) (db : Db) : Option PgError :=
  if e.amount ≤ 0 then some (.checkViolation "inference_wallet_entries_amount_micros_check")
  else if !validCurrency e.currency then
    some (.checkViolation "inference_wallet_entries_currency_check")
  else if db.walletEntries.any (·.businessKey = e.businessKey) then
    some (.uniqueViolation "inference_wallet_entries_business_key_key")
  else if !db.wallets.any (·.id = e.walletId) then
    some (.foreignKeyViolation "inference_wallet_entries_wallet_id_fkey")
  else if missing e.requestId (db.requests.map (·.id)) then
    some (.foreignKeyViolation "inference_wallet_entries_request_id_fkey")
  else none

def consumeEntry (hold : WalletHold) (source : WalletSource) (m : Money) (now : Int) (db : Db) :
    WalletEntry :=
  { id := db.walletEntries.length, walletId := hold.walletId, entryType := .consume
    direction := .debit, source := source, amount := m.micros, currency := m.currency
    requestId := some hold.requestId, reversesEntryId := none
    businessKey := .consume hold.requestId source, createdAt := now }

/-- The `write` closure of `settleWalletLocked`: one consume entry, none for a zero part. -/
def writeConsume (hold : WalletHold) (currency : String) (source : WalletSource) (micros : Int)
    (now : Int) : Tx Unit :=
  if micros = 0 then pure ()
  else do
    let m ← check (newMoney micros currency)
    insertRow "settle wallet: consume entry"
      (references [some (.wallet hold.walletId), some (.request hold.requestId),
        some (.walletHold hold.id)])
      (fun db => walletEntryViolation (consumeEntry hold source m now db) db)
      (fun db => { db with
        walletEntries := db.walletEntries ++ [consumeEntry hold source m now db] })

def settleHold (hold : WalletHold) : Tx Unit :=
  updateRow "settle wallet: hold" [(.walletHold hold.id, .noKeyUpdate)]
    (fun db => db.walletHolds.any (fun h => h.id = hold.id && h.state = .held))
    (fun db => { db with
      walletHolds := updateWhere (fun h => h.id = hold.id && h.state = .held)
        (fun h => { h with state := .settled }) db.walletHolds })
    (.domain .conflict "settle wallet: hold already transitioned (concurrent release?)")

/-- The request's hold becomes consume entries, bonus first. -/
def settleWalletLocked (requestId : Uuid) (charge : Money) (now : Int) : Tx Unit := do
  let row ← Txn.queryLocking "settle wallet: lock hold"
    (fun db => (db.walletHolds.filter (·.requestId = requestId)).map
      (fun h => (.walletHold h.id, .update)))
    (fun db => (db.walletHolds.find? (·.requestId = requestId)).bind
      (fun h => (db.findWallet h.walletId).map (fun w => (h, w.currency))))
  let (hold, currency) ← Txn.orThrow row (mapError "settle wallet: lock hold" .noRows)
  Txn.require (charge.currency = currency)
    (.domain .invalidInput ("settle wallet: charge currency " ++ charge.currency ++
      " != wallet currency " ++ currency))
  let split ← check (splitConsume hold.cash hold.bonus charge.micros)
  writeConsume hold currency .bonus split.2.1 now
  writeConsume hold currency .cash (split.1 + split.2.2) now
  settleHold hold

/-- A state change of the hold, never a ledger rewrite. -/
def releaseWalletLocked (requestId : Uuid) : Tx Unit :=
  .exec "release wallet: hold"
    (fun db => (db.walletHolds.filter
      (fun h => h.requestId = requestId && h.state = .held)).map
        (fun h => (.walletHold h.id, .noKeyUpdate)))
    (fun _ db => { db with
      walletHolds := updateWhere (fun h => h.requestId = requestId && h.state = .held)
        (fun h => { h with state := .released }) db.walletHolds })
    (fun db =>
      if db.walletHolds.any (fun h => h.requestId = requestId && h.state = .held) then .ok ()
      else .error (.domain .conflict "release wallet: hold not held (concurrent settlement?)"))

end YunhouUsers.Inference.Postgres
