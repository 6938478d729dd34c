import YunhouUsers.ReadCommitted.Session
import YunhouUsers.Table
import YunhouUsers.Inference.Domain

/-!
The tables of the inference store and the statements its repositories are built from.
-/

namespace YunhouUsers.Inference.Postgres

open ReadCommitted Table

structure Db where
  accounts : List BillingAccount := []
  apiKeys : List ApiKey := []
  windows : List QuotaWindow := []
  requests : List Request := []
  attempts : List Attempt := []
  usageRecords : List UsageRecord := []
  reservations : List Reservation := []
  ledger : List LedgerEntry := []
  adjustments : List Adjustment := []
  jobs : List ReconciliationJob := []
  wallets : List Wallet := []
  walletHolds : List WalletHold := []
  walletEntries : List WalletEntry := []
  /-- Ids of `inference_entitlements`, the target of the windows' foreign key. -/
  entitlementIds : List Uuid := []
  leases : List ConcurrencyLease := []
deriving DecidableEq

/-- What a transaction can lock: a row by its primary key, or the slot of a unique index
it inserts into. -/
inductive LockKey where
  | account (id : Uuid)
  | apiKey (id : Uuid)
  | window (id : Uuid)
  | request (id : Uuid)
  | attempt (id : Uuid)
  | reservation (id : Uuid)
  | adjustment (id : Uuid)
  | wallet (id : Uuid)
  | walletHold (id : Uuid)
  | entitlement (id : Uuid)
  | job (requestId : Uuid)
  | index (name : String) (key : List Nat)
deriving DecidableEq

/-- A transaction body of the store; statements are named by the `op` the repositories
pass to `mapError`. -/
abbrev Tx := Txn Db LockKey String Err

/-- Locks the foreign-key check of an insert takes on the referenced rows. -/
def references (keys : List (Option LockKey)) : List (LockKey × LockMode) :=
  (keys.filterMap id).map fun k => (k, .keyShare)

variable (op : String)

/-- One `INSERT`; `violation` is the first constraint the row breaks. -/
def insertRow (locks : List (LockKey × LockMode)) (violation : Db → Option PgError)
    (write : Db → Db) : Tx Unit :=
  .exec op (fun _ => locks) (fun _ => write) fun view =>
    match violation view with
    | some v => .error (mapError op v)
    | none => .ok ()

/-- One `UPDATE` that must affect a row: `RowsAffected = 0` is the error `miss`.  Only a row
that matches the whole `WHERE` is locked. -/
def updateRow (locks : List (LockKey × LockMode)) (hit : Db → Bool)
    (write : Db → Db) (miss : Err) : Tx Unit :=
  .exec op (fun view => if hit view then locks else []) (fun _ => write) fun view =>
    if hit view then .ok () else .error miss

/-- One `UPDATE` that may affect no row; the result says whether it did. -/
def tryUpdate (locks : List (LockKey × LockMode)) (hit : Db → Bool) (write : Db → Db) : Tx Bool :=
  .exec op (fun view => if hit view then locks else []) (fun _ => write) fun view =>
    .ok (hit view)

def selectForUpdate {α : Type} (key : LockKey) (read : Db → Option α) : Tx α := do
  let row ← Txn.queryLocking op
    (fun view => if (read view).isSome then [(key, .update)] else []) read
  Txn.orThrow row (mapError op .noRows)

def selectOne {α : Type} (read : Db → Option α) : Tx α := do
  let row ← Txn.query op read
  Txn.orThrow row (mapError op .noRows)

variable {op : String} {locks : List (LockKey × LockMode)} {violation : Db → Option PgError}
  {write : Db → Db} {db : Db} {r : Unit × Db}

theorem insertRow_ok :
    (insertRow op locks violation write).eval db = .ok r ↔
      violation db = none ∧ r = ((), write db) := by
  rw [insertRow, Txn.eval_exec_ok]
  cases violation db with
  | some v => simp
  | none => exact ⟨fun ⟨_, _, h⟩ => ⟨rfl, h⟩, fun ⟨_, h⟩ => ⟨(), rfl, h⟩⟩

variable {hit : Db → Bool}

theorem updateRow_ok {miss : Err} :
    (updateRow op locks hit write miss).eval db = .ok r ↔ hit db = true ∧ r = ((), write db) := by
  rw [updateRow, Txn.eval_exec_ok]
  cases hit db with
  | false => simp
  | true => exact ⟨fun ⟨_, _, h⟩ => ⟨rfl, h⟩, fun ⟨_, h⟩ => ⟨(), rfl, h⟩⟩

theorem insertRow_error {e : Err} :
    (insertRow op locks violation write).eval db = .error e ↔
      ∃ v, violation db = some v ∧ e = mapError op v := by
  rw [insertRow, Txn.eval_exec]
  cases violation db with
  | some v => simp [Except.map, eq_comm]
  | none => simp [Except.map]

theorem tryUpdate_ok {r : Bool × Db} :
    (tryUpdate op locks hit write).eval db = .ok r ↔ r = (hit db, write db) := by
  rw [tryUpdate, Txn.eval_exec_ok]
  simp

theorem selectForUpdate_ok {α : Type} {key : LockKey} {read : Db → Option α} {r : α × Db} :
    (selectForUpdate op key read).eval db = .ok r ↔ ∃ a, read db = some a ∧ r = (a, db) := by
  rw [selectForUpdate, Txn.eval_queryLocking_bind, Txn.eval_orThrow_ok]

theorem selectOne_ok {α : Type} {read : Db → Option α} {r : α × Db} :
    (selectOne op read).eval db = .ok r ↔ ∃ a, read db = some a ∧ r = (a, db) := by
  rw [selectOne, Txn.eval_query_bind, Txn.eval_orThrow_ok]

namespace Db

variable (db : Db)

def findAccount (id : Uuid) : Option BillingAccount :=
  db.accounts.find? (·.id = id)

def findApiKey (id : Uuid) : Option ApiKey := db.apiKeys.find? (·.id = id)

def findWindow (id : Uuid) : Option QuotaWindow := db.windows.find? (·.id = id)

def findRequest (id : Uuid) : Option Request := db.requests.find? (·.id = id)

def findWallet (id : Uuid) : Option Wallet := db.wallets.find? (·.id = id)

def findAdjustment (id : Uuid) : Option Adjustment :=
  db.adjustments.find? (·.id = id)

end Db

/-- The anchor lock of every reservation, release and wallet change. -/
def lockAccountTx (accountId : Uuid) : Tx Unit := do
  let account ← selectForUpdate "lock account" (.account accountId)
    (fun db => db.findAccount accountId)
  Txn.require (account.status = .active)
    (.domain .invalidKey ("billing account not active: " ++ account.status.text))

theorem lockAccountTx_ok {accountId : Uuid} :
    (lockAccountTx accountId).eval db = .ok r ↔
      (∃ a, db.findAccount accountId = some a ∧ a.status = .active) ∧ r = ((), db) := by
  simp only [lockAccountTx, Txn.eval_bind_ok, selectForUpdate_ok, Txn.eval_require_ok,
    decide_eq_true_eq]
  constructor
  · rintro ⟨_, _, ⟨a, found, same⟩, active, rfl⟩
    cases same
    exact ⟨⟨_, found, active⟩, rfl⟩
  · rintro ⟨⟨a, found, active⟩, rfl⟩
    exact ⟨a, db, ⟨a, found, rfl⟩, active, rfl⟩

end YunhouUsers.Inference.Postgres
