import Mathlib.Data.List.Sort
import YunhouUsers.Inference.Postgres.Store

/-!
Concurrency leases (`internal/inference/postgres/lease_repo.go`).
-/

namespace YunhouUsers.Inference.Postgres

open ReadCommitted Table

structure AcquireLeaseCommand where
  scope : LeaseScope
  scopeId : Uuid
  requestId : Uuid
  /-- Empty: one is drawn. -/
  ownerToken : String
  limit : Int
  ttl : Int
  /-- `none` is the zero time. -/
  now : Option Int
deriving DecidableEq

variable (scope : LeaseScope)

def ofScope (scopeId : Uuid) (l : ConcurrencyLease) : Bool :=
  l.scope = scope && l.scopeId = scopeId

def scopeLockKey (scopeId : Uuid) : LockKey :=
  .index ("inference_lease:" ++ scope.text) [scopeId]

variable (l : ConcurrencyLease)

def leaseKey : LockKey := .index "inference_concurrency_leases_pkey" [l.id]

def reclaimable (scopeId : Uuid) (now : Int) (l : ConcurrencyLease) : Bool :=
  ofScope scope scopeId l && l.state = .held && l.expiresAt ≤ now

def heldLeases (scopeId : Uuid) (db : Db) : List ConcurrencyLease :=
  db.leases.filter (fun l => ofScope scope scopeId l && l.state = .held)

def maxFencing (scopeId : Uuid) (db : Db) : Int :=
  ((db.leases.filter (ofScope scope scopeId)).map (·.fencingToken)).max?.getD 0

/-- First constraint of `inference_concurrency_leases` the new row breaks. -/
def leaseViolation (db : Db) : Option PgError :=
  if l.fencingToken ≤ 0 then
    some (.checkViolation "inference_concurrency_leases_fencing_token_check")
  else if l.expiresAt ≤ l.acquiredAt then some (.checkViolation "inference_concurrency_leases_check")
  else if db.leases.any (·.id = l.id) then
    some (.uniqueViolation "inference_concurrency_leases_pkey")
  else if db.leases.any (fun x => ofScope l.scope l.scopeId x && x.requestId = l.requestId) then
    some (.uniqueViolation "inference_concurrency_leases_scope_scope_id_request_id_key")
  else if !db.requests.any (·.id = l.requestId) then
    some (.foreignKeyViolation "inference_concurrency_leases_request_id_fkey")
  else none

def insertLease : Tx Unit :=
  insertRow "lease: insert"
    (references [some (.request l.requestId)] ++ [(leaseKey l, .update),
      (.index "inference_concurrency_leases_scope_scope_id_request_id_key"
        [l.scopeId, l.requestId], .update)])
    (leaseViolation l)
    (fun db => { db with leases := db.leases ++ [l] })

/-- `newId` and `newOwner` are what `uuid.NewString` draws and `clock` is the current time. The
refusal's text ends with the earliest expiry, which is left out here. -/
def acquireLeaseTx (cmd : AcquireLeaseCommand) (newId : Uuid) (newOwner : String) (clock : Int) :
    Tx ConcurrencyLease := do
  Txn.require (0 < cmd.limit) (.domain .invalidInput "lease: limit must be > 0")
  Txn.require (0 < cmd.ttl) (.domain .invalidInput "lease: TTL must be > 0")
  let owner := if cmd.ownerToken = "" then newOwner else cmd.ownerToken
  let now := cmd.now.getD clock
  Txn.queryLocking "lease: scope lock" (fun _ => [(scopeLockKey cmd.scope cmd.scopeId, .update)])
    fun _ => ()
  let out := reclaimable cmd.scope cmd.scopeId now
  .exec "lease: reclaim expired"
    (fun db => (db.leases.filter out).map (fun l => (leaseKey l, .noKeyUpdate)))
    (fun _ db => { db with
      leases := updateWhere out (fun l => { l with state := .expired }) db.leases })
    (fun _ => .ok ())
  let live ← Txn.query "lease: count held" fun db => (heldLeases cmd.scope cmd.scopeId db).length
  let maxFencing ← Txn.query "lease: max fencing" (maxFencing cmd.scope cmd.scopeId)
  Txn.require (live < cmd.limit) (.domain .insufficientCapacity
    ("lease: scope " ++ cmd.scope.text ++ "/" ++ toString cmd.scopeId ++
      " at concurrency limit " ++ toString cmd.limit))
  let row : ConcurrencyLease :=
    { id := newId, scope := cmd.scope, scopeId := cmd.scopeId, requestId := cmd.requestId
      ownerToken := owner, fencingToken := maxFencing + 1, state := .held, acquiredAt := now
      expiresAt := now + cmd.ttl, releasedAt := none }
  insertLease row
  pure row

def ownedBy (id : Uuid) (ownerToken : String) (fencing : Int) (l : ConcurrencyLease) : Bool :=
  l.id = id && l.ownerToken = ownerToken && l.fencingToken = fencing && l.state = .held

/-- The table checks that a lease ends after it began. -/
def renewLease (id : Uuid) (ownerToken : String) (fencing newExpiresAt : Int) : Tx Unit :=
  let mine := ownedBy id ownerToken fencing
  .exec "lease: renew" (fun db => (db.leases.filter mine).map (fun l => (leaseKey l, .noKeyUpdate)))
    (fun _ db => { db with
      leases := updateWhere mine (fun l => { l with expiresAt := newExpiresAt }) db.leases })
    fun db =>
      if db.leases.any (fun l => mine l && newExpiresAt ≤ l.acquiredAt) then
        .error (mapError "lease: renew" (.checkViolation "inference_concurrency_leases_check"))
      else if db.leases.any mine then .ok ()
      else .error (.domain .conflict
        "lease: renew failed — not held by this owner/fencing token (reclaimed or fenced)")

/-- `now` is the `now()` of the statement. -/
def releaseLease (id : Uuid) (ownerToken : String) (fencing now : Int) : Tx Unit :=
  let mine := ownedBy id ownerToken fencing
  updateRow "lease: release" [(.index "inference_concurrency_leases_pkey" [id], .noKeyUpdate)]
    (fun db => db.leases.any mine)
    (fun db => { db with
      leases := updateWhere mine (fun l => { l with state := .released, releasedAt := some now })
        db.leases })
    (.domain .conflict "lease: release failed — not held by this owner/fencing token")

def terminalAt : Int := l.releasedAt.getD l.expiresAt

/-- The terminal rows before `cutoff`, oldest first; `tie` orders rows of one instant. -/
def reapable (cutoff : Int) (tie : Uuid → Nat) (db : Db) : List ConcurrencyLease :=
  (db.leases.filter (fun l => l.state ≠ .held && terminalAt l < cutoff)).insertionSort fun a b =>
    terminalAt a < terminalAt b ∨ terminalAt a = terminalAt b ∧ tie a.id ≤ tie b.id

def deleteTerminalLeases (cutoff limit : Int) (tie : Uuid → Nat) : Tx Unit :=
  let limit := if limit ≤ 0 ∨ 1000 < limit then 100 else limit.toNat
  let batch := fun db => ((reapable cutoff tie db).take limit).map (·.id)
  .exec "reap terminal leases"
    (fun db => (batch db).map (fun id => (.index "inference_concurrency_leases_pkey" [id], .update)))
    (fun view db => { db with leases := db.leases.filter (fun l => l.id ∉ batch view) })
    (fun _ => .ok ())

def checkLease (id : Uuid) (ownerToken : String) (fencing : Int) (now : Option Int) (clock : Int) :
    Tx Unit := do
  let row ← selectOne "lease: check load" fun db => db.leases.find? (·.id = id)
  let t := now.getD clock
  Txn.require (row.state = .held && row.ownerToken = ownerToken && row.fencingToken = fencing)
    (.domain .conflict ("lease: not held by this owner/fencing token (state=" ++ row.state.text ++
      ")"))
  Txn.require (t < row.expiresAt) (.domain .conflict "lease: expired — renew before use or stop")

end YunhouUsers.Inference.Postgres
