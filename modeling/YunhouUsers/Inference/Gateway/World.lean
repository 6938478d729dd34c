import YunhouUsers.CrashProne
import YunhouUsers.Inference.Postgres.Reconciliation

/-!
What the gateway and the recovery worker act on: the store, the upstream connection and the
clock, with every answer left to the surroundings.

`wire` and `released` only record what happened: the upstream exchanges of each attempt and
the release transactions that committed.
-/

namespace YunhouUsers.Inference.Gateway

open ReadCommitted CrashProne Table Postgres

structure Cause where
  /-- `errors.Is(err, context.Canceled)`. -/
  canceled : Bool := false
  /-- A `*url.Error` that is a timeout. -/
  urlTimeout : Bool := false
  /-- A `*net.DNSError`. -/
  dnsError : Bool := false
  /-- `errors.Is(err, syscall.ECONNREFUSED)`. -/
  connRefused : Bool := false
  /-- `routing.ErrAccountInactiveAtDispatch`. -/
  accountInactive : Bool := false
  /-- `domain.CodeOf`. -/
  code : Code := .internal
  text : String := ""
deriving DecidableEq

def codeOf : Err → Code
  | .domain code _ => code
  | .quotaExceeded _ _ _ => .quotaExceeded
  | .activationConflict _ _ => .internal

def errAccountInactiveAtDispatch : Err :=
  .domain .conflict "upstream account not active at dispatch"

def Cause.ofErr (e : Err) : Cause :=
  { code := codeOf e, accountInactive := e = errAccountInactiveAtDispatch }

/-- A failed `client.Do`.  The name lookup and the dial come before the first byte of the
request. -/
structure DoError where
  cause : Cause
  /-- Whether the request went out on the connection. -/
  written : Bool
  dialed : written = true → cause.dnsError = false ∧ cause.connRefused = false

inductive Body where
  | unread (cause : Cause)
  | oversized
  | undecodable (cause : Cause)
  /-- `reported`: it carries usage. -/
  | decoded (reported : Bool)
deriving DecidableEq

inductive Exchange where
  | failed (e : DoError)
  | answered (status : Nat) (body : Body)

/-- The request never went out, or the upstream refused it: any status but 200. -/
def Exchange.unexecuted : Exchange → Bool
  | .failed e => !e.written
  | .answered status _ => status ≠ 200

/-- What the code asks of others and gets only a yes or an error for. -/
inductive Check where
  | acquireLease
  | checkLease
  | egress
  | secret
  | extensionHeaders
  | buildPayload
  | newRequest
  | customHeaders
  | settleBackoff
deriving DecidableEq

/-- What can happen to a transaction besides its own errors: it is rolled back, or it
commits and the answer is lost. -/
inductive Fault where
  | none
  | rolledBack (cause : Cause)
  | unacknowledged (cause : Cause)
deriving DecidableEq

inductive StreamEnd where
  | completed
  | upstreamBroke
  | clientGone
deriving DecidableEq

structure StreamReport where
  finish : StreamEnd
  keeperLost : Bool
  sawUsage : Bool
  terminal : Bool
  emptyBuckets : Bool
deriving DecidableEq

structure Charge where
  credit : Int
  money : Option Money
deriving DecidableEq

structure World where
  db : Db
  cooled : List Uuid := []
  wire : List (Uuid × Exchange) := []
  released : List Uuid := []

inductive Op where
  | check (what : Check)
  | newId
  | now
  | tx (body : Tx Unit)
  | release (requestId : Uuid) (fromReconciliation : Bool)
  | send (attemptId : Uuid)
  | cooldown (accountId : Uuid)
  | streamEnd
  | price
  | attemptCost
  | lookupUsage (attemptId : Uuid)
  | listAttempts (requestId : Uuid)
  | attemptErrorKinds (requestId : Uuid)
  | getRequest (requestId : Uuid)
  | latestUsageRevision (attemptId : Uuid)
  | listStaleOpenRequests
  | listPendingReconciliationJobs

@[reducible] def Op.Choice : Op → Type
  | .check _ => Except Cause Unit
  | .newId => Uuid
  | .now => Int
  | .tx _ | .release _ _ => Fault
  | .send _ => Exchange
  | .cooldown _ => Unit
  | .streamEnd => StreamReport
  | .price => Except Cause Charge
  | .attemptCost => Except Cause (Option (Money × CostBasis))
  | .lookupUsage _ => Option (UsageRecord × Int)
  | .listAttempts _ | .attemptErrorKinds _ | .getRequest _ | .latestUsageRevision _ =>
    Except Cause Unit
  -- which of the open rows are old enough, and within the batch
  | .listStaleOpenRequests | .listPendingReconciliationJobs => Except Cause (Uuid → Bool)

@[reducible] def Op.Result : Op → Type
  | .check _ => Except Cause Unit
  | .newId => Uuid
  | .now => Int
  | .tx _ | .release _ _ => Except Cause Unit
  | .send _ => Exchange
  | .cooldown _ => Unit
  | .streamEnd => StreamReport
  | .price => Except Cause Charge
  | .attemptCost => Except Cause (Option (Money × CostBasis))
  | .lookupUsage _ => Option (UsageRecord × Int)
  | .listAttempts _ => Except Cause (List Attempt)
  | .attemptErrorKinds _ => Except Cause (List (Uuid × String))
  | .getRequest _ => Except Cause Request
  | .latestUsageRevision _ => Except Cause Nat
  | .listStaleOpenRequests => Except Cause (List Request)
  | .listPendingReconciliationJobs => Except Cause (List ReconciliationJob)

def transact {α : Type} (fault : Fault) (body : Tx α) (db : Db) : Except Cause α × Option Db :=
  match fault with
  | .rolledBack cause => (.error cause, none)
  | .none =>
    match body.eval db with
    | .ok (a, db') => (.ok a, some db')
    | .error e => (.error (Cause.ofErr e), none)
  | .unacknowledged cause =>
    match body.eval db with
    | .ok (_, db') => (.error cause, some db')
    | .error e => (.error (Cause.ofErr e), none)

def reading {α β : Type} (choice : Except Cause β) (rows : β → α) : Except Cause α :=
  choice.map rows

def openRequestStatuses : List RequestStatus :=
  [.reserved, .dispatching, .streaming, .nonStreaming, .settling]

def World.attemptsOf (w : World) (requestId : Uuid) : List Attempt :=
  (w.db.attempts.filter (·.requestId = requestId)).insertionSort
    fun a b => a.attemptNo ≤ b.attemptNo

def World.release (w : World) (requestId : Uuid) (fromReconciliation : Bool) (fault : Fault) :
    Except Cause Unit × World :=
  match transact fault (releaseLocked requestId fromReconciliation) w.db with
  | (answer, some db) => (answer, { w with db := db, released := requestId :: w.released })
  | (answer, none) => (answer, w)

def exec : (op : Op) → op.Choice → World → op.Result × World
  | .check _, c, w => (c, w)
  | .newId, c, w => (c, w)
  | .now, c, w => (c, w)
  | .tx body, fault, w =>
    let (answer, committed) := transact fault body w.db
    (answer, { w with db := committed.getD w.db })
  | .release requestId fromReconciliation, fault, w =>
    w.release requestId fromReconciliation fault
  | .send attemptId, x, w => (x, { w with wire := (attemptId, x) :: w.wire })
  | .cooldown accountId, _, w => ((), { w with cooled := accountId :: w.cooled })
  | .streamEnd, c, w => (c, w)
  | .price, c, w => (c, w)
  | .attemptCost, c, w => (c, w)
  | .lookupUsage _, c, w => (c, w)
  | .listAttempts requestId, c, w => (reading c fun _ => w.attemptsOf requestId, w)
  | .attemptErrorKinds requestId, c, w =>
    (reading c fun _ => (w.attemptsOf requestId).map (fun a => (a.id, a.errorKind)), w)
  | .getRequest requestId, c, w =>
    (c.bind fun _ => match w.db.findRequest requestId with
      | some q => .ok q
      | none => .error { code := .notFound }, w)
  | .latestUsageRevision attemptId, c, w => (reading c fun _ => nextRevision attemptId w.db - 1, w)
  | .listStaleOpenRequests, c, w =>
    (reading c fun stale => w.db.requests.filter
      (fun q => q.status ∈ openRequestStatuses && stale q.id), w)
  | .listPendingReconciliationJobs, c, w =>
    (reading c fun batch => w.db.jobs.filter (fun j => j.status = .pending && batch j.id), w)

@[reducible] def calls : Calls World := ⟨Op, Op.Choice, Op.Result, exec⟩

abbrev GatewayM := Prog calls

def ask (op : Op) : GatewayM op.Result := Prog.perform (C := calls) op

def check (what : Check) : GatewayM (Except Cause Unit) := ask (.check what)

def tx (body : Tx Unit) : GatewayM (Except Cause Unit) := ask (.tx body)

def Op.passive : Op → Bool
  | .tx _ | .release _ _ | .send _ => false
  | _ => true

end YunhouUsers.Inference.Gateway
