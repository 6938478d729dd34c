import YunhouUsers.Inference.Gateway.World

/-!
The upstream call and the dispatch loop around it (`providers/adapter.go` and
`gateway/service.go` of `internal/inference`).

The loop is written over the steps it takes, in any monad.  Here whether a lease is granted or
still live is an answer of the surroundings; `Failover` takes the steps on a table of leases.
Keepers are not modelled.
-/

namespace YunhouUsers.Inference.Gateway

open ReadCommitted CrashProne Table Postgres

structure DispatchError where
  statusCode : Nat := 0
  err : Option Cause := none
  executedUnknown : Bool := false
  noCooldown : Bool := false
deriving DecidableEq

/-- An error of `attempt`: a failed upstream try, or a client or shape error. -/
inductive AttemptError where
  | dispatch (e : DispatchError)
  | domain (code : Code) (message : String)
deriving DecidableEq

def isCanceled (err : Cause) : Bool :=
  if err.urlTimeout then false else err.canceled

/-- Whether the upstream may have executed. -/
def classifyTransport (err : Cause) : Bool :=
  if err.dnsError then false
  else if err.connRefused then false
  else true

def DispatchError.retryable (e : DispatchError) : Bool :=
  if e.statusCode ≠ 0 then e.statusCode = 429 || 500 ≤ e.statusCode
  else
    match e.err with
    | none => false
    | some err => !isCanceled err

/-- A live stream, or a payload with or without usage. -/
inductive DispatchResult where
  | stream
  | payload (usageReported : Bool)
deriving DecidableEq

def readExchange (stream : Bool) : Exchange → Except DispatchError DispatchResult
  | .failed e =>
    if isCanceled e.cause then .error { err := some e.cause }
    else .error { err := some e.cause, executedUnknown := classifyTransport e.cause }
  | .answered status body =>
    if status ≠ 200 then .error { statusCode := status }
    else if stream then .ok .stream
    else
      match body with
      | .unread cause => .error { err := some cause, executedUnknown := true }
      | .oversized =>
        .error
          { err := some { text := "providers: upstream response exceeds 8388608 bytes" }
            executedUnknown := true }
      | .undecodable cause => .error { err := some cause, executedUnknown := true }
      | .decoded reported => .ok (.payload reported)

def finishAttemptTx (id : Uuid) (status : AttemptStatus) (errorKind : String) : Tx Unit :=
  updateRow "finish attempt" [(.attempt id, .noKeyUpdate)]
    (fun db => db.attempts.any (·.id = id))
    (fun db => { db with
      attempts := updateWhere (·.id = id)
        (fun a => { a with status := status, errorKind := errorKind }) db.attempts })
    (mapError "finish attempt" .noRows)

/-- Best effort, an error is only logged. -/
def finishAttempt (id : Uuid) (status : AttemptStatus) (errorKind : String) : GatewayM Unit := do
  let _ ← tx (finishAttemptTx id status errorKind)
  pure ()

def reconciliationDeadline : Int := 24 * 3600 * 1000000

variable (requestId : Uuid)

/-- The reservation stays held. -/
def markReconciliation (reason : JobReason) : GatewayM Unit := do
  let at_ ← ask .now
  let jobId ← ask .newId
  let _ ← tx (markReconciliationRequired requestId reason (at_ + reconciliationDeadline) jobId)
  pure ()

def releaseAdmission : GatewayM Unit := do
  let _ ← ask (.release requestId false)
  pure ()

structure AdmissionResult where
  holdMicros : Int
  chargeSource : ChargeSource
deriving DecidableEq

structure Decision where
  record : UsageRecord
  charge : Charge
  reservedMicros : Int
deriving DecidableEq

def Decision.overageMicros (d : Decision) : Int :=
  let charged :=
    match d.charge.money with
    | some m => m.micros
    | none => d.charge.credit
  if charged ≤ d.reservedMicros then 0 else charged - d.reservedMicros

/-- The settle command of a decision; a wallet admission needs a money charge. -/
def Decision.command (d : Decision) (source : ChargeSource) (settledAt : Int)
    (cost : Option (Money × CostBasis)) : Option SettleCommand :=
  let cmd : SettleCommand :=
    { requestId := d.record.requestId, usage := d.record, chargeMicros := d.charge.credit
      walletCharge := none, attemptId := cost.map (fun _ => d.record.attemptId)
      attemptCost := cost.map (fun c => c.1), costBasis := cost.map (fun c => c.2)
      settledAt := settledAt }
  match source with
  | .plan => some cmd
  | .wallet => d.charge.money.map fun m =>
      { cmd with walletCharge := some m, chargeMicros := m.micros }

/-- The transaction of `settleOnce`: the settlement and its overage job. -/
def settlementTx (cmd : SettleCommand) (over_ : Int) (jobId : Uuid) (now : Int) : Tx Unit := do
  Postgres.settle cmd now
  Txn.when (0 < over_)
    (enqueueReconciliationJobTx jobId cmd.requestId .settlementOverage
      (now + reconciliationDeadline))

def settleOnce (cmd : SettleCommand) (over_ : Int) : GatewayM (Except Cause Unit) := do
  let at_ ← ask .now
  let jobId ← ask .newId
  tx (settlementTx cmd over_ jobId at_)

def parkSettleFailure : GatewayM Unit :=
  markReconciliation requestId .unknownUsage

/-- The bounded retry of `settle`; a conflict means somebody else settled. -/
def settleTries (cmd : SettleCommand) (over_ : Int) : Nat → GatewayM Unit
  | 0 => parkSettleFailure cmd.requestId
  | tries + 1 => do
    match ← settleOnce cmd over_ with
    | .ok () => pure ()
    | .error err =>
      if err.code = .conflict then pure ()
      else if tries = 0 then parkSettleFailure cmd.requestId
      else
        match ← check .settleBackoff with
        | .error _ => parkSettleFailure cmd.requestId
        | .ok () => settleTries cmd over_ tries

def settleMaxAttempts : Nat := 3

def settle (requestId attemptId : Uuid) (source : UsageSource) (adm : AdmissionResult) :
    GatewayM Unit := do
  match ← ask .price with
  | .error _ => parkSettleFailure requestId
  | .ok charge => do
    let settledAt ← ask .now
    let cost ← ask .attemptCost
    let d : Decision :=
      { record :=
          { requestId := requestId, attemptId := attemptId, source := source, revision := 0 }
        charge := charge, reservedMicros := adm.holdMicros }
    match d.command adm.chargeSource settledAt (cost.toOption.bind id) with
    | none => parkSettleFailure requestId
    | some cmd => settleTries cmd d.overageMicros settleMaxAttempts

/-- A payload already settled, or the live stream of an attempt. -/
inductive Outcome where
  | payload
  | stream (attemptId : Uuid)
deriving DecidableEq

def onNonStreamDispatch (requestId attemptId : Uuid) (usageReported : Bool)
    (adm : AdmissionResult) : GatewayM Outcome := do
  finishAttempt attemptId .completed ""
  let _ ← tx (updateRequestStatus requestId .nonStreaming "")
  settle requestId attemptId (if usageReported then .reported else .estimated) adm
  pure .payload

def onStreamDispatch (requestId attemptId : Uuid) : GatewayM Outcome := do
  let _ ← tx (updateRequestStatus requestId .streaming "")
  pure (.stream attemptId)

def streamAttemptStatus (report : StreamReport) : AttemptStatus × String :=
  let finish := if report.keeperLost && report.finish = .completed then .upstreamBroke
    else report.finish
  match finish with
  | .completed => (.completed, "")
  | .upstreamBroke => (.failed, "stream_interrupted")
  | .clientGone => (.cancelled, "client_gone")

def finishStream (requestId attemptId : Uuid) (adm : AdmissionResult) : GatewayM Unit := do
  let report ← ask .streamEnd
  finishAttempt attemptId (streamAttemptStatus report).1 (streamAttemptStatus report).2
  if !report.sawUsage && !report.terminal then
    markReconciliation requestId .unknownUsage
  else if report.sawUsage && report.terminal && !report.emptyBuckets then
    settle requestId attemptId .reported adm
  else
    settle requestId attemptId .estimated adm

inductive Protocol where
  | openaiChat
  | openaiResponses
  | anthropicMessages
  | kayaChat
deriving DecidableEq

inductive UpstreamAccountStatus where
  | active
  | refreshing
  | cooldown
  | reauthRequired
  | disabled
deriving DecidableEq

/-- `routing.Candidate`, with what the lease of its account needs. -/
structure Candidate where
  accountId : Uuid
  concurrencyLimit : Int
  protocol : Protocol
deriving DecidableEq

structure Service where
  maxAttempts : Int
  adapters : List Protocol
  egress : Bool
deriving DecidableEq

/-- The steps of the loop.  `observe` is for the record of a visit only. -/
structure Steps (m : Type → Type) (Lease Note : Type) where
  observe : m Note
  newId : m Uuid
  persistAttempt : Candidate → Attempt → m (Except Cause Lease)
  checkLease : Lease → m (Except Cause Unit)
  check : Check → m (Except Cause Unit)
  markDispatching : m (Except Cause Unit)
  send : Uuid → m Exchange
  finishAttempt : Uuid → AttemptStatus → String → m Unit
  releaseLease : Lease → m Unit
  /-- `onStreamDispatch` and `onNonStreamDispatch`. -/
  deliver : Uuid → DispatchResult → m Outcome
  cooldown : Uuid → m Unit
  releaseAdmission : m Unit
  markReconciliation : m Unit

/-- A candidate the loop came to; without an adapter it is passed over. -/
structure Visit (Note : Type) where
  cand : Candidate
  found : Note
  result : Option (Except AttemptError Outcome)

def failedAttemptStatus (de : DispatchError) : AttemptStatus × String :=
  (if de.executedUnknown then .unknown else .failed,
    if de.statusCode ≠ 0 then "http_" ++ toString de.statusCode else "transport")

def persistError (err : Cause) : AttemptError :=
  if err.accountInactive then .dispatch { err := some err, noCooldown := true }
  else if err.code = .insufficientCapacity then .dispatch { err := some err }
  else .domain .internal "gateway: persist attempt"

def maxAttemptsDefault : Nat := 3

def maxAttempts (s : Service) (cands : List Candidate) : Nat :=
  min (if s.maxAttempts ≤ 0 then maxAttemptsDefault else s.maxAttempts.toNat) cands.length

section Loop

variable {m : Type → Type} [Monad m] {Lease Note : Type} (st : Steps m Lease Note)

def dispatch (stream : Bool) (attemptId : Uuid) : m (Except AttemptError DispatchResult) := do
  match ← st.check .buildPayload with
  | .error err => pure (.error (.domain err.code err.text))
  | .ok () =>
    match ← st.check .newRequest with
    | .error _ => pure (.error (.domain .internal "providers: build upstream request"))
    | .ok () =>
      match ← st.check .customHeaders with
      | .error _ =>
        pure (.error (.domain .internal
          "providers: deployment headers violate the gateway boundary"))
      | .ok () => do
        let x ← st.send attemptId
        pure ((readExchange stream x).mapError .dispatch)

/-- The attempt row and the lease end together. -/
def failAttempt (id : Uuid) (lease : Lease) (status : AttemptStatus) (kind : String) : m Unit := do
  st.finishAttempt id status kind
  st.releaseLease lease

/-- A step before the upstream call: its failure closes the attempt under `kind`. -/
def orFail (id : Uuid) (lease : Lease) (kind : String) (probe : m (Except Cause Unit))
    (err : Cause → AttemptError) (rest : m (Except AttemptError Outcome)) :
    m (Except AttemptError Outcome) := do
  match ← probe with
  | .ok () => rest
  | .error cause => do
    failAttempt st id lease .failed kind
    pure (.error (err cause))

def callUpstream (stream : Bool) (id : Uuid) (lease : Lease) :
    m (Except AttemptError Outcome) := do
  match ← dispatch st stream id with
  | .error (.domain code message) => do
    failAttempt st id lease .failed "payload"
    pure (.error (.domain code message))
  | .error (.dispatch de) => do
    failAttempt st id lease (failedAttemptStatus de).1 (failedAttemptStatus de).2
    pure (.error (.dispatch de))
  | .ok result => do
    let outcome ← st.deliver id result
    pure (.ok outcome)

def attemptPersisted (s : Service) (stream : Bool) (id : Uuid) (lease : Lease) :
    m (Except AttemptError Outcome) :=
  orFail st id lease "lease_lost" (st.checkLease lease) (fun err => .dispatch { err := some err }) <|
  orFail st id lease "egress_rejected" (if s.egress then st.check .egress else pure (.ok ()))
    (fun err => .dispatch { err := some err }) <|
  orFail st id lease "credential" (st.check .secret)
    (fun err => .dispatch { err := some err, noCooldown := true }) <|
  orFail st id lease "config" (st.check .extensionHeaders)
    (fun _ => .domain .internal "gateway: deployment config") <|
  orFail st id lease "storage" st.markDispatching
    (fun _ => .domain .internal "gateway: mark dispatching") <|
  callUpstream st stream id lease

def attempt (s : Service) (stream : Bool) (requestId : Uuid) (attemptNo : Nat)
    (cand : Candidate) : m (Except AttemptError Outcome) := do
  let id ← st.newId
  match ← st.persistAttempt cand
      { id := id, requestId := requestId, attemptNo := attemptNo, status := .dispatching
        errorKind := "", cost := none } with
  | .error err => pure (.error (persistError err))
  | .ok lease => attemptPersisted st s stream id lease

def holdForReconciliation : m Err := do
  st.markReconciliation
  pure (.domain .upstreamUnavailable
    "upstream execution state unknown; reservation held for reconciliation")

def releaseAndFail (code : Code) (message : String) : m (Except Err Outcome) := do
  st.releaseAdmission
  pure (.error (.domain code message))

/-- What the loop makes of an attempt: its answer, or the next candidate. -/
def conclude (accountId : Uuid) :
    Except AttemptError Outcome → m (Option (Except Err Outcome))
  | .ok outcome => pure (some (.ok outcome))
  | .error (.domain code message) => do
    let final ← releaseAndFail st code message
    pure (some final)
  | .error (.dispatch de) =>
    if de.executedUnknown then do
      let err ← holdForReconciliation st
      pure (some (.error err))
    else if de.err.any isCanceled then do
      let final ← releaseAndFail st .upstreamUnavailable "caller canceled mid-dispatch"
      pure (some final)
    else if !de.retryable then do
      let final ← releaseAndFail st .upstreamUnavailable "upstream rejected the request"
      pure (some final)
    else if de.err.any (·.code = .insufficientCapacity) || de.noCooldown then
      pure none
    else do
      st.cooldown accountId
      pure none

def dispatchFrom (st : Nat → Steps m Lease Note) (s : Service) (stream : Bool) (requestId : Uuid) :
    List Candidate → Nat → m (List (Visit Note) × Except Err Outcome)
  | [], i => do
    let final ← releaseAndFail (st i) .upstreamUnavailable "all compatible upstreams failed"
    pure ([], final)
  | cand :: cands, i => do
    let found ← (st i).observe
    if cand.protocol ∉ s.adapters then
      let (visits, final) ← dispatchFrom st s stream requestId cands (i + 1)
      pure (⟨cand, found, none⟩ :: visits, final)
    else
      let result ← attempt (st i) s stream requestId (i + 1) cand
      match ← conclude (st i) cand.accountId result with
      | some final => pure ([⟨cand, found, some result⟩], final)
      | none =>
        let (visits, final) ← dispatchFrom st s stream requestId cands (i + 1)
        pure (⟨cand, found, some result⟩ :: visits, final)

/-- The candidates it came to, and its answer; `st i` are the steps at the `i`-th one. -/
def dispatchLoop (st : Nat → Steps m Lease Note) (s : Service) (stream : Bool) (requestId : Uuid)
    (cands : List Candidate) : m (List (Visit Note) × Except Err Outcome) :=
  dispatchFrom st s stream requestId (cands.take (maxAttempts s cands)) 0

end Loop

/-- The steps of a gateway that only the surroundings know the leases of. -/
def gatewaySteps (requestId : Uuid) (adm : AdmissionResult) : Steps GatewayM Unit Unit where
  observe := pure ()
  newId := ask .newId
  persistAttempt _ a := do
    match ← check .acquireLease with
    | .error err => pure (.error err)
    | .ok () => tx (insertAttemptTx a)
  checkLease _ := check .checkLease
  check := check
  markDispatching := tx (updateRequestStatus requestId .dispatching "")
  send attemptId := ask (.send attemptId)
  finishAttempt := finishAttempt
  releaseLease _ := pure ()
  deliver attemptId
    | .stream => onStreamDispatch requestId attemptId
    | .payload reported => onNonStreamDispatch requestId attemptId reported adm
  cooldown accountId := ask (.cooldown accountId)
  releaseAdmission := releaseAdmission requestId
  markReconciliation := markReconciliation requestId .unknownUsage

def serve (s : Service) (stream : Bool) (requestId : Uuid) (adm : AdmissionResult)
    (cands : List Candidate) : GatewayM Unit := do
  match ← dispatchLoop (fun _ => gatewaySteps requestId adm) s stream requestId cands with
  | (_, .ok (.stream attemptId)) => finishStream requestId attemptId adm
  | _ => pure ()

end YunhouUsers.Inference.Gateway
