import YunhouUsers.Inference.Credentials.Lifecycle

/-!
Refreshing OAuth credentials (`credentials/refresh.go`) and the health worker's probes
(`workers/upstream_health.go`).

The vendor is called without a lock; its answer is a function of the token it is shown.
-/

namespace YunhouUsers.Inference.Credentials

open ReadCommitted

structure RefreshCall where
  now : Int
  /-- `client.RefreshToken` -/
  refreshToken : String → Except ErrorKind TokenSet

def orElse (v fallback : String) : String := if v ≠ "" then v else fallback

def renewed (bundle : OAuthBundle) (ts : TokenSet) (now : Int) : OAuthBundle :=
  { accessToken := ts.accessToken
    refreshToken := orElse ts.refreshToken bundle.refreshToken
    tokenType := orElse ts.tokenType bundle.tokenType
    obtainedAt := now }

/-- The write phase: lock, re-read, compare-and-set. -/
def refreshBody (id : Uuid) (g0 : Int) (secret : Sealed) (expiry : Option Int) : Tx Unit := do
  acquireCredentialRefreshLockTx id
  let current ← getCredentialTx id
  .require (current.generation = g0) (.converged current.generation)
  .require (current.status ≠ .revoked) (refuse .conflict "credential disabled during refresh")
  rotateCredentialSecretCAS id secret g0 expiry

def endAllBindings (id : Uuid) : List Uuid → Tx Unit
  | [] => pure ()
  | accountId :: rest => do
    let _ ← endSessionBindingsForAccountTx (.propagate id) accountId bindingEndedAccountInvalid
    endAllBindings id rest

def markBody (id : Uuid) (g0 : Int) : Tx Unit := do
  acquireCredentialRefreshLockTx id
  let current ← getCredentialTx id
  .require (current.generation = g0 && current.status ≠ .revoked) (.converged current.generation)
  let accountIds ← setUpstreamAccountsStatusByCredentialTx (.propagate id) id
    [.active, .refreshing, .cooldown] .reauthRequired
  endAllBindings id accountIds

def markReauthRequired (cred : Credential) (k : Except Err RefreshOutcome → Program) : Program :=
  (markBody cred.id cred.generation).inTx fun
    | .ok () => k (.ok { credentialId := cred.id, reauthRequired := true
                         generation := cred.generation })
    | .error (.converged g) => k (.ok { credentialId := cred.id, converged := true, generation := g })
    | .error (.err e) => k (.error e)
    | .error .generationMoved => k (.error (.domain .conflict "credential generation moved"))

/-- A credential read outside a transaction, for one who handles the error. -/
def lookUpCredential (stmt : Stmt) (id : Uuid) (k : Except Err Credential → Program) : Program :=
  read stmt (fun db => db.findCredential id) fun
    | some cred => k (.ok cred)
    | none => k (.error (mapError "get credential" .noRows))

/-- The transaction after a successful answer; who loses the compare-and-set reads the newer
row. -/
def storeRefreshed (cred : Credential) (secret : Sealed) (expiry : Option Int)
    (k : Except Err RefreshOutcome → Program) : Program :=
  (refreshBody cred.id cred.generation secret expiry).inTx fun
    | .ok () => k (.ok { credentialId := cred.id, rotated := true
                         generation := cred.generation + 1 })
    | .error (.converged g) => k (.ok { credentialId := cred.id, converged := true, generation := g })
    | .error (.err e) => k (.error e)
    | .error .generationMoved =>
      lookUpCredential (.sql "get credential") cred.id fun
        | .error e => k (.error e)
        | .ok latest => k (.ok { credentialId := cred.id, converged := true
                                 generation := latest.generation })

def expired (cred : Credential) (now : Int) : Bool := cred.expiresAt.any (· ≤ now)

variable (svc : Service)

def refreshWith (vault : Vault) (call : RefreshCall) (cred : Credential)
    (bundle : OAuthBundle) (k : Except Err RefreshOutcome → Program) : Program :=
  if bundle.refreshToken = "" then
    if expired cred call.now then markReauthRequired cred k
    else k (.ok { credentialId := cred.id, generation := cred.generation })
  else if !svc.registry cred.connector then
    k (.error (.domain .internal ("oauth connector " ++ cred.connector ++ " not configured")))
  else
    match call.refreshToken bundle.refreshToken with
    | .error .reauthRequired => markReauthRequired cred k
    | .error .misconfigured => k (.error (.domain .invalidInput
        "oauth refresh rejected by vendor (connector misconfigured)"))
    | .error _ => k (.error (.domain .upstreamUnavailable "oauth refresh request failed"))
    | .ok ts =>
      match vault.encrypt cred.id cred.providerId
          (svc.marshalBundle (renewed bundle ts call.now)) with
      | none => k (.error (.domain .internal "encrypt oauth bundle"))
      | some secret => storeRefreshed cred secret ts.expiry k

def refreshCredential (call : RefreshCall) (id : Uuid)
    (k : Except Err RefreshOutcome → Program) : Program :=
  match svc.vault with
  | none => k (.error (.domain .internal "credential vault not configured"))
  | some vault =>
    lookUpCredential (.sql "get credential") id fun
      | .error e => k (.error e)
      | .ok cred =>
        if cred.authType ≠ .oauth then
          k (.error (.domain .invalidInput "only oauth credentials refresh through a connector"))
        else if cred.status = .revoked then
          k (.error (.domain .conflict "credential is disabled"))
        else
          match vault.decrypt cred.id cred.providerId cred.secret with
          | none => k (.error (.domain .internal "credential decrypt failed"))
          | some plain =>
            match svc.unmarshalBundle plain with
            | none => k (.error (.domain .internal "oauth bundle unparsable"))
            | some bundle => refreshWith svc vault call cred bundle k

/-- `MarkReauthRequired`, after the vendor refused a token of generation `rejected`. -/
def markReauthRequiredOutside (id : Uuid) (rejected : Int)
    (k : Except Err RefreshOutcome → Program) : Program :=
  lookUpCredential (.getRejected id rejected) id fun
    | .error e => k (.error e)
    | .ok cred =>
      if cred.authType ≠ .oauth then
        k (.error (.domain .invalidInput "only oauth credentials reauth through a connector"))
      else if cred.status = .revoked then
        k (.ok { credentialId := id, converged := true, generation := cred.generation })
      else markReauthRequired cred k

structure ProbeCall extends RefreshCall where
  accountId : Uuid
  /-- the account cools down since long enough -/
  cooldownDue : Bool
  /-- `client.Health`, by the access token -/
  health : String → Except ErrorKind Unit
  /-- `client.Quota`; `none` is a failed or an empty answer -/
  quota : String → Option UpstreamQuota
  /-- `service.Check`, by the secret; `none` when no deployment is active -/
  check : Option (String → Except ErrorKind Unit)

def autocommit {α : Type} (t : Tx α) (k : Program) : Program := t.inTx fun _ => k

variable (a : UpstreamAccount)

def onHealthy (k : Program) : Program :=
  if a.status = .active then k
  else autocommit (setUpstreamAccountStatusConditional a.id [.cooldown, .refreshing] .active) k

def onRetryableFailure (k : Program) : Program :=
  if a.status ≠ .active then k
  else autocommit (setUpstreamAccountStatusConditional a.id [.active] .cooldown) k

def observeQuota (call : ProbeCall) (a : UpstreamAccount) (accessToken : String) (k : Program) :
    Program :=
  match call.quota accessToken with
  | none => k
  | some q => autocommit (updateUpstreamAccountQuota a.id { q with source := some "reported" }) k

/-- After a 401: whoever still has a refresh token uses it, and otherwise the authorization is
over. -/
def afterRejection (call : ProbeCall) (a : UpstreamAccount) (cred : Credential) : Program :=
  refreshCredential svc call.toRefreshCall cred.id fun
    | .error _ => onRetryableFailure a (.done (.probed none))
    | .ok o =>
      if o.reauthRequired then .done (.probed (some o))
      else if o.rotated || o.converged then onHealthy a (.done (.probed (some o)))
      else
        markReauthRequiredOutside cred.id cred.generation fun
          | .error _ => .done (.probed none)
          | .ok o =>
            if o.reauthRequired then .done (.probed (some o))
            else onHealthy a (.done (.probed (some o)))

def probeOAuth (call : ProbeCall) (a : UpstreamAccount) (cred : Credential) : Program :=
  if !svc.registry cred.connector then .done (.probed none)
  else
    match svc.vault.bind fun vault =>
        (vault.decrypt cred.id cred.providerId cred.secret).bind svc.unmarshalBundle with
    | none => .done (.probed none)
    | some bundle =>
      match call.health bundle.accessToken with
      | .ok () =>
        onHealthy a (observeQuota call a bundle.accessToken (.done (.probed none)))
      | .error .reauthRequired => afterRejection svc call a cred
      | .error _ => onRetryableFailure a (.done (.probed none))

/-- `markAccountReauth`: who finds the account already handled rolls back. -/
def markAccountReauthBody : Tx Unit := do
  let flipped ← setUpstreamAccountStatusConditional a.id [.active, .cooldown, .refreshing]
    .reauthRequired
  .require flipped (refuse .conflict "already handled")
  let _ ← endSessionBindingsForAccountTx (.sql "end session bindings for account") a.id
    bindingEndedAccountInvalid

def probeStatic (call : ProbeCall) (a : UpstreamAccount) (cred : Credential) : Program :=
  read (.sql "get provider") (fun db => db.providers.find? fun p => p.id = a.providerId) fun prov =>
    if !prov.any (·.selfHosted) then .done (.probed none)
    else
      match svc.vault.bind fun vault => vault.decrypt cred.id cred.providerId cred.secret,
          call.check with
      | none, _ => .done (.probed none)
      | _, none => .done (.probed none)
      | some plain, some check =>
        match check plain with
        | .ok () => onHealthy a (.done (.probed none))
        | .error .reauthRequired => autocommit (markAccountReauthBody a) (.done (.probed none))
        | .error _ => onRetryableFailure a (.done (.probed none))

def ProbeCall.lists (call : ProbeCall) (a : UpstreamAccount) : Bool :=
  a.status = .active || a.status = .cooldown && call.cooldownDue || a.status = .refreshing

def probe (call : ProbeCall) : Program :=
  read (.sql "list accounts for health")
    (fun db => (db.findAccount call.accountId).filter call.lists) fun
    | none => .done (.probed none)
    | some a =>
      lookUpCredential (.sql "get credential") a.credentialId fun
        | .error _ => .done (.probed none)
        | .ok cred =>
          if cred.status = .revoked then
            autocommit (setUpstreamAccountStatusConditional a.id [.active, .cooldown, .refreshing]
              .disabled) (.done (.probed none))
          else if cred.authType = .oauth then probeOAuth svc call a cred
          else probeStatic svc call a cred

inductive Call where
  | createCredential (i : CreateCredentialInput)
  | rotate (id : Uuid) (newPlaintext : String)
  | setStatus (id : Uuid) (status : Option CredentialStatus)
  | createAccount (i : CreateAccountInput) (newId : Uuid) (now : Int)
  | setAccountStatus (id : Uuid) (to_ : Option Gateway.UpstreamAccountStatus)
      (reason : String)
  | updateAccount (id : Uuid) (displayName : Option String) (concurrencyLimit : Option Int)
      (reason : String)
  | callback (c : CallbackCall)
  | refresh (c : RefreshCall) (id : Uuid)
  | markReauthRequired (id : Uuid) (rejected : Int)
  | probe (c : ProbeCall)
  | dispatch (c : DispatchCall)

def Reply.ofRefresh : Except Err RefreshOutcome → Reply
  | .ok o => .refreshed o
  | .error e => .failed e

def Call.program : Call → Program
  | .createCredential i => Credentials.createCredential svc i
  | .rotate id newPlaintext => Credentials.rotate svc id newPlaintext
  | .setStatus id status => Credentials.setStatus id status
  | .createAccount i newId now => Credentials.createAccount i newId now
  | .setAccountStatus id to_ reason => Credentials.setAccountStatus id to_ reason
  | .updateAccount id displayName concurrencyLimit reason =>
    Credentials.updateAccount id displayName concurrencyLimit reason
  | .callback c => handleCallback svc c
  | .refresh c id => refreshCredential svc c id fun r => .done (.ofRefresh r)
  | .markReauthRequired id rejected =>
    markReauthRequiredOutside id rejected fun r => .done (.ofRefresh r)
  | .probe c => Credentials.probe svc c
  | .dispatch c => runAtomic (takeIntoUse c) .lease

def elsewhere (f : Db → Db) (db : Db) : Db :=
  { f db with
    credentials := db.credentials
    accounts := db.accounts }

end YunhouUsers.Inference.Credentials
