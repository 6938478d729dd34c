import YunhouUsers.Inference.Credentials.Store

/-!
The operator's side of credentials and accounts (`service.go`, `accounts.go` and `oauth.go` of
`internal/inference/credentials`), and the transaction that takes an account into use.

Every change commits with its audit row; the rows of the audit table are left out.
-/

namespace YunhouUsers.Inference.Credentials

open ReadCommitted
open Gateway (UpstreamAccountStatus Candidate)
open Gateway.Failover (Weather)

structure Vault where
  encrypt : Uuid → Uuid → String → Option Sealed
  decrypt : Uuid → Uuid → Sealed → Option String

structure OAuthBundle where
  accessToken : String
  refreshToken : String
  tokenType : String
  obtainedAt : Int
deriving DecidableEq

structure TokenSet where
  accessToken : String
  refreshToken : String
  tokenType : String
  expiry : Option Int
  externalAccountId : String
deriving DecidableEq

inductive ErrorKind where
  | reauthRequired
  | retryable
  | misconfigured
  | invalidResponse
deriving DecidableEq

structure Service where
  vault : Option Vault
  marshalBundle : OAuthBundle → String
  unmarshalBundle : String → Option OAuthBundle
  /-- the connectors of the registry -/
  registry : String → Bool

structure View where
  id : Uuid
  providerId : Uuid
  label : String
  authType : AuthType
  status : CredentialStatus
  keyVersion : Int
  generation : Int
  expiresAt : Option Int
deriving DecidableEq

def toView (c : Credential) : View :=
  { id := c.id, providerId := c.providerId, label := c.label, authType := c.authType
    status := c.status, keyVersion := c.secret.keyVersion, generation := c.generation
    expiresAt := c.expiresAt }

structure RefreshOutcome where
  credentialId : Uuid
  rotated : Bool := false
  converged : Bool := false
  reauthRequired : Bool := false
  generation : Int
deriving DecidableEq

inductive Reply where
  | credential (v : View)
  | account (a : UpstreamAccount)
  /-- `AccountExistsError` -/
  | accountExists (existing : UpstreamAccount)
  | callback (v : View) (accountId : Uuid)
  | refreshed (o : RefreshOutcome)
  /-- a probe, with the outcome of the refresh it asked for -/
  | probed (o : Option RefreshOutcome)
  | lease (l : ConcurrencyLease)
  | failed (e : Err)
deriving DecidableEq

abbrev Program := Proc Db LockKey Stmt Reply

def fail (code : Code) (message : String) : Program := .done (.failed (.domain code message))

/-- Go's `if !ok { return nil, err }` before a transaction. -/
def demand (ok : Bool) (code : Code) (message : String) (p : Program) : Program :=
  if ok then p else fail code message

def read {α : Type} (stmt : Stmt) (f : Db → α) (k : α → Program) : Program :=
  .stmt stmt (fun _ => []) (fun _ db => db) fun view => k (f view)

def readRow {α : Type} (op : String) (f : Db → Option α) (k : α → Program) : Program :=
  read (.sql op) f fun
    | some row => k row
    | none => .done (.failed (mapError op .noRows))

def getCredential (id : Uuid) (k : Credential → Program) : Program :=
  readRow "get credential" (fun db => db.findCredential id) k

def Reply.ofFail : Fail → Reply
  | .err e => .failed e
  | .converged _ => .failed (.domain .conflict "credential generation moved during refresh")
  | .generationMoved => .failed (.domain .conflict "credential generation moved during refresh")

def runAtomic {α : Type} (t : Tx α) (reply : α → Reply) : Program :=
  t.inTx fun
    | .ok a => .done (reply a)
    | .error e => .done (.ofFail e)

structure CreateCredentialInput where
  /-- what `newID` draws -/
  newId : Uuid
  providerId : Option Uuid
  label : String
  /-- `none` is any other text -/
  authType : Option AuthType
  plaintext : String
  expiresAt : Option Int

variable (svc : Service)

def createCredential (i : CreateCredentialInput) : Program :=
  match svc.vault, i.providerId, i.authType with
  | none, _, _ => fail .internal "credential vault not configured"
  | _, none, _ => fail .invalidInput "provider_id is required"
  | _, _, none => fail .invalidInput "auth_type must be api_key, oauth or service"
  | some vault, some providerId, some authType =>
    demand (i.plaintext ≠ "") .invalidInput "secret is required" <|
      match vault.encrypt i.newId providerId i.plaintext with
      | none => fail .internal "encrypt credential"
      | some secret =>
        let cred : Credential :=
          { id := i.newId, providerId := providerId, label := i.label, authType := authType
            secret := secret, generation := 1, expiresAt := i.expiresAt, status := .active
            connector := "" }
        runAtomic (insertCredentialTx cred) fun _ => .credential (toView cred)

/-- The view repeats the bump of the statement. -/
def rotate (id : Uuid) (newPlaintext : String) : Program :=
  match svc.vault with
  | none => fail .internal "credential vault not configured"
  | some vault =>
    demand (newPlaintext ≠ "") .invalidInput "secret is required" <|
      getCredential id fun cred =>
        demand (cred.status ≠ .revoked) .conflict "credential is disabled" <|
          match vault.encrypt id cred.providerId newPlaintext with
          | none => fail .internal "encrypt credential"
          | some secret =>
            runAtomic (rotateCredentialSecret id secret) fun _ =>
              .credential (toView (putSecret secret cred))

def setStatusBody (id : Uuid) (status : CredentialStatus) : Tx Unit := do
  setCredentialStatus id status
  .when (status = .revoked) do
    let _ ← disableUpstreamAccountsByCredentialTx id
    let _ ← endSessionBindingsForCredentialTx id bindingEndedAccountInvalid

/-- A status of `none` is any other text. -/
def setStatus (id : Uuid) (status : Option CredentialStatus) : Program :=
  match status with
  | none => fail .invalidInput "status must be active, rotating or revoked"
  | some status =>
    getCredential id fun cred =>
      runAtomic (setStatusBody id status) fun _ => .credential (toView (putStatus status cred))

def maxConcurrencyLimit : Int := 128

def concurrencyLimitError (n : Int) : Option String :=
  if n < 0 then some "concurrency_limit must be >= 0"
  else if maxConcurrencyLimit < n then
    some ("concurrency_limit must be <= " ++ toString maxConcurrencyLimit ++
      " (per-account in-flight ceiling for one upstream credential; a huge value disables " ++
      "per-account concurrency control)")
  else none

def reasonError (reason : String) : Option String :=
  if reason = "" then some "reason is required"
  else if 200 < reason.utf8ByteSize then some "reason must be at most 200 characters"
  else none

def displayNameError (name : String) : Option String :=
  if 128 < name.utf8ByteSize then some "display_name must be at most 128 characters" else none

structure CreateAccountInput where
  providerId : Option Uuid
  credentialId : Option Uuid
  displayName : String
  concurrencyLimit : Option Int
  quotaLimitMicros : Option Int
  quotaRemainingMicros : Option Int
  quotaResetAt : Option Int
  reason : String

variable (i : CreateAccountInput)

def statedQuota (now : Int) : Except String UpstreamQuota :=
  match i.quotaLimitMicros, i.quotaRemainingMicros, i.quotaResetAt with
  | none, none, none => .ok {}
  | some limit, some remaining, resetAt =>
    if limit < 0 ∨ remaining < 0 then .error "quota values must be >= 0"
    else .ok { limitMicros := some limit, remainingMicros := some remaining
               observedAt := some now, source := some "reported", resetAt := resetAt }
  | _, _, _ => .error "quota_limit_micros and quota_remaining_micros must be provided together"

def createAccountInput (now : Int) : Except String (Uuid × Uuid × UpstreamQuota) :=
  match i.providerId, i.credentialId with
  | none, _ => .error "provider_id is required"
  | _, none => .error "credential_id is required"
  | some providerId, some credentialId =>
    match reasonError i.reason, displayNameError i.displayName,
        i.concurrencyLimit.bind concurrencyLimitError with
    | some text, _, _ => .error text
    | _, some text, _ => .error text
    | _, _, some text => .error text
    | none, none, none => (statedQuota i now).map fun quota => (providerId, credentialId, quota)

variable (account : UpstreamAccount)

def createAccountBody : Tx Unit := do
  let fresh ← getCredentialForUpdateTx account.credentialId
  .require (fresh.status = .active)
    (refuse .conflict ("credential is not active (" ++ fresh.status.text ++ ")"))
  insertUpstreamAccountTx account

def Err.isConflict : Err → Bool
  | .domain code _ => code = .conflict
  | _ => false

def createConflictView (providerId credentialId : Uuid) (e : Err) : Program :=
  if Err.isConflict e then
    read (.sql "get upstream account by pair")
      (fun db => db.accounts.find? fun a =>
        a.providerId = providerId && a.credentialId = credentialId) fun
      | some existing => .done (.accountExists existing)
      | none => .done (.failed e)
  else .done (.failed e)

def createAccount (newId : Uuid) (now : Int) : Program :=
  match createAccountInput i now with
  | .error text => fail .invalidInput text
  | .ok (providerId, credentialId, quota) =>
    readRow "get provider" (fun db => db.providers.find? fun p => p.id = providerId) fun prov =>
      demand prov.active .conflict "provider is disabled" <|
        getCredential credentialId fun cred =>
          demand (cred.providerId = providerId) .invalidInput
              "credential does not belong to provider" <|
            demand (cred.authType ≠ .oauth) .invalidInput
                ("oauth credentials are bound to accounts by the authorization flow, " ++
                  "not manually") <|
              demand (cred.status = .active) .conflict
                  ("credential is not active (" ++ cred.status.text ++ ")") <|
                let account : UpstreamAccount :=
                  { id := newId, providerId := providerId, credentialId := credentialId
                    externalAccountId := ""
                    displayName := if i.displayName = "" then cred.label else i.displayName
                    status := .active, concurrencyLimit := i.concurrencyLimit.getD 1
                    quota := quota }
                (createAccountBody account).inTx fun
                  | .ok () => .done (.account account)
                  | .error (.err e) => createConflictView providerId credentialId e
                  | .error e => .done (.ofFail e)

def assertCredentialActiveTx (credentialId : Uuid) : Tx Unit := do
  let fresh ← getCredentialForUpdateTx credentialId
  .require (fresh.status ≠ .revoked) (refuse .conflict
    "credential is revoked; restore the credential before reactivating its account")

def activateBody : Tx Unit := do
  assertCredentialActiveTx account.credentialId
  let flipped ← setUpstreamAccountStatusConditional account.id [.disabled] .active
  .require flipped (refuse .conflict "account status changed concurrently; retry")

def disableBody : Tx Unit := do
  let flipped ← setUpstreamAccountStatusConditional account.id
    [.active, .refreshing, .cooldown, .reauthRequired] .disabled
  .require flipped (refuse .conflict "account status changed concurrently; retry")
  let _ ← endSessionBindingsForAccountTx (.sql "end session bindings for account") account.id
    bindingEndedAccountInvalid

/-- `AccountService.SetStatus`; `to_` of `none` is any other text.  Without a change only an
audit row is written, after the same look at the credential. -/
def setAccountStatus (id : Uuid) (to_ : Option UpstreamAccountStatus) (reason : String) :
    Program :=
  demand (to_ = some .active || to_ = some .disabled) .invalidInput
      "status must be active or disabled" <|
    match reasonError reason with
    | some text => fail .invalidInput text
    | none =>
      readRow "get upstream account" (fun db => db.findAccount id) fun account =>
        if to_ = some .active then
          getCredential account.credentialId fun cred =>
            demand (cred.status ≠ .revoked) .conflict
                "credential is revoked; restore the credential before reactivating its account" <|
              if account.status = .active then
                runAtomic (assertCredentialActiveTx account.credentialId) fun _ => .account account
              else
                demand (account.status = .disabled) .conflict
                    ("account status " ++ accountStatusText account.status ++
                      " is managed by the runtime state machine") <|
                  runAtomic (activateBody account) fun _ => .account (moveTo .active account)
        else if account.status = .disabled then .done (.account account)
        else runAtomic (disableBody account) fun _ => .account (moveTo .disabled account)

def updateAccount (id : Uuid) (displayName : Option String) (concurrencyLimit : Option Int)
    (reason : String) : Program :=
  demand (displayName.isSome || concurrencyLimit.isSome) .invalidInput
      "at least one of display_name, concurrency_limit is required" <|
    match reasonError reason, displayName.bind displayNameError,
        concurrencyLimit.bind concurrencyLimitError with
    | some text, _, _ => fail .invalidInput text
    | _, some text, _ => fail .invalidInput text
    | _, _, some text => fail .invalidInput text
    | none, none, none =>
      readRow "get upstream account" (fun db => db.findAccount id) fun account =>
        runAtomic (updateUpstreamAccountProfileTx id displayName concurrencyLimit) fun _ =>
          .account (putProfile displayName concurrencyLimit account)

structure CallbackCall where
  userId : String
  appId : String
  state : String
  code : String
  now : Int
  /-- `ExchangeCode`, by the code and the verifier of the grant -/
  exchange : String → String → Except ErrorKind TokenSet
  newCredentialId : Uuid
  newAccountId : Uuid

def callbackBody (cred : Credential) (account : UpstreamAccount) : Tx Unit := do
  insertCredentialTx cred
  insertUpstreamAccountTx account

def completeCallback (vault : Vault) (call : CallbackCall) (grant : OAuthGrant) : Program :=
  demand (grant.operatorUserId = call.userId && grant.operatorAppId = call.appId) .conflict
      "oauth state is bound to a different operator" <|
    demand (svc.registry grant.connector) .internal
        ("oauth connector " ++ grant.connector ++ " no longer configured") <|
      match call.exchange call.code grant.codeVerifier with
      | .error _ => fail .upstreamUnavailable "oauth code exchange failed"
      | .ok ts =>
        let bundle : OAuthBundle :=
          { accessToken := ts.accessToken, refreshToken := ts.refreshToken
            tokenType := ts.tokenType, obtainedAt := call.now }
        match vault.encrypt call.newCredentialId grant.providerId (svc.marshalBundle bundle) with
        | none => fail .internal "encrypt oauth bundle"
        | some secret =>
          let cred : Credential :=
            { id := call.newCredentialId, providerId := grant.providerId
              label := grant.accountLabel, authType := .oauth, secret := secret, generation := 1
              expiresAt := ts.expiry, status := .active, connector := grant.connector }
          let account : UpstreamAccount :=
            { id := call.newAccountId, providerId := grant.providerId
              credentialId := call.newCredentialId, externalAccountId := ts.externalAccountId
              displayName := grant.accountLabel, status := .active, concurrencyLimit := 1
              quota := {} }
          runAtomic (callbackBody cred account) fun _ => .callback (toView cred) account.id

def handleCallback (call : CallbackCall) : Program :=
  match svc.vault with
  | none => fail .internal "credential vault not configured"
  | some vault =>
    demand (call.state ≠ "" && call.code ≠ "") .invalidInput "state and code are required" <|
      (consumeOAuthGrant call.state call.now).inTx fun
        | .error e => .done (.ofFail e)
        | .ok grant => completeCallback svc vault call grant

structure DispatchCall where
  gateway : Gateway.Failover.Service
  candidate : Candidate
  attempt : Attempt
  weather : Weather

/-- The gateway takes the account into use. -/
def takeIntoUse (call : DispatchCall) : Tx ConcurrencyLease :=
  Gateway.Failover.persistAttempt .err
    (getUpstreamAccountStatusForUpdateTx call.candidate.accountId) onStore call.gateway
    call.candidate call.attempt call.weather

end YunhouUsers.Inference.Credentials
