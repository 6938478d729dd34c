import YunhouUsers.Inference.Gateway.Failover
import YunhouUsers.ReadCommitted.Zoom

/-!
Upstream credentials and the accounts bound to them (`accounts_repo.go` and `oauth_repo.go` of
`internal/inference/postgres`).
-/

namespace YunhouUsers.Inference.Credentials

open ReadCommitted Table
open Gateway (UpstreamAccountStatus)

inductive AuthType where
  | apiKey
  | oauth
  | service
deriving DecidableEq

inductive CredentialStatus where
  | active
  | rotating
  | revoked
deriving DecidableEq

def CredentialStatus.text : CredentialStatus → String
  | .active => "active"
  | .rotating => "rotating"
  | .revoked => "revoked"

def accountStatusText : UpstreamAccountStatus → String
  | .active => "active"
  | .refreshing => "refreshing"
  | .cooldown => "cooldown"
  | .reauthRequired => "reauth_required"
  | .disabled => "disabled"

structure Sealed where
  ciphertext : String
  keyVersion : Int
deriving DecidableEq

structure Credential where
  id : Uuid
  providerId : Uuid
  label : String
  authType : AuthType
  secret : Sealed
  generation : Int
  expiresAt : Option Int
  status : CredentialStatus
  connector : String
deriving DecidableEq

structure UpstreamQuota where
  limitMicros : Option Int := none
  remainingMicros : Option Int := none
  observedAt : Option Int := none
  source : Option String := none
  resetAt : Option Int := none
deriving DecidableEq

structure UpstreamAccount where
  id : Uuid
  providerId : Uuid
  credentialId : Uuid
  externalAccountId : String
  displayName : String
  status : UpstreamAccountStatus
  concurrencyLimit : Int
  quota : UpstreamQuota
deriving DecidableEq

structure Provider where
  id : Uuid
  active : Bool
  selfHosted : Bool
deriving DecidableEq

structure SessionBinding where
  id : Uuid
  accountId : Uuid
  active : Bool
  endedReason : String
deriving DecidableEq

structure OAuthGrant where
  state : String
  connector : String
  providerId : Uuid
  accountLabel : String
  codeVerifier : String
  operatorUserId : String
  operatorAppId : String
  expiresAt : Int
  consumed : Bool
deriving DecidableEq

structure Db where
  credentials : List Credential := []
  accounts : List UpstreamAccount := []
  providers : List Provider := []
  bindings : List SessionBinding := []
  grants : List OAuthGrant := []
  /-- the tables of the request path -/
  store : Postgres.Db := {}

inductive LockKey where
  | credential (id : Uuid)
  | account (id : Uuid)
  | binding (id : Uuid)
  | grant (state : String)
  /-- the advisory lock of `AcquireCredentialRefreshLockTx` -/
  | refresh (credentialId : Uuid)
  | credentialPkey (id : Uuid)
  | accountPkey (id : Uuid)
  | accountPair (providerId credentialId : Uuid)
  | store (key : Postgres.LockKey)
deriving DecidableEq

inductive Stmt where
  | sql (op : String)
  /-- the first read of `MarkReauthRequired`, after the vendor refused a token of `generation` -/
  | getRejected (id : Uuid) (generation : Int)
  /-- a statement of the reauthorization transaction after its re-read -/
  | propagate (id : Uuid)
deriving DecidableEq

inductive Fail where
  | err (e : Err)
  /-- a newer generation is stored, or the credential is revoked -/
  | converged (generation : Int)
  /-- the compare-and-set hit no row -/
  | generationMoved
deriving DecidableEq

abbrev Tx := Txn Db LockKey Stmt Fail

def refuse (code : Code) (message : String) : Fail := .err (.domain code message)

def Db.findCredential (db : Db) (id : Uuid) : Option Credential :=
  db.credentials.find? fun c => c.id = id

def Db.findAccount (db : Db) (id : Uuid) : Option UpstreamAccount :=
  db.accounts.find? fun a => a.id = id

def getCredentialTx (id : Uuid) : Tx Credential := do
  let row ← .query (.sql "get credential (tx)") fun db => db.findCredential id
  .orThrow row (.err (mapError "get credential (tx)" .noRows))

def getCredentialForUpdateTx (id : Uuid) : Tx Credential := do
  let row ← .queryLocking (.sql "get credential for update (tx)")
    (fun db => (db.findCredential id).toList.map fun c => (.credential c.id, .update))
    fun db => db.findCredential id
  .orThrow row (.err (mapError "get credential for update (tx)" .noRows))

def acquireCredentialRefreshLockTx (id : Uuid) : Tx Unit :=
  .queryLocking (.sql "acquire credential refresh lock") (fun _ => [(.refresh id, .update)])
    fun _ => ()

def insertCredentialTx (c : Credential) : Tx Unit :=
  .exec (.sql "insert credential") (fun _ => [(.credentialPkey c.id, .update)])
    (fun _ db => { db with credentials := db.credentials ++ [c] })
    fun view =>
      if (view.findCredential c.id).isSome then
        .error (.err (mapError "insert credential"
          (.uniqueViolation "inference_credentials_pkey")))
      else if !view.providers.any fun p => p.id = c.providerId then
        .error (.err (mapError "insert credential"
          (.foreignKeyViolation "inference_credentials_provider_id_fkey")))
      else .ok ()

def Db.hitsCredential (db : Db) (id : Uuid) (p : Credential → Bool) : Bool :=
  (db.findCredential id).any p

/-- `UPDATE inference_credentials … WHERE id = $1 AND …`; a miss is an error everywhere. -/
def updateCredential (op : String) (id : Uuid) (p : Credential → Bool) (f : Credential → Credential)
    (missed : Fail) : Tx Unit :=
  .exec (.sql op)
    (fun view => if view.hitsCredential id p then [(.credential id, .noKeyUpdate)] else [])
    (fun view db =>
      if view.hitsCredential id p then
        { db with credentials := updateWhere (·.id = id) f db.credentials }
      else db)
    fun view => if view.hitsCredential id p then .ok () else .error missed

def putSecret (secret : Sealed) (c : Credential) : Credential :=
  { c with
    secret := secret
    generation := c.generation + 1 }

def rotateCredentialSecret (id : Uuid) (secret : Sealed) : Tx Unit :=
  updateCredential "rotate credential" id (fun _ => true) (putSecret secret)
    (.err (mapError "rotate credential" .noRows))

def putExpiring (secret : Sealed) (expiresAt : Option Int) (c : Credential) : Credential :=
  { putSecret secret c with expiresAt := expiresAt }

def rotateCredentialSecretCAS (id : Uuid) (secret : Sealed) (expectedGeneration : Int)
    (expiresAt : Option Int) : Tx Unit :=
  updateCredential "rotate credential (cas)" id (·.generation = expectedGeneration)
    (putExpiring secret expiresAt) .generationMoved

def putStatus (status : CredentialStatus) (c : Credential) : Credential :=
  { c with status := status }

def setCredentialStatus (id : Uuid) (status : CredentialStatus) : Tx Unit :=
  updateCredential "set credential status" id (fun _ => true) (putStatus status)
    (.err (mapError "set credential status" .noRows))

/-- The row `FOR SHARE`. -/
def getUpstreamAccountStatusForUpdateTx (id : Uuid) : Tx (Option UpstreamAccountStatus) :=
  .queryLocking (.sql "get upstream account status (tx)")
    (fun db => (db.findAccount id).toList.map fun a => (.account a.id, .share))
    fun db => (db.findAccount id).map fun a => a.status

/-- First constraint of `inference_upstream_accounts` the new row breaks. -/
def accountViolation (a : UpstreamAccount) (view : Db) : Option PgError :=
  if a.concurrencyLimit < 0 then
    some (.checkViolation "inference_upstream_accounts_concurrency_limit_check")
  else if a.quota.limitMicros.any (· < 0) then
    some (.checkViolation "inference_upstream_accounts_quota_limit_micros_check")
  else if a.quota.remainingMicros.any (· < 0) then
    some (.checkViolation "inference_upstream_accounts_quota_remaining_micros_check")
  else if (view.findAccount a.id).isSome then
    some (.uniqueViolation "inference_upstream_accounts_pkey")
  else if view.accounts.any fun b =>
      b.providerId = a.providerId && b.credentialId = a.credentialId then
    some (.uniqueViolation "inference_upstream_accounts_provider_id_credential_id_key")
  else if !view.providers.any fun p => p.id = a.providerId then
    some (.foreignKeyViolation "inference_upstream_accounts_provider_id_fkey")
  else if (view.findCredential a.credentialId).isNone then
    some (.foreignKeyViolation "inference_upstream_accounts_credential_id_fkey")
  else none

def insertUpstreamAccountTx (a : UpstreamAccount) : Tx Unit :=
  .exec (.sql "insert upstream account (tx)")
    (fun _ => [(.accountPkey a.id, .update), (.accountPair a.providerId a.credentialId, .update),
      (.credential a.credentialId, .keyShare)])
    (fun _ db => { db with accounts := db.accounts ++ [a] })
    fun view =>
      match accountViolation a view with
      | some e => .error (.err (mapError "insert upstream account (tx)" e))
      | none => .ok ()

def Db.hitAccounts (db : Db) (p : UpstreamAccount → Bool) : List Uuid :=
  (db.accounts.filter p).map fun a => a.id

variable (stmt : Stmt)

/-- `UPDATE inference_upstream_accounts SET … WHERE … RETURNING id`. -/
def updateAccounts (p : UpstreamAccount → Bool)
    (f : UpstreamAccount → UpstreamAccount) : Tx (List Uuid) :=
  .exec stmt (fun view => (view.hitAccounts p).map fun id => (.account id, .noKeyUpdate))
    (fun view db => { db with
      accounts := updateWhere (fun a => (view.hitAccounts p).contains a.id) f db.accounts })
    fun view => .ok (view.hitAccounts p)

def moveTo (status : UpstreamAccountStatus) (a : UpstreamAccount) : UpstreamAccount :=
  { a with status := status }

/-- `SetUpstreamAccountStatusConditionalTx`, with whether the flip happened. -/
def setUpstreamAccountStatusConditional (id : Uuid) (starts : List UpstreamAccountStatus)
    (to_ : UpstreamAccountStatus) : Tx Bool := do
  let ids ← updateAccounts (.sql "set upstream account status")
    (fun a => a.id = id && starts.contains a.status) (moveTo to_)
  pure !ids.isEmpty

def setUpstreamAccountsStatusByCredentialTx (credentialId : Uuid)
    (starts : List UpstreamAccountStatus) (to_ : UpstreamAccountStatus) : Tx (List Uuid) :=
  updateAccounts stmt (fun a => a.credentialId = credentialId && starts.contains a.status)
    (moveTo to_)

def disableUpstreamAccountsByCredentialTx (credentialId : Uuid) : Tx (List Uuid) :=
  updateAccounts (.sql "disable upstream accounts")
    (fun a => a.credentialId = credentialId && a.status ≠ .disabled) (moveTo .disabled)

def putProfile (displayName : Option String) (concurrencyLimit : Option Int)
    (a : UpstreamAccount) : UpstreamAccount :=
  { a with
    displayName := displayName.getD a.displayName
    concurrencyLimit := concurrencyLimit.getD a.concurrencyLimit }

def updateUpstreamAccountProfileTx (id : Uuid) (displayName : Option String)
    (concurrencyLimit : Option Int) : Tx Unit := do
  let ids ← updateAccounts (.sql "update upstream account profile") (·.id = id)
    (putProfile displayName concurrencyLimit)
  .require (!ids.isEmpty) (.err (mapError "update upstream account profile" .noRows))

def observe (q : UpstreamQuota) (a : UpstreamAccount) : UpstreamAccount :=
  { a with quota :=
      { limitMicros := q.limitMicros.or a.quota.limitMicros
        remainingMicros := q.remainingMicros.or a.quota.remainingMicros
        observedAt := q.observedAt.or a.quota.observedAt
        source := q.source.or a.quota.source
        resetAt := q.resetAt.or a.quota.resetAt } }

/-- An older observation never overwrites a newer one. -/
def observable (q : UpstreamQuota) (a : UpstreamAccount) : Bool :=
  match q.observedAt, a.quota.observedAt with
  | some new, some old => old ≤ new
  | some _, none => true
  | none, known => known.isNone

def updateUpstreamAccountQuota (id : Uuid) (q : UpstreamQuota) : Tx Bool := do
  let ids ← updateAccounts (.sql "update upstream account quota")
    (fun a => a.id = id && observable q a) (observe q)
  pure !ids.isEmpty

def bindingEndedAccountInvalid : String := "account_invalid"

def endBinding (reason : String) (b : SessionBinding) : SessionBinding :=
  { b with
    active := false
    endedReason := reason }

def Db.hitBindings (db : Db) (p : Db → SessionBinding → Bool) : List Uuid :=
  (db.bindings.filter (p db)).map fun b => b.id

/-- `UPDATE inference_session_bindings SET status = 'ended' … RETURNING id`. -/
def endBindings (p : Db → SessionBinding → Bool) (reason : String) : Tx (List Uuid) :=
  .exec stmt (fun view => (view.hitBindings p).map fun id => (.binding id, .noKeyUpdate))
    (fun view db => { db with
      bindings := updateWhere (fun b => (view.hitBindings p).contains b.id) (endBinding reason)
        db.bindings })
    fun view => .ok (view.hitBindings p)

def endSessionBindingsForAccountTx (accountId : Uuid) (reason : String) : Tx (List Uuid) :=
  endBindings stmt (fun _ b => b.accountId = accountId && b.active) reason

def endSessionBindingsForCredentialTx (credentialId : Uuid) (reason : String) : Tx (List Uuid) :=
  endBindings (.sql "end session bindings for credential")
    (fun view b => b.active &&
      view.accounts.any fun a => a.id = b.accountId && a.credentialId = credentialId) reason

def OAuthGrant.usable (state : String) (now : Int) (g : OAuthGrant) : Bool :=
  g.state = state && !g.consumed && now < g.expiresAt

/-- One use, before it expires. -/
def consumeOAuthGrant (state : String) (now : Int) : Tx OAuthGrant :=
  .exec (.sql "consume oauth grant") (fun _ => [(.grant state, .noKeyUpdate)])
    (fun _ db => { db with
      grants := updateWhere (OAuthGrant.usable state now) (fun g => { g with consumed := true })
        db.grants })
    fun view =>
      match view.grants.find? (OAuthGrant.usable state now) with
      | some g => .ok g
      | none => .error (refuse .conflict "oauth state is unknown, consumed or expired")

def onStore {α : Type} (t : Postgres.Tx α) : Tx α :=
  t.zoom (·.store) (fun s db => { db with store := s }) .store .sql .err

end YunhouUsers.Inference.Credentials
