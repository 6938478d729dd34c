import YunhouUsers.Inference.Credentials.Store

/-!
Candidate selection (`service.go` and `account_pool.go` of `internal/inference/routing`).

The maps of the service are functions, and a missing cursor is zero as in Go. The clock and the
store answer each lookup of the account pool on their own, so a call is given what they answer at
every position of the route list.
-/

namespace YunhouUsers.Inference.Routing

open Credentials (UpstreamAccount)
open Gateway (Protocol Cause)

structure ModelRoute where
  id : Uuid
  deploymentId : Uuid
  enabled : Bool
  capabilities : List String
deriving DecidableEq

structure Deployment where
  id : Uuid
  providerId : Uuid
  protocol : Protocol
  /-- `Status == DeploymentActive`. -/
  active : Bool
deriving DecidableEq

structure Snapshot where
  routesByModel : String → List ModelRoute
  deployments : Uuid → Option Deployment

structure Capabilities where
  tools : Bool
  reasoning : Bool
deriving DecidableEq

structure Needs where
  tools : Bool
  reasoning : Bool
deriving DecidableEq

/-- What `ListActiveUpstreamAccounts` returns: the rows of one provider `ORDER BY id`. -/
structure Pool where
  accounts : List UpstreamAccount
  byId : accounts.Pairwise fun a b => a.id < b.id

structure CachedAccounts where
  pool : Pool
  cachedAt : Int

structure Service where
  adapters : Protocol → Option Capabilities
  cooled : Uuid → Option Int
  rr : Uuid → Nat
  acctCache : Uuid → Option CachedAccounts

structure Candidate where
  route : ModelRoute
  deployment : Deployment
  account : UpstreamAccount
deriving DecidableEq

def accountsCacheTTL : Int := 1000000

def routeCovers (r : ModelRoute) (needs : Needs) : Bool :=
  if r.capabilities.isEmpty then
    true
  else if needs.tools && !r.capabilities.contains "tools" then
    false
  else if needs.reasoning && !r.capabilities.contains "reasoning" then
    false
  else
    true

def quotaExhausted (a : UpstreamAccount) (now : Int) : Bool :=
  match a.quota.remainingMicros with
  | none => false
  | some remaining =>
    if remaining > 0 then
      false
    else
      match a.quota.resetAt with
      | none => true
      | some resetAt => resetAt > now

variable (s : Service)

def Service.cooling (now : Int) (a : UpstreamAccount) : Bool :=
  match s.cooled a.id with
  | none => false
  | some limit => limit > now

def Service.orderAccounts (providerId : Uuid) (accounts : List UpstreamAccount)
    (now : Int) : List UpstreamAccount × Service :=
  let live := accounts.filter fun a => !s.cooling now a
  if live.length ≤ 1 then
    (live, s)
  else
    let start := s.rr providerId % live.length
    (live.rotate start, { s with rr := fun q => if q = providerId then start + 1 else s.rr q })

def Service.orderAccountsWithQuota (providerId : Uuid)
    (accounts : List UpstreamAccount) (now : Int) : List UpstreamAccount × Service :=
  s.orderAccounts providerId
    (accounts.filter fun a => !(decide (a.concurrencyLimit ≤ 0) || quotaExhausted a now)) now

structure Lookup where
  now : Int
  listing : Uuid → Except Cause Pool

def Service.cachedPool (providerId : Uuid) (now : Int) : Option Pool :=
  match s.acctCache providerId with
  | none => none
  | some e => if now - e.cachedAt < accountsCacheTTL then some e.pool else none

def Service.activeAccounts (providerId : Uuid) (fresh : Bool) (look : Lookup) :
    Service × Except Cause Pool :=
  match if fresh then none else s.cachedPool providerId look.now with
  | some pool => (s, .ok pool)
  | none =>
    match look.listing providerId with
    | .error cause => (s, .error cause)
    | .ok pool =>
      ({ s with acctCache := fun q =>
          if q = providerId then some ⟨pool, look.now⟩ else s.acctCache q }, .ok pool)

def Service.invalidateAccounts (providerId : Uuid) : Service :=
  { s with acctCache := fun q => if q = providerId then none else s.acctCache q }

def Service.cool (accountId : Uuid) (limit : Int) : Service :=
  { s with cooled := fun id => if id = accountId then some limit else s.cooled id }

/-- The deployment of a route that takes part in the selection, by the guards at the head of the
loop of `candidates`. -/
def dispatchable (adapters : Protocol → Option Capabilities) (snap : Snapshot) (needs : Needs)
    (route : ModelRoute) : Option Deployment :=
  if !route.enabled || !routeCovers route needs then
    none
  else
    match snap.deployments route.deploymentId with
    | none => none
    | some d =>
      if !d.active then
        none
      else
        match adapters d.protocol with
        | none => none
        | some caps =>
          if (needs.tools && !caps.tools) || (needs.reasoning && !caps.reasoning) then
            none
          else
            some d

/-- One round of the loop of `candidates` that reached the account pool. -/
structure Visit where
  route : ModelRoute
  deployment : Deployment
  accounts : List UpstreamAccount
deriving DecidableEq

def Visit.candidates (v : Visit) : List Candidate :=
  v.accounts.map fun a => ⟨v.route, v.deployment, a⟩

/-- One run of `candidates`: the instant it starts at and the answer to each of its lookups, by the
position of the route. -/
structure Pass where
  now : Int
  look : Nat → Lookup

def Service.visits (snap : Snapshot) (needs : Needs) (fresh : Bool) (pass : Pass) :
    Service → Nat → List ModelRoute → Service × Except Cause (List Visit)
  | s, _, [] => (s, .ok [])
  | s, i, route :: routes =>
    match dispatchable s.adapters snap needs route with
    | none => Service.visits snap needs fresh pass s (i + 1) routes
    | some d =>
      match s.activeAccounts d.providerId fresh (pass.look i) with
      | (s, .error cause) => (s, .error cause)
      | (s, .ok pool) =>
        let ordered := s.orderAccountsWithQuota d.providerId pool.accounts pass.now
        match Service.visits snap needs fresh pass ordered.2 (i + 1) routes with
        | (s, .error cause) => (s, .error cause)
        | (s, .ok rest) => (s, .ok (⟨route, d, ordered.1⟩ :: rest))

structure Call where
  needs : Needs
  pass : Pass
  retry : Pass

/-- `Candidates`, with the routes it went through. An empty result that rests on account pools is
looked up once more past the cache. -/
def Service.select (snap : Snapshot) (modelId : String) (s : Service) (call : Call) :
    Service × Except Cause (List Visit) :=
  match s.visits snap call.needs false call.pass 0 (snap.routesByModel modelId) with
  | (s, .error cause) => (s, .error cause)
  | (s, .ok vs) =>
    if !(vs.flatMap Visit.candidates).isEmpty || vs.isEmpty then
      (s, .ok vs)
    else
      let consulted := vs.map (·.deployment.providerId)
      (consulted.foldl Service.invalidateAccounts s).visits snap call.needs true call.retry 0
        (snap.routesByModel modelId)

def Service.candidates (snap : Snapshot) (modelId : String) (s : Service) (call : Call) :
    Service × Except Cause (List Candidate) :=
  match s.select snap modelId call with
  | (s, .error cause) => (s, .error cause)
  | (s, .ok vs) => (s, .ok (vs.flatMap Visit.candidates))

end YunhouUsers.Inference.Routing
