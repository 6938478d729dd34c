/-!
Rows and errors of the inference store (`internal/inference/domain`, migrations 025,
026, 030, 031, 036, 041 and 043).

UUIDs are natural numbers, instants are microseconds since the epoch (the resolution of
a `timestamptz`), micro-credits and micro-money are integers: `BIGINT` arithmetic out of
range is an error in PostgreSQL and rolls back like any other.
-/

namespace YunhouUsers.Inference

abbrev Uuid := Nat

inductive WindowKind where
  | fiveHour
  | weekly
  | monthly
deriving DecidableEq

def windowOrder : List WindowKind := [.fiveHour, .weekly, .monthly]

inductive TargetKind where
  | windowFiveHour
  | windowWeekly
  | windowMonthly
  | keyBudget
  | wallet
deriving DecidableEq

inductive ReservationState where
  | held
  | settled
  | released
deriving DecidableEq

inductive RequestStatus where
  | authenticated
  | reserved
  | dispatching
  | streaming
  | nonStreaming
  | settling
  | settled
  | released
  | reconciliationRequired
  | failed
deriving DecidableEq

def RequestStatus.text : RequestStatus → String
  | .authenticated => "authenticated"
  | .reserved => "reserved"
  | .dispatching => "dispatching"
  | .streaming => "streaming"
  | .nonStreaming => "non_streaming"
  | .settling => "settling"
  | .settled => "settled"
  | .released => "released"
  | .reconciliationRequired => "reconciliation_required"
  | .failed => "failed"

inductive AccountStatus where
  | active
  | suspended
  | closed
deriving DecidableEq

def AccountStatus.text : AccountStatus → String
  | .active => "active"
  | .suspended => "suspended"
  | .closed => "closed"

inductive ChargeSource where
  | plan
  | wallet
deriving DecidableEq

/-- `usage_status`: a request starts at `pending`, a usage record is never `pending`. -/
inductive UsageSource where
  | pending
  | reported
  | estimated
  | unknown
deriving DecidableEq

inductive EntryType where
  | charge
  | reversal
  | adjustment
deriving DecidableEq

inductive Direction where
  | credit
  | debit
deriving DecidableEq

inductive LedgerUnit where
  | microcredit
  | micromoney
deriving DecidableEq

inductive JobStatus where
  | pending
  | running
  | resolved
  | escalated
deriving DecidableEq

inductive WalletSource where
  | cash
  | bonus
deriving DecidableEq

inductive WalletEntryType where
  | topup
  | bonus
  | consume
  | refund
  | adjustment
  | reversal
deriving DecidableEq

structure BillingAccount where
  id : Uuid
  status : AccountStatus
deriving DecidableEq

structure ApiKey where
  id : Uuid
  /-- `none` is no budget. -/
  budgetLimit : Option Int
  budgetUsed : Int
deriving DecidableEq

structure QuotaWindow where
  id : Uuid
  entitlementId : Uuid
  kind : WindowKind
  start : Int
  stop : Int
  limit : Int
  used : Int
  reserved : Int
  voided : Bool
deriving DecidableEq

def QuotaWindow.available (w : QuotaWindow) : Int :=
  let avail := w.limit - w.used - w.reserved
  if avail < 0 then 0 else avail

structure Request where
  id : Uuid
  billingAccountId : Uuid
  apiKeyId : Option Uuid
  entitlementId : Uuid
  policyVersionId : Uuid
  priceVersionId : Option Uuid
  status : RequestStatus
  admittedAt : Option Int
  windowFiveHourId : Option Uuid
  windowWeeklyId : Option Uuid
  windowMonthlyId : Option Uuid
  reservedMicros : Option Int
  settledMicros : Option Int
  chargeSource : ChargeSource
  usageStatus : UsageSource
  lastError : String
  completedAt : Option Int
deriving DecidableEq

def Request.windowIds (q : Request) : List Uuid :=
  [q.windowFiveHourId, q.windowWeeklyId, q.windowMonthlyId].filterMap (fun w => w)

inductive AttemptStatus where
  | dispatching
  | streaming
  | completed
  | failed
  | cancelled
  | unknown
deriving DecidableEq

structure Money where
  micros : Int
  currency : String
deriving DecidableEq

inductive CostBasis where
  | reported
  | estimated
  | allocated
deriving DecidableEq

structure Attempt where
  id : Uuid
  requestId : Uuid
  attemptNo : Nat
  status : AttemptStatus
  errorKind : String
  cost : Option (Money × CostBasis)
deriving DecidableEq

structure UsageRecord where
  requestId : Uuid
  attemptId : Uuid
  source : UsageSource
  revision : Nat
deriving DecidableEq

structure Reservation where
  id : Uuid
  requestId : Uuid
  targetKind : TargetKind
  windowId : Option Uuid
  apiKeyId : Option Uuid
  amount : Int
  state : ReservationState
deriving DecidableEq

/-- `id` is the `BIGSERIAL`, taken from the length of the append-only table. -/
structure LedgerEntry where
  id : Nat
  billingAccountId : Uuid
  requestId : Option Uuid
  entryType : EntryType
  amount : Int
  unit : LedgerUnit
  currency : Option String
  priceVersionId : Option Uuid
  reversesEntryId : Option Nat
  adjustmentId : Option Uuid
  createdBy : String
deriving DecidableEq

structure Adjustment where
  id : Uuid
  billingAccountId : Uuid
  requestId : Option Uuid
  reason : String
  amount : Int
  direction : Direction
  operatorSubject : String
  idempotencyKey : String
deriving DecidableEq

/-- `reason` of a reconciliation job; `other` is any text the table's CHECK rejects. -/
inductive JobReason where
  | unknownUsage
  | crashRecovery
  | ledgerMismatch
  | manual
  | settlementOverage
  | other (text : String)
deriving DecidableEq

def JobReason.text : JobReason → String
  | .unknownUsage => "unknown_usage"
  | .crashRecovery => "crash_recovery"
  | .ledgerMismatch => "ledger_mismatch"
  | .manual => "manual"
  | .settlementOverage => "settlement_overage"
  | .other text => text

def JobReason.allowed : JobReason → Bool
  | .other _ => false
  | _ => true

structure ReconciliationJob where
  id : Uuid
  requestId : Uuid
  reason : JobReason
  status : JobStatus
  deadlineAt : Int
deriving DecidableEq

structure Wallet where
  id : Uuid
  billingAccountId : Uuid
  currency : String
  overageEnabled : Bool
  monthlySpendLimit : Option Int
deriving DecidableEq

structure WalletHold where
  id : Uuid
  walletId : Uuid
  requestId : Uuid
  amount : Int
  cash : Int
  bonus : Int
  state : ReservationState
deriving DecidableEq

/-- The idempotent business keys of `accounting/wallet.go`, by their parts. -/
inductive BusinessKey where
  | topup (paymentId : Uuid)
  | refund (refundId : Uuid)
  | consume (requestId : Uuid) (source : WalletSource)
  | adjustment (idempotencyKey : String)
  | reversal (entryId : Nat)
deriving DecidableEq

structure WalletEntry where
  id : Nat
  walletId : Uuid
  entryType : WalletEntryType
  direction : Direction
  source : WalletSource
  amount : Int
  currency : String
  requestId : Option Uuid
  reversesEntryId : Option Nat
  businessKey : BusinessKey
  createdAt : Int
deriving DecidableEq

inductive Code where
  | invalidInput
  | invalidKey
  | modelNotAllowed
  | quotaExceeded
  | rateLimited
  | upstreamUnavailable
  | notFound
  | conflict
  | insufficientCapacity
  | unpricedCapability
  | insufficientBalance
  | internal
deriving DecidableEq

inductive LeaseScope where
  | billingAccount
  | upstreamAccount
  | deployment
  | apiKey
deriving DecidableEq

def LeaseScope.text : LeaseScope → String
  | .billingAccount => "billing_account"
  | .upstreamAccount => "upstream_account"
  | .deployment => "deployment"
  | .apiKey => "api_key"

inductive LeaseState where
  | held
  | released
  | expired
deriving DecidableEq

def LeaseState.text : LeaseState → String
  | .held => "held"
  | .released => "released"
  | .expired => "expired"

structure ConcurrencyLease where
  id : Uuid
  scope : LeaseScope
  scopeId : Uuid
  requestId : Uuid
  ownerToken : String
  fencingToken : Int
  state : LeaseState
  acquiredAt : Int
  expiresAt : Int
  releasedAt : Option Int
deriving DecidableEq

structure WindowBlock where
  kind : Option WindowKind
  limit : Int
  used : Int
  reserved : Int
  resetsAt : Option Int
deriving DecidableEq

inductive Err where
  /-- `domain.Error`. -/
  | domain (code : Code) (message : String)
  /-- `domain.QuotaExceededError`. -/
  | quotaExceeded (blockedBy : List WindowBlock) (keyBudget : Bool) (deficit : Option Int)
  /-- `postgres.activationConflict`, the retry signal of `quota.Service`. -/
  | activationConflict (kind : WindowKind) (start : Int)
deriving DecidableEq

inductive PgError where
  | uniqueViolation (constraint : String)
  | exclusionViolation (constraint : String)
  | checkViolation (constraint : String)
  | foreignKeyViolation (constraint : String)
  | invalidSyntax
  | noRows
deriving DecidableEq

def mapError (op : String) : PgError → Err
  | .uniqueViolation c => .domain .conflict (op ++ ": duplicate key (" ++ c ++ ")")
  | .exclusionViolation c => .domain .conflict (op ++ ": exclusion violation (" ++ c ++ ")")
  | .checkViolation c => .domain .invalidInput (op ++ ": check violation (" ++ c ++ ")")
  | .foreignKeyViolation c =>
    .domain .invalidInput (op ++ ": foreign key violation (" ++ c ++ ")")
  | .invalidSyntax => .domain .invalidInput (op ++ ": invalid input syntax")
  | .noRows => .domain .notFound (op ++ ": not found")

end YunhouUsers.Inference
