import Mathlib.Tactic.Common

/-!
Rows and errors of the payment service (`internal/model`, `internal/service`).

Ids are kept as text, the way the Go structs hold them.  Instants are microseconds since the
epoch.
-/

namespace YunhouUsers.Payments

abbrev Id := String

inductive Channel where
  | stripe
  | wechatPay
  | alipay
  | paypal
  | paddle
deriving DecidableEq

inductive Product where
  | kayaMembership
  | codingPlan
  | walletTopup
deriving DecidableEq

inductive SubscriptionStatus where
  | active
  | expired
  | cancelled
deriving DecidableEq

structure Plan where
  id : Id
  productCode : Product
  intervalDays : Int
  isActive : Bool
  acceptingNewSubscriptions : Bool
deriving DecidableEq

structure Subscription where
  id : Id
  userId : Id
  planId : Id
  productCode : Product
  status : SubscriptionStatus
  expiresAt : Option Int
  channel : Option Channel
  autoRenew : Bool
  externalSubscriptionId : Option String
deriving DecidableEq

inductive SyncReason where
  | subCancelled
deriving DecidableEq

structure EntitlementSyncMessage where
  userId : Id
  productCode : Product
  reason : SyncReason
  subscriptionId : Id
deriving DecidableEq

/-- What the Paddle client reports of a failed call; `gone` is `IsSubscriptionGoneError`. -/
inductive PaddleError where
  | gone
  | other
deriving DecidableEq

inductive Err where
  | paddleNotConfigured
  | subscriptionNotFound
  | subscriptionNotChannelManaged
  | subscriptionAlreadyEnded
  | subscriptionNoAutoRenew
  | samePlanChange
  | planNotFound
  | planInactive
  | planNotAcceptingNew
  | planChangeNotUpgrade
  | planDowngradeNotSupported
  | paddlePriceNotConfigured
  | channelUnavailable
  | paddle (e : PaddleError)
deriving DecidableEq

def day : Int := 24 * 60 * 60 * 1000000

def maxIntervalDays : Int := 365 * 290

end YunhouUsers.Payments
