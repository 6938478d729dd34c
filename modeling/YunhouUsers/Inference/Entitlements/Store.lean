import Mathlib.Data.List.MinMax
import Mathlib.Data.Prod.Lex
import YunhouUsers.Inference.SyncStore
import YunhouUsers.Inference.Entitlements.BenefitGrant

/-!
The tables the entitlement sync reads and writes (postgres/entitlement_repo.go, outbox_repo.go and
billing_account_repo.go).

`ORDER BY … DESC LIMIT 1` is `List.argmax`.
-/

namespace YunhouUsers.Inference.Entitlements

open Table

inductive OrderStatus where
  | pending
  | paid
  | failed
  | refunded
  | cancelled
  | expired
deriving DecidableEq

structure Subscription extends SubscriptionState where
  createdAt : Int
deriving DecidableEq

/-- The snapshot columns are set together (`orders_benefit_snapshot_consistent`). -/
structure BenefitColumns where
  policyVersionId : String
  modelIds : List String
  grantMode : GrantMode
deriving DecidableEq

structure Order where
  id : String
  userId : String
  planId : String
  status : OrderStatus
  benefit : Option BenefitColumns
  updatedAt : Int
  createdAt : Int
deriving DecidableEq

inductive PolicyStatus where
  | draft
  | published
  | superseded
  | retired
deriving DecidableEq

structure Policy where
  id : String
  status : PolicyStatus
deriving DecidableEq

structure BillingAccount where
  id : String
  userId : String
deriving DecidableEq

structure EntitlementSyncMessage where
  userId : String
  productCode : String
  reason : String := ""
  orderId : String := ""
  paymentId : String := ""
  refundId : String := ""
  subscriptionId : String := ""
deriving DecidableEq

abbrev OutboxMessage := SyncStore.OutboxMessage EntitlementSyncMessage

/-- `inference_entitlements` under its primary key and its source key. -/
structure EntitlementTable where
  rows : List Entitlement
  ids : (rows.map (·.id)).Nodup
  revisions : (rows.map (fun e => (e.source, e.revision))).Nodup

structure Db where
  users : List String := []
  subscriptions : List Subscription := []
  orders : List Order := []
  policies : List Policy := []
  accounts : List BillingAccount := []
  entitlements : EntitlementTable := ⟨[], .nil, .nil⟩
  outbox : List OutboxMessage := []

inductive Failure where
  | policyRetired (policyVersionId : String)
  | err (e : Err)
deriving DecidableEq

def Failure.conflict : Failure → Bool
  | .err (.domain .conflict _) => true
  | _ => false

-- the order of the integers that can be computed with
local instance (priority := high) intPreorder : Preorder ℤ := Int.instLinearOrder.toPreorder

variable (db : Db)

def getSyncSubscription (userId productCode : String) : Option SubscriptionState :=
  ((db.subscriptions.filter (fun s => s.userId = userId && s.productCode = productCode)).argmax
    (fun s => toLex (decide (s.status = .active), s.createdAt))).map (·.toSubscriptionState)

def Order.snapshot (o : Order) : Option OrderBenefitSnapshot :=
  o.benefit.map (fun b => ⟨o.id, b.policyVersionId, b.modelIds, b.grantMode⟩)

def getLatestPaidBenefitOrder (userId planId : String) : Option OrderBenefitSnapshot :=
  ((db.orders.filter (fun o => o.userId = userId && o.planId = planId && o.status = .paid &&
    o.benefit.isSome)).argmax (fun o => toLex (o.updatedAt, o.createdAt))).bind Order.snapshot

def rank (e : Entitlement) : ℕ ×ₗ ℤ := toLex (e.revision, e.createdAt)

def latest (rows : List Entitlement) (source : Source) : Option Entitlement :=
  (rows.filter (·.source = source)).argmax rank

def getLatestEntitlementBySource (source : Source) : Option Entitlement :=
  latest db.entitlements.rows source

namespace EntitlementTable

variable (table : EntitlementTable)

def insert (e : Entitlement) : Except PgError EntitlementTable :=
  if new : ∀ x ∈ table.rows, x.id ≠ e.id then
    if free : ∀ x ∈ table.rows, (x.source, x.revision) ≠ (e.source, e.revision) then
      .ok ⟨table.rows ++ [e], nodup_concat table.ids new, nodup_concat table.revisions free⟩
    else .error (.uniqueViolation "inference_entitlements_source_type_source_id_revision_key")
  else .error (.uniqueViolation "inference_entitlements_pkey")

def put (rows : List Entitlement) (e : Entitlement) : List Entitlement :=
  updateWhere (·.id = e.id) (fun _ => e) rows

theorem map_id_put (rows : List Entitlement) (e : Entitlement) :
    (put rows e).map (·.id) = rows.map (·.id) := by
  simp only [put, updateWhere, List.map_map]
  apply List.map_congr_left
  intro x _
  by_cases same : x.id = e.id <;> simp [same]

theorem revisions_put (e : Entitlement)
    (free : ∀ x ∈ table.rows, x.id ≠ e.id → (x.source, x.revision) ≠ (e.source, e.revision)) :
    ((put table.rows e).map (fun x => (x.source, x.revision))).Nodup := by
  have distinct : (put table.rows e).Nodup :=
    List.Nodup.of_map (·.id) (by rw [map_id_put]; exact table.ids)
  refine (List.nodup_map_iff_inj_on distinct).mpr ?_
  intro x' mem_x y' mem_y same
  obtain ⟨x, memx, rfl⟩ := mem_updateWhere.mp mem_x
  obtain ⟨y, memy, rfl⟩ := mem_updateWhere.mp mem_y
  by_cases hx : x.id = e.id
  · by_cases hy : y.id = e.id
    · simp [hx, hy]
    · simp only [hx, hy, decide_true, decide_false, if_true, Bool.false_eq_true, if_false] at same
      exact absurd same.symm (free y memy hy)
  · by_cases hy : y.id = e.id
    · simp only [hx, hy, decide_true, decide_false, if_true, Bool.false_eq_true, if_false] at same
      exact absurd same (free x memx hx)
    · simp only [hx, hy, decide_false, Bool.false_eq_true, if_false] at same ⊢
      exact eq_of_key table.revisions memx memy same

def set (e : Entitlement) : Except PgError EntitlementTable :=
  if free : ∀ x ∈ table.rows, x.id ≠ e.id → (x.source, x.revision) ≠ (e.source, e.revision) then
    .ok ⟨put table.rows e, by rw [map_id_put]; exact table.ids, table.revisions_put e free⟩
  else .error (.uniqueViolation "inference_entitlements_source_type_source_id_revision_key")

end EntitlementTable

def rowViolation (e : Entitlement) : Option PgError :=
  if e.effectiveTo.any (fun t => t ≤ e.effectiveFrom) then
    some (.checkViolation "inference_entitlements_check")
  else if e.billingAccountId ∉ db.accounts.map (·.id) then
    some (.foreignKeyViolation "inference_entitlements_billing_account_id_fkey")
  else if e.policyVersionId ∉ db.policies.map (·.id) then
    some (.foreignKeyViolation "inference_entitlements_policy_version_id_fkey")
  else none

def storeRow (op : String) (e : Entitlement)
    (write : EntitlementTable → Entitlement → Except PgError EntitlementTable) :
    Except Failure Db :=
  match rowViolation db e with
  | some violation => .error (.err (mapError op violation))
  | none =>
    match write db.entitlements e with
    | .ok table => .ok { db with entitlements := table }
    | .error violation => .error (.err (mapError op violation))

def lockPolicyForGrantTx (policyVersionId : String) : Except Failure Unit :=
  match db.policies.find? (·.id = policyVersionId) with
  | none => .error (.err (mapError "lock policy for grant" .noRows))
  | some policy => if policy.status = .retired then .error (.policyRetired policyVersionId) else .ok ()

def insertEntitlementTx (e : Entitlement) : Except Failure Db :=
  match lockPolicyForGrantTx db e.policyVersionId with
  | .error failure => .error failure
  | .ok () =>
    storeRow db "insert entitlement" { e with revision := if e.revision = 0 then 1 else e.revision }
      EntitlementTable.insert

def EntitlementPatch.applyTo (patch : EntitlementPatch) (status : EntitlementStatus)
    (row : Entitlement) : Entitlement :=
  { row with
    revision := row.revision + 1
    status
    policyVersionId := patch.policyVersionId.getD row.policyVersionId
    modelIds := patch.modelIds.getD row.modelIds
    effectiveTo := if patch.clearEffectiveTo then none else patch.effectiveTo.or row.effectiveTo }

/-- `UPDATE … WHERE id = … AND revision = … AND status IN statuses`. -/
def updateRow (op id : String) (revision : Nat) (statuses : List EntitlementStatus)
    (stale : String) (change : Entitlement → Entitlement) : Except Failure Db :=
  match db.entitlements.rows.find? (fun e => e.id = id && e.revision = revision &&
      e.status ∈ statuses) with
  | none => .error (.err (.domain .conflict (op ++ ": " ++ stale)))
  | some row => storeRow db op (change row) EntitlementTable.set

def reviseEntitlementTx (id : String) (patch : EntitlementPatch) : Except Failure Db :=
  updateRow db "revise entitlement" id patch.expectedRevision [.active]
    "stale revision or entitlement not active" (patch.applyTo .active)

def reviveEntitlementTx (id : String) (patch : EntitlementPatch) : Except Failure Db :=
  updateRow db "revive entitlement" id patch.expectedRevision [.revoked, .expired]
    "stale revision or entitlement not retired" (patch.applyTo .active)

def EntitlementStatus.text : EntitlementStatus → String
  | .active => "active"
  | .expired => "expired"
  | .revoked => "revoked"
  | .superseded => "superseded"

def retireEntitlementTx (id : String) (expectedRevision : Nat)
    (status : EntitlementStatus) : Except Failure Db :=
  if status = .active then
    .error (.err (.domain .invalidInput
      ("retire entitlement: invalid target status " ++ status.text)))
  else
    updateRow db "retire entitlement" id expectedRevision [.active]
      "stale revision or entitlement not active"
      (fun row => { row with status, revision := row.revision + 1 })

def insertAccount (uuid userId : String) : StateT Db (Except Err) (Option BillingAccount) :=
  fun db =>
    if db.accounts.any (·.userId = userId) then .ok (none, db)
    else if userId ∉ db.users then
      .error (mapError "ensure billing account"
        (.foreignKeyViolation "inference_billing_accounts_user_id_fkey"))
    else .ok (some ⟨uuid, userId⟩, { db with accounts := db.accounts ++ [⟨uuid, userId⟩] })

def selectAccount (userId : String) : StateT Db (Except Err) (Option BillingAccount) :=
  fun db => .ok (db.accounts.find? (·.userId = userId), db)

def ensureBillingAccount (uuid : String) (db : Db) (userId : String) :
    Except Err (BillingAccount × Db) :=
  (SyncStore.ensureBillingAccount (insertAccount uuid userId) (selectAccount userId)).run db

def markOutboxDeliveredTx (id : Nat) : Db :=
  { db with outbox := SyncStore.markOutboxDelivered db.outbox id }

def markOutboxFailed (id : Nat) (nextRetry : Int) : Db :=
  { db with outbox := SyncStore.markOutboxFailed db.outbox id nextRetry }

end YunhouUsers.Inference.Entitlements
