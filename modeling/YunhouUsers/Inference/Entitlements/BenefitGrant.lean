import Mathlib.Data.List.Perm.Basic
import Mathlib.Data.List.Nodup
import YunhouUsers.Inference.Domain

/-!
From payment facts to entitlements (access/benefit_grant.go and entitlement.go): what the facts
demand, and the next step towards it.

Ids are texts here, since a bundle gift's source id is one.
-/

namespace YunhouUsers.Inference.Entitlements

inductive EntitlementSource where
  | subscription
  | order
  | grant
  | payg
deriving DecidableEq

inductive EntitlementStatus where
  | active
  | expired
  | revoked
  | superseded
deriving DecidableEq

structure Source where
  type : EntitlementSource
  id : String
deriving DecidableEq

structure Entitlement where
  id : String
  billingAccountId : String
  source : Source
  modelIds : List String
  policyVersionId : String
  anchorAt : Int
  effectiveFrom : Int
  effectiveTo : Option Int
  revision : Nat
  stackable : Bool
  status : EntitlementStatus
  createdAt : Int
deriving DecidableEq

structure EntitlementPatch where
  expectedRevision : Nat
  policyVersionId : Option String := none
  modelIds : Option (List String) := none
  effectiveTo : Option Int := none
  clearEffectiveTo : Bool := false
deriving DecidableEq

inductive SubscriptionStatus where
  | active
  | expired
  | cancelled
deriving DecidableEq

def SubscriptionStatus.text : SubscriptionStatus → String
  | .active => "active"
  | .expired => "expired"
  | .cancelled => "cancelled"

structure SubscriptionState where
  id : String
  userId : String
  planId : String
  productCode : String
  status : SubscriptionStatus
  expiresAt : Option Int
deriving DecidableEq

inductive GrantMode where
  | subscription
  | gift
  | other (text : String)
deriving DecidableEq

def GrantMode.text : GrantMode → String
  | .subscription => "subscription"
  | .gift => "gift"
  | .other text => text

structure OrderBenefitSnapshot where
  orderId : String
  policyVersionId : String
  modelIds : List String
  grantMode : GrantMode
deriving DecidableEq

structure BenefitTarget where
  source : Source
  policyVersionId : String
  modelIds : List String
  effectiveTo : Option Int
  stackable : Bool
deriving DecidableEq

/-- `retireAs` is the empty text when a target is set. -/
structure SyncDecision where
  reason : String
  target : Option BenefitTarget := none
  retireAs : Option EntitlementStatus := none
deriving DecidableEq

def bundleGiftSourceID (subscriptionId : String) : String := "bundle:" ++ subscriptionId

def dedupeAfter (seen : List String) : List String → List String
  | [] => []
  | id :: ids => if id ∈ seen then dedupeAfter seen ids else id :: dedupeAfter (id :: seen) ids

def dedupeModels (ids : List String) : List String := dedupeAfter [] ids

/-- The second loop of `equalModelSets`: `seen` counts what is left. -/
def drain (seen : String → Int) : List String → Bool
  | [] => true
  | id :: ids =>
    if seen id - 1 < 0 then false else drain (Function.update seen id (seen id - 1)) ids

def equalModelSets (a b : List String) : Bool :=
  if a.length ≠ b.length then false else drain (fun id => a.count id) b

theorem mem_dedupeAfter (seen ids : List String) (id : String) :
    id ∈ dedupeAfter seen ids ↔ id ∈ ids ∧ id ∉ seen := by
  induction ids generalizing seen with
  | nil => simp [dedupeAfter]
  | cons first ids ih =>
    unfold dedupeAfter
    split
    · rename_i known
      rw [ih]
      grind
    · rename_i new
      rw [List.mem_cons, ih]
      grind

theorem nodup_dedupeAfter (seen ids : List String) : (dedupeAfter seen ids).Nodup := by
  induction ids generalizing seen with
  | nil => exact List.nodup_nil
  | cons first ids ih =>
    unfold dedupeAfter
    split
    · exact ih seen
    · rw [List.nodup_cons, mem_dedupeAfter]
      exact ⟨by simp, ih (first :: seen)⟩

theorem dedupeAfter_of_nodup {seen ids : List String} (distinct : ids.Nodup)
    (fresh : ∀ id ∈ ids, id ∉ seen) : dedupeAfter seen ids = ids := by
  induction ids generalizing seen with
  | nil => rfl
  | cons first ids ih =>
    obtain ⟨new, distinct⟩ := List.nodup_cons.mp distinct
    unfold dedupeAfter
    rw [if_neg (fresh first List.mem_cons_self), ih distinct]
    intro id mem
    have other : id ≠ first := fun same => new (same ▸ mem)
    simp [other, fresh id (List.mem_cons_of_mem first mem)]

theorem drain_iff (seen : String → Int) (ids : List String) (nonneg : ∀ id, 0 ≤ seen id) :
    drain seen ids = true ↔ ∀ id, (ids.count id : Int) ≤ seen id := by
  induction ids generalizing seen with
  | nil => simpa [drain] using nonneg
  | cons first ids ih =>
    unfold drain
    split
    · rename_i none
      simp only [Bool.false_eq_true, false_iff, not_forall]
      exact ⟨first, by rw [List.count_cons_self]; omega⟩
    · rename_i left
      rw [ih]
      · refine forall_congr' fun id => ?_
        by_cases same : id = first
        · subst same
          rw [Function.update_self, List.count_cons_self]
          omega
        · rw [Function.update_of_ne same, List.count_cons_of_ne (Ne.symm same)]
      · intro id
        by_cases same : id = first
        · subst same
          rw [Function.update_self]
          omega
        · rw [Function.update_of_ne same]
          exact nonneg id

theorem equalModelSets_iff (a b : List String) : equalModelSets a b = true ↔ a.Perm b := by
  unfold equalModelSets
  split
  · rename_i differ
    simp only [Bool.false_eq_true, false_iff]
    exact fun perm => differ perm.length_eq
  · rename_i same
    rw [drain_iff _ _ (by simp)]
    constructor
    · intro le
      have sub : b.Subperm a := List.subperm_ext_iff.mpr fun id _ => by exact_mod_cast le id
      exact (sub.perm_of_length_le (by omega)).symm
    · intro perm id
      exact Int.le_of_eq (by rw [perm.count_eq id])

structure PlanRevision where
  source : Source
  modelIds : List String
  policyVersionId : String
deriving DecidableEq

def zeroTime : Int := -62135596800000000

def grantFromPlan (plan : PlanRevision) (anchor effectiveFrom : Int) (effectiveTo : Option Int) :
    Except Err Entitlement :=
  let anchorAt := if anchor = zeroTime then effectiveFrom else anchor
  if plan.source.id = "" then .error (.domain .invalidInput "entitlement: source id required")
  else if plan.policyVersionId = "" then
    .error (.domain .invalidInput "entitlement: policy version required")
  else if effectiveFrom < anchorAt then
    .error (.domain .invalidInput "entitlement: anchor must not be after effective_from")
  else if effectiveTo.any (fun t => t ≤ effectiveFrom) then
    .error (.domain .invalidInput "entitlement: effective_to must be after effective_from")
  else
    .ok
      { id := "", billingAccountId := "", source := plan.source
        modelIds := dedupeModels plan.modelIds, policyVersionId := plan.policyVersionId
        anchorAt, effectiveFrom, effectiveTo, revision := 1, stackable := false, status := .active
        createdAt := 0 }

def decideSync (sub : Option SubscriptionState) (paidOrder : Option OrderBenefitSnapshot)
    (now : Int) : Except Err SyncDecision :=
  match sub with
  | none => .ok { reason := "no_subscription", retireAs := some .revoked }
  | some sub =>
    if sub.status ≠ .active then
      .ok { reason := "subscription_" ++ sub.status.text, retireAs := some .revoked }
    else if sub.expiresAt.any (fun expiry => expiry ≤ now) then
      .ok { reason := "subscription_lapsed", retireAs := some .expired }
    else
      match paidOrder with
      | none => .ok { reason := "no_paid_order_evidence", retireAs := some .revoked }
      | some order =>
        let target (source : Source) : Except Err SyncDecision :=
          .ok
            { reason := "active_" ++ order.grantMode.text
              target := some
                { source, policyVersionId := order.policyVersionId
                  modelIds := dedupeModels order.modelIds, effectiveTo := sub.expiresAt
                  stackable := false } }
        if order.policyVersionId = "" then
          .error (.domain .invalidInput
            ("benefit sync: paying order " ++ order.orderId ++ " carries no policy version"))
        else
          match order.grantMode with
          | .subscription => target ⟨.subscription, sub.id⟩
          | .gift => target ⟨.grant, bundleGiftSourceID sub.id⟩
          | .other text =>
            .error (.domain .invalidInput
              ("benefit sync: order " ++ order.orderId ++ " has unknown grant mode " ++ text))

inductive ConvergeAction where
  | noop
  | insert (plan : PlanRevision) (anchor effectiveFrom : Int) (effectiveTo : Option Int)
  | revise (patch : EntitlementPatch)
  | revive (patch : EntitlementPatch)
  | retire (expectedRevision : Nat) (retireAs : EntitlementStatus)
deriving DecidableEq

def EntitlementPatch.isEmpty (patch : EntitlementPatch) : Bool :=
  patch.policyVersionId.isNone && patch.modelIds.isNone && patch.effectiveTo.isNone &&
    !patch.clearEffectiveTo

def patchTowards (want : BenefitTarget) (current : Entitlement) : EntitlementPatch :=
  { expectedRevision := current.revision
    policyVersionId :=
      if want.policyVersionId ≠ current.policyVersionId then some want.policyVersionId else none
    modelIds :=
      if equalModelSets want.modelIds current.modelIds then none
      else some (dedupeModels want.modelIds)
    effectiveTo := if want.effectiveTo = current.effectiveTo then none else want.effectiveTo
    clearEffectiveTo := want.effectiveTo ≠ current.effectiveTo && want.effectiveTo.isNone }

def converge (current : Option Entitlement) (decision : SyncDecision) (now : Int) :
    Except Err ConvergeAction :=
  match decision.target with
  | none =>
    match current with
    | none => .ok .noop
    | some current =>
      if current.status ≠ .active then .ok .noop
      else
        let retireAs := match decision.retireAs with
          | none | some .active => .revoked
          | some status => status
        .ok (.retire current.revision retireAs)
  | some want =>
    if want.policyVersionId = "" then
      .error (.domain .invalidInput "benefit converge: target policy version required")
    else
      match current with
      | none =>
        .ok (.insert ⟨want.source, want.modelIds, want.policyVersionId⟩ now now want.effectiveTo)
      | some current =>
        let patch := patchTowards want current
        if want.effectiveTo ≠ current.effectiveTo &&
            want.effectiveTo.any (fun t => t ≤ current.effectiveFrom) then
          .error (.domain .invalidInput
            "benefit converge: effective_to must stay after effective_from")
        else if current.status ≠ .active then .ok (.revive patch)
        else if patch.isEmpty then .ok .noop
        else .ok (.revise patch)

end YunhouUsers.Inference.Entitlements
