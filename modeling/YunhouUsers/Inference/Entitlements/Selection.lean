import Mathlib.Data.Prod.Lex
import Mathlib.Data.String.Basic
import YunhouUsers.StableSort
import YunhouUsers.Inference.Entitlements.BenefitGrant

/-!
The entitlement a call is charged to (`access.SelectEntitlement`) and the one the quota view
shows (`management.SelectViewEntitlement`).
-/

namespace YunhouUsers.Inference.Entitlements

inductive EntitlementClass where
  | explicit
  | gift
  | payg
deriving DecidableEq

variable (e : Entitlement)

def Entitlement.class_ : EntitlementClass :=
  match e.source.type with
  | .grant => .gift
  | .payg => .payg
  | _ => .explicit

def Entitlement.allowsModel (modelId : String) : Bool :=
  e.modelIds.any (fun id => id == modelId)

def Entitlement.usable (t : Int) : Bool :=
  if e.status ≠ .active then false
  else if t < e.effectiveFrom then false
  else match e.effectiveTo with
    | none => true
    | some to_ => t < to_

def Entitlement.createdBefore (a b : Entitlement) : Bool :=
  if a.createdAt ≠ b.createdAt then a.createdAt < b.createdAt else a.id < b.id

def grantsModel (pool : List Entitlement) (modelId : String) : Option Entitlement :=
  firstBy Entitlement.createdBefore (fun e => e.allowsModel modelId) pool

def poolOf (ents : List Entitlement) (t : Int) (c : EntitlementClass) : List Entitlement :=
  ents.filter (fun e => e.usable t && e.class_ = c)

def planPool (ents : List Entitlement) (t : Int) : List Entitlement :=
  if (poolOf ents t .explicit).isEmpty then poolOf ents t .gift else poolOf ents t .explicit

def selectEntitlement (ents : List Entitlement) (modelId : String) (t : Int) :
    Except Err Entitlement :=
  let pool := planPool ents t
  let payg := poolOf ents t .payg
  match (grantsModel pool modelId).or (grantsModel payg modelId) with
  | some winner => .ok winner
  | none =>
    .error (.domain .modelNotAllowed
      (if pool.isEmpty && payg.isEmpty then
        "no active entitlement for this account (无显式权益/赠送/PAYG，不自动获得模型)"
      else "model " ++ modelId ++ " is not covered by the effective entitlement"))

/-- The view's `explicit`: everything that is not a gift. -/
def Entitlement.notGift : Bool := e.source.type ≠ .grant

def activeBefore (a b : Entitlement) : Bool :=
  if a.notGift ≠ b.notGift then a.notGift else a.createdBefore b

def retiredBefore (a b : Entitlement) : Bool :=
  if a.notGift ≠ b.notGift then a.notGift
  else if a.createdAt ≠ b.createdAt then b.createdAt < a.createdAt
  else b.id < a.id

def selectViewEntitlement (ents : List Entitlement) (t : Int) : Option Entitlement :=
  let pool := ents.filter (fun e => e.usable t)
  if pool.isEmpty then (sortStable retiredBefore ents).head?
  else (sortStable activeBefore pool).head?

def Entitlement.created : Int ×ₗ String := toLex (e.createdAt, e.id)

def Entitlement.viewRank : Nat ×ₗ (Int ×ₗ String) :=
  toLex (if e.notGift then 0 else 1, e.created)

theorem ranks_created : Ranks Entitlement.createdBefore Entitlement.created := by
  intro a b
  unfold Entitlement.createdBefore Entitlement.created
  rw [Prod.Lex.toLex_lt_toLex]
  split <;> grind

theorem ranks_viewRank : Ranks activeBefore Entitlement.viewRank := by
  intro a b
  have created := ranks_created a b
  unfold activeBefore Entitlement.viewRank
  rw [Prod.Lex.toLex_lt_toLex]
  cases a.notGift <;> cases b.notGift <;> simp [created]

def Distinct (ents : List Entitlement) : Prop := (ents.map Entitlement.created).Nodup

instance (ents : List Entitlement) : Decidable (Distinct ents) :=
  inferInstanceAs (Decidable (ents.map Entitlement.created).Nodup)

variable {ents ents' : List Entitlement} {modelId : String} {t : Int} {e r : Entitlement}

theorem Distinct.filter (distinct : Distinct ents) (p : Entitlement → Bool) :
    Distinct (ents.filter p) :=
  distinct.sublist (List.filter_sublist.map _)

theorem Distinct.poolOf (distinct : Distinct ents) (t : Int) (c : EntitlementClass) :
    Distinct (poolOf ents t c) := distinct.filter _

theorem Distinct.planPool (distinct : Distinct ents) (t : Int) : Distinct (planPool ents t) := by
  unfold Entitlements.planPool
  split
  · exact distinct.poolOf t .gift
  · exact distinct.poolOf t .explicit

theorem Distinct.viewRank (distinct : Distinct ents) :
    (ents.map Entitlement.viewRank).Nodup := by
  refine List.Nodup.of_map (fun rank => (ofLex rank).2) ?_
  rw [List.map_map]
  exact distinct

variable {c : EntitlementClass}

theorem mem_poolOf : e ∈ poolOf ents t c ↔ e ∈ ents ∧ e.usable t = true ∧ e.class_ = c := by
  simp [poolOf]

theorem poolOf_isEmpty :
    (poolOf ents t c).isEmpty = true ↔ ∀ r ∈ ents, r.usable t = true → r.class_ ≠ c := by
  simp [poolOf]

/-! What the call path may choose. -/

/-- A usable row of the model that the rules of the classes leave in the running. -/
structure Allowed (ents : List Entitlement) (modelId : String) (t : Int) (e : Entitlement) :
    Prop where
  mem : e ∈ ents
  usable : e.usable t = true
  grants : e.allowsModel modelId = true
  gift : e.class_ = .gift → ∀ r ∈ ents, r.usable t = true → r.class_ ≠ .explicit
  payg : e.class_ = .payg → ∀ r ∈ ents, r.usable t = true → r.allowsModel modelId = true →
    r.class_ ≠ .explicit ∧
      ((∀ s ∈ ents, s.usable t = true → s.class_ ≠ .explicit) → r.class_ ≠ .gift)

structure Chosen (ents : List Entitlement) (modelId : String) (t : Int) (e : Entitlement) : Prop
    extends Allowed ents modelId t e where
  earliest : ∀ r ∈ ents, r.usable t = true → r.allowsModel modelId = true →
    r.class_ = e.class_ → e.created ≤ r.created

theorem grantsModel_poolOf (distinct : Distinct ents) :
    grantsModel (poolOf ents t c) modelId = some e ↔
      (e ∈ ents ∧ e.usable t = true ∧ e.class_ = c) ∧ e.allowsModel modelId = true ∧
        ∀ r ∈ ents, r.usable t = true → r.allowsModel modelId = true → r.class_ = c →
          e.created ≤ r.created := by
  unfold grantsModel
  rw [ranks_created.firstBy_eq_some (distinct.poolOf t c), mem_poolOf]
  simp only [mem_poolOf]
  grind

theorem grantsModel_poolOf_none :
    grantsModel (poolOf ents t c) modelId = none ↔
      ∀ r ∈ ents, r.usable t = true → r.class_ = c → r.allowsModel modelId = false := by
  unfold grantsModel
  rw [firstBy_eq_none]
  simp only [mem_poolOf]
  grind

theorem selectEntitlement_ok :
    selectEntitlement ents modelId t = .ok e ↔
      (grantsModel (planPool ents t) modelId).or (grantsModel (poolOf ents t .payg) modelId) =
        some e := by
  unfold selectEntitlement
  dsimp only
  split <;> simp [*]

theorem selectEntitlement_error :
    (∃ message, selectEntitlement ents modelId t = .error (.domain .modelNotAllowed message)) ↔
      ∀ e, selectEntitlement ents modelId t ≠ .ok e := by
  unfold selectEntitlement
  dsimp only
  split <;> simp

theorem selectEntitlement_ok_iff (distinct : Distinct ents) :
    selectEntitlement ents modelId t = .ok e ↔ Chosen ents modelId t e := by
  rw [selectEntitlement_ok, Option.or_eq_some_iff]
  by_cases empty : (poolOf ents t .explicit).isEmpty = true
  · have noExplicit := poolOf_isEmpty.mp empty
    rw [planPool, if_pos empty, grantsModel_poolOf distinct, grantsModel_poolOf_none,
      grantsModel_poolOf distinct]
    constructor
    · rintro (⟨⟨mem, usable, isGift⟩, grants, earliest⟩ |
        ⟨noGift, ⟨mem, usable, isPayg⟩, grants, earliest⟩)
      · exact ⟨⟨mem, usable, grants, fun _ => noExplicit, by grind⟩, by grind⟩
      · exact ⟨⟨mem, usable, grants, fun _ => noExplicit, by grind⟩, by grind⟩
    · intro chosen
      obtain ⟨⟨mem, usable, grants, -, payg⟩, earliest⟩ := chosen
      cases which : e.class_ with
      | explicit => exact absurd which (noExplicit e mem usable)
      | gift => exact .inl ⟨⟨mem, usable, rfl⟩, grants, by grind⟩
      | payg => exact .inr ⟨by grind, ⟨mem, usable, rfl⟩, grants, by grind⟩
  · have someExplicit : ∃ r ∈ ents, r.usable t = true ∧ r.class_ = .explicit := by
      rw [poolOf_isEmpty] at empty
      grind
    rw [planPool, if_neg empty, grantsModel_poolOf distinct, grantsModel_poolOf_none,
      grantsModel_poolOf distinct]
    constructor
    · rintro (⟨⟨mem, usable, isExplicit⟩, grants, earliest⟩ |
        ⟨noExplicit, ⟨mem, usable, isPayg⟩, grants, earliest⟩)
      · exact ⟨⟨mem, usable, grants, by grind, by grind⟩, by grind⟩
      · exact ⟨⟨mem, usable, grants, by grind, by grind⟩, by grind⟩
    · intro chosen
      obtain ⟨⟨mem, usable, grants, gift, payg⟩, earliest⟩ := chosen
      cases which : e.class_ with
      | explicit => exact .inl ⟨⟨mem, usable, rfl⟩, grants, by grind⟩
      | gift =>
        obtain ⟨r, memR, usableR, explicit⟩ := someExplicit
        exact absurd explicit (gift which r memR usableR)
      | payg => exact .inr ⟨by grind, ⟨mem, usable, rfl⟩, grants, by grind⟩

theorem not_allowed_of_failed (failed : ∀ w, selectEntitlement ents modelId t ≠ .ok w) :
    ¬ Allowed ents modelId t e := by
  have none : (grantsModel (planPool ents t) modelId).or
      (grantsModel (poolOf ents t .payg) modelId) = none := by
    rw [Option.eq_none_iff_forall_ne_some]
    intro w found
    exact failed w (selectEntitlement_ok.mpr found)
  rw [Option.or_eq_none_iff, grantsModel_poolOf_none] at none
  obtain ⟨noPlan, noPayg⟩ := none
  rintro ⟨mem, usable, grants, gift, payg⟩
  by_cases empty : (poolOf ents t .explicit).isEmpty = true
  · have noExplicit := poolOf_isEmpty.mp empty
    rw [planPool, if_pos empty, grantsModel_poolOf_none] at noPlan
    cases which : e.class_ <;> grind
  · rw [planPool, if_neg empty, grantsModel_poolOf_none] at noPlan
    rw [poolOf_isEmpty] at empty
    cases which : e.class_ <;> grind

theorem poolOf_perm (perm : ents'.Perm ents) (c : EntitlementClass) :
    (poolOf ents' t c).Perm (poolOf ents t c) := perm.filter _

theorem planPool_perm (perm : ents'.Perm ents) : (planPool ents' t).Perm (planPool ents t) := by
  have explicit := poolOf_perm (t := t) perm .explicit
  unfold planPool
  rw [explicit.isEmpty_eq]
  split
  · exact poolOf_perm perm .gift
  · exact explicit

theorem grantsModel_perm {pool pool' : List Entitlement} (distinct : Distinct pool)
    (perm : pool'.Perm pool) : grantsModel pool' modelId = grantsModel pool modelId := by
  refine ranks_created.firstBy_congr ((perm.map _).nodup_iff.mpr distinct) distinct ?_
  intro e
  rw [perm.mem_iff]

theorem selectEntitlement_perm (distinct : Distinct ents) (perm : ents'.Perm ents) :
    selectEntitlement ents' modelId t = selectEntitlement ents modelId t := by
  unfold selectEntitlement
  dsimp only
  rw [grantsModel_perm (distinct.planPool t) (planPool_perm perm),
    grantsModel_perm (distinct.poolOf t .payg) (poolOf_perm perm .payg),
    (planPool_perm perm).isEmpty_eq, (poolOf_perm perm .payg).isEmpty_eq]

/-- The selection does not depend on the order of the rows and keeps the precedence of the classes:
an active purchase shuts out every gift, pay-as-you-go comes last, the oldest granting row of its
class wins, and a call fails exactly when nothing is left that grants the model. -/
theorem selectEntitlement_correct (distinct : Distinct ents) (modelId : String) (t : Int) :
    (∀ ents', ents'.Perm ents →
      selectEntitlement ents' modelId t = selectEntitlement ents modelId t) ∧
    (∀ e, selectEntitlement ents modelId t = .ok e →
      e ∈ ents ∧ e.usable t = true ∧ e.allowsModel modelId = true ∧
      ((∃ r ∈ ents, r.usable t = true ∧ r.class_ = .explicit) → e.class_ ≠ .gift) ∧
      (e.class_ = .payg → ∀ r ∈ ents, r.usable t = true → r.allowsModel modelId = true →
        r.class_ ≠ .explicit ∧
          ((∀ s ∈ ents, s.usable t = true → s.class_ ≠ .explicit) → r.class_ ≠ .gift)) ∧
      ∀ r ∈ ents, r.usable t = true → r.allowsModel modelId = true → r.class_ = e.class_ →
        r ≠ e → e.createdBefore r = true) ∧
    ((∃ message, selectEntitlement ents modelId t = .error (.domain .modelNotAllowed message)) ↔
      ∀ e, ¬ Allowed ents modelId t e) := by
  refine ⟨fun ents' => selectEntitlement_perm distinct, ?_, ?_⟩
  · intro e ok
    obtain ⟨⟨mem, usable, grants, gift, payg⟩, earliest⟩ := (selectEntitlement_ok_iff distinct).mp ok
    refine ⟨mem, usable, grants, ?_, payg, ?_⟩
    · rintro ⟨r, memR, usableR, explicit⟩ isGift
      exact gift isGift r memR usableR explicit
    · intro r memR usableR grantsR same differ
      refine (ranks_created e r).mpr (lt_of_le_of_ne (earliest r memR usableR grantsR same) ?_)
      intro equal
      exact differ (List.inj_on_of_nodup_map distinct memR mem equal.symm)
  · rw [selectEntitlement_error]
    constructor
    · intro failed e
      exact not_allowed_of_failed failed
    · intro noneAllowed e ok
      exact noneAllowed e ((selectEntitlement_ok_iff distinct).mp ok).toAllowed

def grantRow (id : String) (type : EntitlementSource) (modelIds : List String) (createdAt : Int) :
    Entitlement :=
  { id, modelIds, createdAt
    billingAccountId := "a"
    source := ⟨type, id⟩
    policyVersionId := "p"
    anchorAt := 0
    effectiveFrom := 0
    effectiveTo := none
    revision := 1
    stackable := false
    status := .active }

/-- A purchase without the model shuts out the gift that grants it, and pay-as-you-go steps in. -/
theorem selectEntitlement_correct_mixed :
    let ents := [grantRow "gift" .grant ["m"] 1, grantRow "plan" .order [] 2,
      grantRow "payg" .payg ["m"] 3]
    selectEntitlement ents "m" 5 = .ok (grantRow "payg" .payg ["m"] 3) ∧
      (grantRow "payg" .payg ["m"] 3).class_ ≠ .gift ∧
      selectEntitlement ents.reverse "m" 5 = selectEntitlement ents "m" 5 := by
  intro ents
  have distinct : Distinct ents := by decide +kernel
  have ok : selectEntitlement ents "m" 5 = .ok (grantRow "payg" .payg ["m"] 3) := by
    decide +kernel
  obtain ⟨perm, chosen, -⟩ := selectEntitlement_correct distinct "m" 5
  obtain ⟨-, -, -, noGift, -⟩ := chosen _ ok
  refine ⟨ok, noGift ⟨grantRow "plan" .order [] 2, ?_, rfl, rfl⟩, perm _ (List.reverse_perm _)⟩
  simp [ents]

theorem head_sortStable (less : Entitlement → Entitlement → Bool) (rows : List Entitlement) :
    (sortStable less rows).head? = firstBy less (fun _ => true) rows := by
  unfold firstBy
  cases sortStable less rows <;> rfl

theorem selectViewEntitlement_eq (some_ : ∃ r ∈ ents, r.usable t = true) :
    selectViewEntitlement ents t =
      firstBy activeBefore (fun _ => true) (ents.filter (fun e => e.usable t)) := by
  have nonempty : (ents.filter (fun e => e.usable t)).isEmpty = false := by
    rw [← Bool.not_eq_true, List.isEmpty_iff, List.filter_eq_nil_iff]
    grind
  unfold selectViewEntitlement
  simp only [nonempty, Bool.false_eq_true, if_false]
  exact head_sortStable _ _

theorem selectViewEntitlement_some (distinct : Distinct ents)
    (some_ : ∃ r ∈ ents, r.usable t = true) :
    selectViewEntitlement ents t = some e ↔
      e ∈ ents ∧ e.usable t = true ∧ ∀ r ∈ ents, r.usable t = true → e.viewRank ≤ r.viewRank := by
  rw [selectViewEntitlement_eq some_,
    ranks_viewRank.firstBy_eq_some (distinct.filter _).viewRank]
  simp [and_assoc]

theorem exists_shown (some_ : ∃ r ∈ ents, r.usable t = true) :
    ∃ e, selectViewEntitlement ents t = some e := by
  refine Option.ne_none_iff_exists'.mp ?_
  rw [selectViewEntitlement_eq some_, Ne, firstBy_eq_none]
  intro failing
  obtain ⟨r, mem, usable⟩ := some_
  cases failing r (List.mem_filter.mpr ⟨mem, usable⟩)

theorem viewRank_le_iff : e.viewRank ≤ r.viewRank ↔
    (r.class_ = .gift ∧ e.class_ ≠ .gift) ∨
      ((e.class_ = .gift ↔ r.class_ = .gift) ∧ e.created ≤ r.created) := by
  unfold Entitlement.viewRank Entitlement.notGift Entitlement.class_
  rw [Prod.Lex.toLex_le_toLex]
  cases e.source.type <;> cases r.source.type <;> simp

/-- Every usable pay-as-you-go row has an older usable purchase, or only such rows are usable. -/
def PaygLast (ents : List Entitlement) (t : Int) : Prop :=
  (∀ e ∈ ents, e.usable t = true → e.class_ = .payg →
    ∃ r ∈ ents, r.usable t = true ∧ r.class_ = .explicit ∧ r.createdBefore e = true) ∨
  ∀ e ∈ ents, e.usable t = true → e.class_ = .payg

/-- The view and the call path name the same row exactly when no pay-as-you-go row is taken for the
oldest purchase. -/
theorem view_eq_selected_iff (distinct : Distinct ents) (some_ : ∃ r ∈ ents, r.usable t = true)
    (granted : ∀ r ∈ ents, r.usable t = true → r.allowsModel modelId = true) :
    (∃ e, selectViewEntitlement ents t = some e ∧ selectEntitlement ents modelId t = .ok e) ↔
      PaygLast ents t := by
  simp only [selectViewEntitlement_some distinct some_, selectEntitlement_ok_iff distinct]
  constructor
  · rintro ⟨e, ⟨mem, usable, least⟩, chosen⟩
    simp only [viewRank_le_iff] at least
    cases which : e.class_ with
    | explicit =>
      refine .inl fun p memP usableP isPayg => ⟨e, mem, usable, which, ?_⟩
      have differ : e.created ≠ p.created := by
        intro equal
        rw [List.inj_on_of_nodup_map distinct mem memP equal, isPayg] at which
        cases which
      have le : e.created ≤ p.created := by grind
      exact (ranks_created e p).mpr (lt_of_le_of_ne le differ)
    | gift =>
      refine .inl fun p memP usableP isPayg => ?_
      have := least p memP usableP
      simp [which, isPayg] at this
    | payg =>
      refine .inr fun r memR usableR => ?_
      have noExplicit : ∀ s ∈ ents, s.usable t = true → s.class_ ≠ .explicit := by
        intro s memS usableS
        exact (chosen.payg which s memS usableS (granted s memS usableS)).1
      have notGift := (chosen.payg which r memR usableR (granted r memR usableR)).2 noExplicit
      have notExplicit := noExplicit r memR usableR
      cases other : r.class_ <;> simp_all
  · intro last
    -- what the view shows is what the call path chooses
    obtain ⟨e, shown⟩ := exists_shown some_
    rw [selectViewEntitlement_some distinct some_] at shown
    obtain ⟨mem, usable, least⟩ := shown
    refine ⟨e, ⟨mem, usable, least⟩, ?_⟩
    simp only [viewRank_le_iff] at least
    refine ⟨⟨mem, usable, granted e mem usable, ?_, ?_⟩, ?_⟩
    · intro isGift r memR usableR isExplicit
      have := least r memR usableR
      simp [isGift, isExplicit] at this
    · intro isPayg r memR usableR _
      rcases last with preceded | only
      · obtain ⟨s, memS, usableS, explicitS, older⟩ := preceded e mem usable isPayg
        have first : e.created ≤ s.created := by
          have := least s memS usableS
          grind
        exact absurd ((ranks_created s e).mp older) (not_lt.mpr first)
      · simp [only r memR usableR]
    · intro r memR usableR _ same
      have := least r memR usableR
      grind

theorem view_eq_selected_purchase_first :
    let ents := [grantRow "payg" .payg ["m"] 2, grantRow "plan" .order ["m"] 1]
    ∃ e, selectViewEntitlement ents 5 = some e ∧ selectEntitlement ents "m" 5 = .ok e := by
  intro ents
  refine (view_eq_selected_iff (by decide +kernel) ?_ ?_).mpr (.inl ?_)
  · exact ⟨grantRow "plan" .order ["m"] 1, by simp [ents], rfl⟩
  · decide +kernel
  · decide +kernel

/-- A pay-as-you-go row older than the purchase is shown, while calls are charged to the
purchase. -/
theorem view_shows_older_payg :
    let ents := [grantRow "payg" .payg ["m"] 1, grantRow "plan" .order ["m"] 2]
    Distinct ents ∧ (∃ r ∈ ents, r.usable 5 = true) ∧
      (∀ r ∈ ents, r.usable 5 = true → r.allowsModel "m" = true) ∧
      selectViewEntitlement ents 5 = some (grantRow "payg" .payg ["m"] 1) ∧
      selectEntitlement ents "m" 5 = .ok (grantRow "plan" .order ["m"] 2) := by
  decide +kernel

end YunhouUsers.Inference.Entitlements
