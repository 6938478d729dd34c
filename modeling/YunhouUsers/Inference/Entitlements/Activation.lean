import YunhouUsers.Inference.Entitlements.BenefitGrant

/-!
The expiry a paid coding-plan order writes (`access.ResolveCodingPlanActivation`).

An absent expiry is an open end. The interval is capped so that days fit the clock's durations,
hence days are plain integers here.
-/

namespace YunhouUsers.Inference.Entitlements

inductive OrderKind where
  | unset
  | new
  | renewal
  | upgrade
  | other (text : String)
deriving DecidableEq

structure CodingPlanActivation where
  expiresAt : Option Int := none
  blocked : String := ""
deriving DecidableEq

def day : Int := 24 * 3600 * 1000000

def maxIntervalDays : Int := 365 * 290

def rollFrom (current : Option Int) (intervalDays : Int) : Option Int :=
  match current with
  | none => none
  | some expiry => if intervalDays ≤ 0 then none else some (expiry + intervalDays * day)

def freshFromNow (now intervalDays : Int) : Option Int :=
  if intervalDays ≤ 0 then none else some (now + intervalDays * day)

def SubscriptionState.live (s : SubscriptionState) (now : Int) : Bool :=
  s.status = .active && match s.expiresAt with
    | none => true
    | some expiry => now < expiry

/-- The hint, clamped to `[now, now + interval]`, where it lies after the base. -/
def honourHint (hint base : Option Int) (now intervalDays : Int) : Option Int :=
  match hint, base with
  | some hint, some base =>
    let c := if hint < now then now else hint
    let c := if intervalDays > 0 ∧ now + intervalDays * day < c then now + intervalDays * day else c
    if base < c then some c else some base
  | _, base => base

def conflict : CodingPlanActivation := { blocked := "conflict_existing_other_plan" }

def resolveCodingPlanActivation (kind : OrderKind) (intervalDays : Int)
    (upgradeFromPlanId : Option String) (orderPlanId : String)
    (current : Option SubscriptionState) (hint : Option Int) (now : Int) :
    Except Err CodingPlanActivation :=
  let fresh := freshFromNow now intervalDays
  let activate := fun base => .ok { expiresAt := honourHint hint base now intervalDays }
  if intervalDays > maxIntervalDays then
    .error (.domain .invalidInput "benefit activation: interval_days exceeds safety cap")
  else match kind with
    -- two cases of the source with one body
    | .new | .unset | .renewal =>
      match current.filter (fun s => s.live now) with
      | some s =>
        if s.planId ≠ orderPlanId then .ok conflict
        else activate (rollFrom s.expiresAt intervalDays)
      | none => activate fresh
    | .upgrade =>
      match current.filter (fun s => s.live now) with
      | some s =>
        if upgradeFromPlanId = some s.planId then activate fresh
        else if s.planId = orderPlanId then activate (rollFrom s.expiresAt intervalDays)
        else .ok conflict
      | none => activate fresh
    | .other text =>
      .error (.domain .invalidInput ("benefit activation: unknown order kind " ++ text))

/-- What an order froze at its creation, and the hint of the channel that paid it. -/
structure PaidOrder where
  kind : OrderKind
  intervalDays : Int
  upgradeFromPlanId : Option String
  planId : String
  hint : Option Int
deriving DecidableEq

namespace PaidOrder

variable (o : PaidOrder)

def resolve (current : Option SubscriptionState) (now : Int) : Except Err CodingPlanActivation :=
  resolveCodingPlanActivation o.kind o.intervalDays o.upgradeFromPlanId o.planId current o.hint now

/-- Paying the order: a conflict or an error leaves the subscription alone, and a first payment
makes a row like `created`. -/
def applyTo (created : SubscriptionState) (now : Int)
    (current : Option SubscriptionState) : Option SubscriptionState :=
  match o.resolve current now with
  | .ok activation =>
    if activation.blocked = "" then
      some { current.getD created with
        planId := o.planId
        status := .active
        expiresAt := activation.expiresAt }
    else current
  | .error _ => current

def Supersedes (planId : String) : Prop :=
  o.kind = .upgrade ∧ o.upgradeFromPlanId = some planId

/-- An upgrade is from another plan (the check `from_plan_id <> to_plan_id` of the upgrade rules). -/
def FromOther : Prop := ¬ o.Supersedes o.planId

/-- Some plan is live that is neither the order's nor replaced by it. -/
def Conflicts (current : Option SubscriptionState) (now : Int) : Prop :=
  ∃ s ∈ current, s.live now = true ∧ s.planId ≠ o.planId ∧ ¬ o.Supersedes s.planId

def Valid : Prop :=
  o.intervalDays ≤ maxIntervalDays ∧ ∀ text, o.kind ≠ .other text

instance (o : PaidOrder) (planId : String) : Decidable (o.Supersedes planId) :=
  inferInstanceAs (Decidable (_ ∧ _))

end PaidOrder

/-- `a` is not earlier than `b`, where an absent instant is later than every other. -/
def NotBefore : Option Int → Option Int → Prop
  | none, _ => True
  | some _, none => False
  | some a, some b => b ≤ a

theorem NotBefore.refl (a : Option Int) : NotBefore a a := by
  cases a <;> simp [NotBefore]

theorem NotBefore.trans {a b c : Option Int} (ab : NotBefore a b) (bc : NotBefore b c) :
    NotBefore a c := by
  cases a with
  | none => trivial
  | some a =>
    cases b with
    | none => exact ab.elim
    | some b =>
      cases c with
      | none => exact bc.elim
      | some c => exact Int.le_trans bc ab

theorem interval_pos {intervalDays : Int} (positive : ¬ intervalDays ≤ 0) :
    0 < intervalDays * day := by
  unfold day
  omega

theorem rollFrom_notBefore (expiry : Option Int) (intervalDays : Int) :
    NotBefore (rollFrom expiry intervalDays) expiry := by
  unfold rollFrom
  cases expiry with
  | none => trivial
  | some expiry =>
    dsimp only
    split
    · trivial
    · rename_i positive
      have := interval_pos positive
      simp only [NotBefore]
      omega

theorem freshFromNow_notBefore (now intervalDays : Int) :
    NotBefore (freshFromNow now intervalDays) (some now) :=
  rollFrom_notBefore (some now) intervalDays

theorem rollFrom_notBefore_fresh {expiry : Option Int} {now : Int}
    (live : ∀ t, expiry = some t → now < t) (intervalDays : Int) :
    NotBefore (rollFrom expiry intervalDays) (freshFromNow now intervalDays) := by
  unfold rollFrom freshFromNow
  cases expiry with
  | none => trivial
  | some expiry =>
    have := live expiry rfl
    dsimp only
    split
    · trivial
    · simp only [NotBefore]
      omega

theorem rollFrom_comm (expiry : Option Int) (i j : Int) :
    rollFrom (rollFrom expiry i) j = rollFrom (rollFrom expiry j) i := by
  unfold rollFrom
  cases expiry with
  | none => rfl
  | some expiry =>
    by_cases hi : i ≤ 0 <;> by_cases hj : j ≤ 0 <;> simp [hi, hj]
    omega

theorem honourHint_eq {base : Option Int} {now intervalDays : Int} (hint : Option Int)
    (covers : NotBefore base (freshFromNow now intervalDays)) :
    honourHint hint base now intervalDays = base := by
  unfold honourHint
  cases hint with
  | none => rfl
  | some hint =>
    cases base with
    | none => rfl
    | some base =>
      unfold freshFromNow at covers
      split at covers
      · exact covers.elim
      · rename_i positive
        simp only [NotBefore] at covers
        have := interval_pos positive
        grind

namespace PaidOrder

variable {o o₁ o₂ : PaidOrder} {current : Option SubscriptionState} {now : Int}

inductive Verdict (o : PaidOrder) (current : Option SubscriptionState) (now : Int) :
    CodingPlanActivation → Prop
  | blocked (conflicts : o.Conflicts current now) : Verdict o current now conflict
  | rolls {s : SubscriptionState} (is : current = some s) (live : s.live now = true)
      (same : s.planId = o.planId) (keeps : ¬ o.Supersedes s.planId) :
      Verdict o current now { expiresAt := rollFrom s.expiresAt o.intervalDays }
  | fresh (free : ∀ s ∈ current, s.live now = true → o.Supersedes s.planId) :
      Verdict o current now { expiresAt := freshFromNow now o.intervalDays }

variable {s : SubscriptionState}

theorem live_after (live : s.live now = true) : ∀ t, s.expiresAt = some t → now < t := by
  intro t is
  simp only [SubscriptionState.live, is, Bool.and_eq_true, decide_eq_true_eq] at live
  exact live.2

theorem honourHint_fresh (hint : Option Int) (now intervalDays : Int) :
    honourHint hint (freshFromNow now intervalDays) now intervalDays =
      freshFromNow now intervalDays :=
  honourHint_eq hint (NotBefore.refl _)

theorem honourHint_rolled (hint : Option Int) (live : s.live now = true) (intervalDays : Int) :
    honourHint hint (rollFrom s.expiresAt intervalDays) now intervalDays =
      rollFrom s.expiresAt intervalDays :=
  honourHint_eq hint (rollFrom_notBefore_fresh (live_after live) intervalDays)

theorem resolve_ok (valid : o.Valid) (current : Option SubscriptionState) (now : Int) :
    ∃ activation, o.resolve current now = .ok activation ∧ o.Verdict current now activation := by
  obtain ⟨kind, intervalDays, from_, planId, hint⟩ := o
  obtain ⟨capped, known⟩ := valid
  simp only [resolve, resolveCodingPlanActivation, Int.not_lt.mpr capped, if_false, honourHint_fresh]
  -- without a live subscription every kind starts afresh
  cases isLive : current.filter (fun s => s.live now) with
  | none =>
    have free : ∀ s ∈ current, s.live now = true → False := by
      intro s is live
      have := Option.filter_eq_none_iff.mp isLive s is
      exact this live
    have fresh := @Verdict.fresh ⟨kind, intervalDays, from_, planId, hint⟩ current now
      (fun s is live => (free s is live).elim)
    cases kind with
    | other text => exact absurd rfl (known text)
    | unset | new | renewal | upgrade => exact ⟨_, rfl, fresh⟩
  | some s =>
    obtain ⟨is, live⟩ := Option.filter_eq_some_iff.mp isLive
    simp only [honourHint_rolled hint live]
    cases kind with
    | other text => exact absurd rfl (known text)
    | unset | new | renewal =>
      by_cases same : s.planId = planId
      · exact ⟨_, if_neg (not_not_intro same), .rolls is live same (fun sup => nomatch sup.1)⟩
      · exact ⟨_, if_pos same, .blocked ⟨s, is, live, same, fun sup => nomatch sup.1⟩⟩
    | upgrade =>
      by_cases pinned : from_ = some s.planId
      · refine ⟨_, if_pos pinned, .fresh fun s' is' _ => ⟨rfl, ?_⟩⟩
        rw [Option.mem_def, is] at is'
        cases is'
        exact pinned
      · by_cases same : s.planId = planId
        · exact ⟨_, (if_neg pinned).trans (if_pos same),
            .rolls is live same (fun sup => pinned sup.2)⟩
        · exact ⟨_, (if_neg pinned).trans (if_neg same),
            .blocked ⟨s, is, live, same, fun sup => pinned sup.2⟩⟩

theorem resolve_error (invalid : ¬ o.Valid) (current : Option SubscriptionState) (now : Int) :
    ∃ err, o.resolve current now = .error err := by
  unfold resolve resolveCodingPlanActivation
  dsimp only
  split
  · exact ⟨_, rfl⟩
  · rename_i capped
    have unknown : ∃ text, o.kind = .other text := by
      by_contra known
      exact invalid ⟨Int.not_lt.mp capped, fun text is => known ⟨text, is⟩⟩
    obtain ⟨text, is⟩ := unknown
    rw [is]
    exact ⟨_, rfl⟩

theorem resolve_hint (o : PaidOrder) (current : Option SubscriptionState) (now : Int)
    (hint : Option Int) : o.resolve current now = { o with hint := hint }.resolve current now := by
  unfold resolve resolveCodingPlanActivation
  simp only [honourHint_fresh]
  cases found : current.filter (fun s => s.live now) with
  | none => rfl
  | some s =>
    have live := (Option.filter_eq_some_iff.mp found).2
    simp only [honourHint_rolled _ live]

/-! Blocking and the written expiry. -/

variable {activation : CodingPlanActivation}

theorem Verdict.blocked_iff (verdict : o.Verdict current now activation) :
    activation.blocked ≠ "" ↔ o.Conflicts current now := by
  cases verdict with
  | blocked conflicts => simp [conflict, conflicts]
  | rolls is live same keeps =>
    simp only [ne_eq, not_true, false_iff]
    rintro ⟨s, is', -, differ, -⟩
    rw [Option.mem_def, is] at is'
    cases is'
    exact differ same
  | fresh free =>
    simp only [ne_eq, not_true, false_iff]
    rintro ⟨s, is, live, -, keeps⟩
    exact keeps (free s is live)

theorem Verdict.lasts
    (verdict : o.Verdict current now activation) (applied : activation.blocked = "") :
    NotBefore activation.expiresAt (some now) ∧
      (o.FromOther → ∀ s ∈ current, s.live now = true → s.planId = o.planId →
        NotBefore activation.expiresAt s.expiresAt) := by
  cases verdict with
  | blocked conflicts => simp [conflict] at applied
  | @rolls s is live same keeps =>
    constructor
    · exact (rollFrom_notBefore_fresh (live_after live) o.intervalDays).trans
        (freshFromNow_notBefore now o.intervalDays)
    · intro _ s' is' _ _
      rw [Option.mem_def, is] at is'
      cases is'
      exact rollFrom_notBefore s.expiresAt o.intervalDays
  | fresh free =>
    refine ⟨freshFromNow_notBefore now o.intervalDays, ?_⟩
    intro other s is live same
    exact absurd (same ▸ free s is live) other

theorem Verdict.bounded {expiry : Int}
    (verdict : o.Verdict current now activation) (written : activation.expiresAt = some expiry) :
    expiry ≤ max (((current.filter (fun s => s.live now)).bind (·.expiresAt)).getD now) now
      + o.intervalDays * day := by
  cases verdict with
  | blocked conflicts => cases written
  | @rolls s is live same keeps =>
    simp only [is, Option.filter_some, live, if_true, Option.bind_some]
    unfold rollFrom at written
    cases expires : s.expiresAt with
    | none => simp [expires] at written
    | some t =>
      simp only [expires] at written
      split at written
      · cases written
      · cases written
        simp only [Option.getD_some]
        omega
  | fresh free =>
    unfold freshFromNow at written
    split at written
    · cases written
    · cases written
      omega

/-! Two orders of one plan. -/

/-- What an order of the plan extends: the plan's live expiry, or the present. -/
def start (planId : String) (current : Option SubscriptionState) (now : Int) : Option Int :=
  match current.filter (fun s => s.live now) with
  | some s => if s.planId = planId then s.expiresAt else some now
  | none => some now

theorem start_of_live (live : s.live now = true) {planId : String}
    (same : s.planId = planId) : start planId (some s) now = s.expiresAt := by
  simp [start, Option.filter_some, live, same]

theorem start_live (planId : String) (current : Option SubscriptionState) (intervalDays : Int) :
    ∀ t, rollFrom (start planId current now) intervalDays = some t → now < t := by
  intro t written
  have begins : ∀ b, start planId current now = some b → now ≤ b := by
    intro b is
    unfold start at is
    split at is
    · rename_i s found
      split at is
      · exact Int.le_of_lt (live_after (Option.filter_eq_some_iff.mp found).2 b is)
      · cases is
        exact Int.le_refl now
    · cases is
      exact Int.le_refl now
  unfold rollFrom at written
  split at written
  · cases written
  · rename_i b is
    have := begins b is
    split at written
    · cases written
    · rename_i positive
      have := interval_pos positive
      cases written
      omega

theorem Verdict.expiresAt_eq
    (verdict : o.Verdict current now activation) (applied : activation.blocked = "")
    (other : o.FromOther) :
    activation.expiresAt = rollFrom (start o.planId current now) o.intervalDays := by
  unfold start
  cases verdict with
  | blocked conflicts => simp [conflict] at applied
  | rolls is live same keeps => simp [is, Option.filter_some, live, same]
  | fresh free =>
    cases found : current.filter (fun s => s.live now) with
    | none => rfl
    | some s =>
      obtain ⟨is, live⟩ := Option.filter_eq_some_iff.mp found
      have differ : s.planId ≠ o.planId := by
        intro same
        exact other (same ▸ free s is live)
      simp only [differ, if_false]
      rfl

theorem applyTo_of_invalid (invalid : ¬ o.Valid) (created : SubscriptionState) (now : Int)
    (current : Option SubscriptionState) : o.applyTo created now current = current := by
  obtain ⟨err, failed⟩ := resolve_error invalid current now
  simp only [applyTo, failed]

theorem applyTo_of_conflict (conflicts : o.Conflicts current now) (created : SubscriptionState) :
    o.applyTo created now current = current := by
  by_cases valid : o.Valid
  · obtain ⟨activation, ok, verdict⟩ := resolve_ok valid current now
    simp only [applyTo, ok, if_neg (verdict.blocked_iff.mpr conflicts)]
  · exact applyTo_of_invalid valid created now current

def granted (o : PaidOrder) (created : SubscriptionState) (now : Int)
    (current : Option SubscriptionState) : SubscriptionState :=
  { current.getD created with
    planId := o.planId
    status := .active
    expiresAt := rollFrom (start o.planId current now) o.intervalDays }

theorem applyTo_eq (valid : o.Valid) (other : o.FromOther) (free : ¬ o.Conflicts current now)
    (created : SubscriptionState) :
    o.applyTo created now current = some (o.granted created now current) := by
  obtain ⟨activation, ok, verdict⟩ := resolve_ok valid current now
  have applied : activation.blocked = "" := by
    by_contra blocked
    exact free (verdict.blocked_iff.mp blocked)
  simp [applyTo, ok, applied, verdict.expiresAt_eq applied other, granted]

theorem applyTo_applied (valid₁ : o₁.Valid) (valid₂ : o₂.Valid) (other₁ : o₁.FromOther)
    (other₂ : o₂.FromOther) (same : o₁.planId = o₂.planId) (free : ¬ o₁.Conflicts current now)
    (created : SubscriptionState) :
    (o₂.applyTo created now (o₁.applyTo created now current)).map (·.expiresAt) =
      some (rollFrom (rollFrom (start o₁.planId current now) o₁.intervalDays) o₂.intervalDays) := by
  have live : (o₁.granted created now current).live now = true := by
    have ahead : ∀ t, rollFrom (start o₁.planId current now) o₁.intervalDays = some t → now < t :=
      start_live o₁.planId current o₁.intervalDays
    unfold SubscriptionState.live granted
    cases expires : rollFrom (start o₁.planId current now) o₁.intervalDays with
    | none => rfl
    | some t => simpa using ahead t expires
  have free₂ : ¬ o₂.Conflicts (some (o₁.granted created now current)) now := by
    rintro ⟨s, is, -, differ, -⟩
    cases is
    exact differ same
  rw [applyTo_eq valid₁ other₁ free, applyTo_eq valid₂ other₂ free₂]
  change some (rollFrom (start o₂.planId (some (o₁.granted created now current)) now)
    o₂.intervalDays) = _
  rw [start_of_live live same]
  rfl

theorem applyTo_comm (created : SubscriptionState) (other₁ : o₁.FromOther) (other₂ : o₂.FromOther)
    (same : o₁.planId = o₂.planId)
    (alike : o₁.Conflicts current now ↔ o₂.Conflicts current now) :
    (o₂.applyTo created now (o₁.applyTo created now current)).map (·.expiresAt) =
      (o₁.applyTo created now (o₂.applyTo created now current)).map (·.expiresAt) := by
  by_cases valid₁ : o₁.Valid
  · by_cases valid₂ : o₂.Valid
    · by_cases conflicts : o₁.Conflicts current now
      · rw [applyTo_of_conflict conflicts, applyTo_of_conflict (alike.mp conflicts),
          applyTo_of_conflict conflicts]
      · rw [applyTo_applied valid₁ valid₂ other₁ other₂ same conflicts,
          applyTo_applied valid₂ valid₁ other₂ other₁ same.symm (fun c => conflicts (alike.mpr c)),
          same, rollFrom_comm]
    · simp only [applyTo_of_invalid valid₂]
  · simp only [applyTo_of_invalid valid₁]

/-- A paid order never takes time away: what it writes lasts from now on and at least as long as
the plan it renews, the hint changes nothing it could not, orders of one plan commute unless the
subscription stands in the way of just one of them, and only a live plan that the order neither
renews nor replaces blocks it. -/
theorem resolve_never_shortens (o : PaidOrder) (current : Option SubscriptionState) (now : Int) :
    (∀ activation, o.resolve current now = .ok activation → activation.blocked = "" →
      NotBefore activation.expiresAt (some now) ∧
      (o.FromOther → ∀ s ∈ current, s.live now = true → s.planId = o.planId →
        NotBefore activation.expiresAt s.expiresAt) ∧
      (∀ plain, { o with hint := none }.resolve current now = .ok plain →
        NotBefore activation.expiresAt plain.expiresAt) ∧
      ∀ expiry, activation.expiresAt = some expiry →
        expiry ≤ max
          (((current.filter (fun s => s.live now)).bind (·.expiresAt)).getD now) now
          + o.intervalDays * day) ∧
    (∀ (o' : PaidOrder) (created : SubscriptionState), o.FromOther → o'.FromOther →
      o'.planId = o.planId → (o.Conflicts current now ↔ o'.Conflicts current now) →
      (o'.applyTo created now (o.applyTo created now current)).map (·.expiresAt) =
        (o.applyTo created now (o'.applyTo created now current)).map (·.expiresAt)) ∧
    ∀ activation, o.resolve current now = .ok activation →
      (activation.blocked ≠ "" ↔ o.Conflicts current now) := by
  have verdict_of : ∀ activation, o.resolve current now = .ok activation →
      o.Verdict current now activation := by
    intro activation ok
    by_cases valid : o.Valid
    · obtain ⟨activation', ok', verdict⟩ := resolve_ok valid current now
      cases ok.symm.trans ok'
      exact verdict
    · obtain ⟨err, failed⟩ := resolve_error valid current now
      cases ok.symm.trans failed
  refine ⟨?_, ?_, fun activation ok => (verdict_of activation ok).blocked_iff⟩
  · intro activation ok applied
    have verdict := verdict_of activation ok
    obtain ⟨lasts, renews⟩ := verdict.lasts applied
    refine ⟨lasts, renews, ?_, fun expiry => verdict.bounded⟩
    intro plain ok'
    rw [resolve_hint o current now none, ok'] at ok
    cases ok
    exact NotBefore.refl _
  · intro o' created other other' same alike
    exact applyTo_comm created other other' same.symm alike

end PaidOrder

/-- A purchase of plan `p` that the live plan `x` blocks, next to an upgrade from `x` to `p`, and
an upgrade pinned to its own plan: the two arrivals end at different instants, and the third order
cuts a month down to a day. -/
theorem orders_need_not_commute :
    let row : SubscriptionState := ⟨"s", "u", "x", "coding-plan", .active, some (5 * day)⟩
    let purchase : PaidOrder := ⟨.new, 30, none, "p", none⟩
    let upgrade : PaidOrder := ⟨.upgrade, 30, some "x", "p", none⟩
    let selfUpgrade : PaidOrder := ⟨.upgrade, 1, some "p", "p", none⟩
    (upgrade.applyTo row 0 (purchase.applyTo row 0 (some row))).map (·.expiresAt) =
        some (some (30 * day)) ∧
      (purchase.applyTo row 0 (upgrade.applyTo row 0 (some row))).map (·.expiresAt) =
        some (some (60 * day)) ∧
      selfUpgrade.resolve (some { row with planId := "p", expiresAt := some (30 * day) }) 0 =
        .ok { expiresAt := some (1 * day) } := by
  decide +kernel

end YunhouUsers.Inference.Entitlements
