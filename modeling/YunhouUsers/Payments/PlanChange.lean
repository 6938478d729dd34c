import YunhouUsers.Payments.ChannelSubscription
import YunhouUsers.ReadCommitted.Contract

/-!
What Paddle is asked to do to a subscription, under any interleaving of upgrades, plan changes
and cancellations.
-/

namespace YunhouUsers.Payments

open ReadCommitted Table

def longerCycle (plans : List Plan) (current target : Id) : Bool :=
  match plans.find? (·.id = current), plans.find? (·.id = target) with
  | some c, some t => c.intervalDays < t.intervalDays
  | _, _ => false

variable {plans : List Plan}

theorem longerCycle_trans {a b c : Id} (first : longerCycle plans a b = true)
    (second : longerCycle plans b c = true) : longerCycle plans a c = true := by
  unfold longerCycle at *
  cases pa : plans.find? (·.id = a) <;> cases pb : plans.find? (·.id = b) <;>
    cases pc : plans.find? (·.id = c) <;> simp_all
  omega

theorem longerCycle_ne {a b : Id} (longer : longerCycle plans a b = true) : b ≠ a := by
  rintro rfl
  unfold longerCycle at longer
  cases found : plans.find? (·.id = b) <;> simp [found] at longer

structure PriceUpdate.Guarded (u : PriceUpdate) (held : List (LockKey × LockMode)) (db : Db) :
    Prop where
  locked : (.subscription u.subId, .update) ∈ held
  row : ∃ row, db.findSubscription u.subId = some row ∧ row.status = .active ∧
    match u.caller with
    | .changePlanByID =>
      row.autoRenew = true ∧ longerCycle db.plans row.planId u.targetPlanId = true
    | .upgradeChannelSubscription planRead =>
      longerCycle db.plans planRead u.targetPlanId = true

def PriceUpdate.Upward (u : PriceUpdate) (db : Db) : Prop :=
  ∃ row, db.findSubscription u.subId = some row ∧
    longerCycle db.plans row.planId u.targetPlanId = true

structure Moves (fresh : Prop) (held : List (LockKey × LockMode)) (db db' : Db) : Prop where
  locked : ∀ id, db'.findSubscription id = db.findSubscription id ∨
    (.subscription id, .noKeyUpdate) ∈ held
  upward : fresh → ∀ id row, db.findSubscription id = some row →
    ∃ row', db'.findSubscription id = some row' ∧
      (row'.planId = row.planId ∨ longerCycle db.plans row.planId row'.planId = true)

def stillOn (subId planRead : Id) (db : Db) : Prop :=
  ∀ row, db.findSubscription subId = some row → row.planId = planRead

variable {subId : Id}

def terms (plans : List Plan) (fresh : Prop) : Contract Db LockKey Stmt where
  inv db := db.plans = plans
  guarantee := Moves fresh
  idle _ _ := ⟨fun _ => .inl rfl, fun _ _ row found => ⟨row, found, .inl rfl⟩⟩
  ready l db :=
    match l with
    | .lockForUpgrade subId planRead => fresh → stillOn subId planRead db
    | _ => True
  checks l held db _ :=
    match l with
    | .updateSubscriptionPrice u => u.Guarded held db ∧ (fresh → u.Upward db)
    | _ => True

section Bodies

variable {plans : List Plan} {fresh : Prop} {held : List (LockKey × LockMode)} {K : Db → Prop}

theorem mayCommit_id (stable : (terms plans fresh).Stable held K) :
    (terms plans fresh).MayCommit K held id :=
  ⟨stable.at _, fun db inv _ => ⟨inv, (terms plans fresh).idle held db⟩⟩

theorem true_stable : (terms plans fresh).Stable held fun _ => True :=
  (terms plans fresh).stable_true held

theorem row_stable {id : Id} {row : Option Subscription}
    (locked : (.subscription id, .update) ∈ held) :
    (terms plans fresh).Stable held fun db => db.findSubscription id = row := by
  intro other db db' compatible _ _ moves found
  rcases moves.locked id with same | theirs
  · rw [same, found]
  · exact absurd theirs (compatible.not_mem locked rfl)

variable {p : Subscription → Bool} {f : Subscription → Subscription}

theorem findSubscription_update {db : Db} {id : Id} (same : ∀ s, (f s).id = s.id) (other : Id) :
    Db.findSubscription { db with
        subscriptions := updateWhere (fun s => s.id = id && p s) f db.subscriptions } other =
      (db.findSubscription other).map fun s => if s.id = id && p s then f s else s :=
  find_updateWhere same _ other db.subscriptions

variable {op : String}

theorem updateSubscription_meets {post : Post Db LockKey Bool}
    (same : ∀ s, (f s).id = s.id) (stable : (terms plans fresh).Stable held K)
    (upward : fresh → ∀ db row, db.plans = plans → K db → db.findSubscription subId = some row →
      p row = true →
      (f row).planId = row.planId ∨ longerCycle plans row.planId (f row).planId = true)
    (done : ∀ hit held' pending', (terms plans fresh).Stable held' K →
      (∀ db, db.plans = plans → K db → (pending' db).plans = plans ∧
        Moves fresh held' db (pending' db)) → post hit K held' pending') :
    (updateSubscription op subId p f).Meets (terms plans fresh) K held id post := by
  refine .exec (stable.at _) fun view inv known _ => ⟨trivial, fun hit _ => ⟨K, known, ?_⟩⟩
  refine done hit _ _ (stable.append _) fun db inv known => ?_
  by_cases hits : view.hitsSubscription subId p = true
  · simp only [id_eq, hits, if_true]
    refine ⟨inv, fun other => ?_, fun up other row found => ?_⟩
    · by_cases mine : other = subId
      · exact .inr (by simp [mine])
      · left
        rw [findSubscription_update same]
        cases found : db.findSubscription other with
        | none => rfl
        | some row =>
          have key : row.id = other := (find_key found).2
          simp [key, mine]
    · rw [findSubscription_update same, found]
      refine ⟨_, rfl, ?_⟩
      have key : row.id = other := (find_key found).2
      dsimp only
      split
      · rename_i hit
        simp only [Bool.and_eq_true, decide_eq_true_eq] at hit
        obtain ⟨mine, meets⟩ := hit
        rw [inv]
        exact upward up db row inv known (by rw [← mine, key, found]) meets
      · exact .inl rfl
  · simp only [id_eq, hits, Bool.false_eq_true, if_false]
    exact ⟨inv, (terms plans fresh).idle _ db⟩

theorem query_meets {α : Type} {read : Db → α} {post : Post Db LockKey α}
    (stable : (terms plans fresh).Stable held K)
    (h : ∀ db, db.plans = plans → K db → post (read db) K held id) :
    (Txn.query (.sql op) read : Tx α).Meets (terms plans fresh) K held id post :=
  .query (stable.at _) fun db inv known _ => ⟨trivial, K, known, h db inv known⟩

theorem findPlan_meets {planId : Id} {post : Post Db LockKey Plan}
    (stable : (terms plans fresh).Stable held K)
    (h : ∀ plan, plans.find? (·.id = planId) = some plan → post plan K held id) :
    (findPlan op planId).Meets (terms plans fresh) K held id post := by
  refine .bind (query_meets stable fun db inv known => .orThrow fun plan found => h plan ?_)
  rw [← inv]
  exact found

variable {post : Post Db LockKey Subscription}

theorem findSubscription_meets
    (stable : (terms plans fresh).Stable held K) (h : ∀ sub, post sub K held id) :
    (findSubscription subId).Meets (terms plans fresh) K held id post :=
  .bind (query_meets stable fun _ _ _ => .orThrow fun sub _ => h sub)

theorem activePaddleSub_meets {userId : Id}
    (stable : (terms plans fresh).Stable held K) (h : ∀ sub, post sub K held id) :
    (activePaddleSub userId).Meets (terms plans fresh) K held id post :=
  .bind (query_meets stable fun _ _ _ => .bind (.orThrow fun sub _ => .bind (.require fun _ =>
    .pure (h sub))))

theorem ofExcept_meets {α : Type} {r : Except Err α}
    {post : Post Db LockKey α}
    (h : ∀ a, post a K held id) : (ofExcept r).Meets (terms plans fresh) K held id post := by
  cases r with
  | ok a => exact h a
  | error e => trivial

theorem lockSubscription_meets {stmt : Stmt}
    (unchecked : ∀ db, (terms plans fresh).checks stmt held db db)
    (stable : (terms plans fresh).Stable held K)
    (h : ∀ db locked, db.findSubscription subId = some locked → (terms plans fresh).ready stmt db →
      post locked (fun db => db.findSubscription subId = some locked)
        ((.subscription subId, .update) :: held) id) :
    (lockSubscription stmt subId).Meets (terms plans fresh) K held id post := by
  refine .bind (.queryLocking (stable.at _) fun db inv known ready => ⟨unchecked db, ?_⟩)
  refine ⟨fun d => d.findSubscription subId = db.findSubscription subId, rfl, ?_⟩
  refine .orThrow fun locked found => ?_
  have same : db.findSubscription subId = some locked := found
  have key : locked.id = subId := (find_key same).2
  simp only [id_eq, same, Option.toList_some, List.map_cons, List.map_nil, key, List.cons_append,
    List.nil_append]
  exact h db locked same ready

abbrev Commits (plans : List Plan) (fresh : Prop) (t : Tx α) : Prop :=
  t.Meets (terms plans fresh) (fun _ => True) [] id fun _ => (terms plans fresh).MayCommit

theorem inTx_meets {t : Tx Reply} (h : Commits plans fresh t) :
    (t.inTx fun r => (.done (.of r) : Program)).Meets (terms plans fresh) noTerms (fun _ => True)
      [] id := by
  refine Txn.Meets.inTx (g := fun _ => True) (fun _ _ => trivial) (fun _ => trivial) ?_
  exact h.mono fun _ _ _ _ may => ⟨trivial, may, fun _ _ _ => trivial⟩

theorem readThen_meets {α : Type} {reads : Tx α} {body : α → Tx Reply} {good : α → Prop}
    (first : reads.Meets (terms plans fresh) (fun _ => True) [] id fun a K held pending =>
      good a ∧ (terms plans fresh).MayCommit K held pending)
    (second : ∀ a, good a → Commits plans fresh (body a)) :
    (readThen reads body).Meets (terms plans fresh) noTerms (fun _ => True) [] id := by
  refine Txn.Meets.inTx (fun a ok => inTx_meets (second a ok)) (fun _ => trivial) ?_
  exact first.mono fun _ _ _ _ ⟨good, may⟩ => ⟨good, may, fun _ _ _ => trivial⟩

/-! ### The programs -/

variable {toPlan : Plan} {sub : Subscription}

theorem requireTarget_meets {post : Post Db LockKey Unit} (h : post () K held id) :
    (requireTarget toPlan sub).Meets (terms plans fresh) K held id post :=
  .bind (.require fun _ => .bind (.require fun _ => .require fun _ => h))

theorem longerCycle_of_found {current target : Id} {fromPlan : Plan}
    (isFrom : plans.find? (·.id = current) = some fromPlan)
    (isTo : plans.find? (·.id = target) = some toPlan)
    (longer : decide (fromPlan.intervalDays < toPlan.intervalDays) = true) :
    longerCycle plans current target = true := by
  simp only [longerCycle, isFrom, isTo]
  exact longer

variable (svc : Service)

theorem upgradeReads_meets (call : UpgradeCall) :
    (upgradeReads svc call).Meets (terms plans fresh) (fun _ => True) [] id
      fun r K held pending => longerCycle plans r.1.planId call.targetPlanId = true ∧
        (terms plans fresh).MayCommit K held pending := by
  refine .bind (.require fun _ => .bind (activePaddleSub_meets true_stable fun sub => ?_))
  refine .bind (.require fun _ => .bind (findPlan_meets true_stable fun toPlan isTo => ?_))
  refine .bind (requireTarget_meets (.bind (findPlan_meets true_stable fun fromPlan isFrom => ?_)))
  refine .bind (.require fun longer => .bind (.require fun _ => .pure ?_))
  exact ⟨longerCycle_of_found isFrom isTo longer, mayCommit_id true_stable⟩

theorem changeReads_meets (call : ChangeCall) :
    (changeReads svc call).Meets (terms plans fresh) (fun _ => True) [] id
      fun r K held pending => plans.find? (·.id = call.targetPlanId) = some r.2 ∧
        (terms plans fresh).MayCommit K held pending := by
  refine .bind (findSubscription_meets true_stable fun sub => ?_)
  refine .bind (.require fun _ => .bind (.require fun _ => .bind (.require fun _ => ?_)))
  refine .bind (findPlan_meets true_stable fun toPlan isTo => ?_)
  refine .bind (requireTarget_meets (.bind (findPlan_meets true_stable fun fromPlan isFrom => ?_)))
  refine .bind (.require fun _ => .bind (ofExcept_meets fun _ => .bind (.require fun _ => ?_)))
  exact .bind (.require fun _ => .bind (.require fun _ => .pure ⟨isTo, mayCommit_id true_stable⟩))

theorem sendAndSwitch_meets {update : PriceUpdate} {failure : PaddleError → Err}
    {answer : Except PaddleError (Option Int)} {missed : Err} {locked : Subscription}
    {reply : Int → Reply} (lock : (.subscription update.subId, .update) ∈ held)
    (guarded : ∀ db, db.plans = plans → db.findSubscription update.subId = some locked →
      update.Guarded held db)
    (longer : fresh → longerCycle plans locked.planId update.targetPlanId = true) :
    (do
      let nextBilled ← updateSubscriptionPrice update failure answer
      let expiresAt ← switchPlan update.subId update.targetPlanId toPlan nextBilled missed
      pure (reply expiresAt) : Tx Reply).Meets (terms plans fresh)
      (fun db => db.findSubscription update.subId = some locked) held id
      (fun _ => (terms plans fresh).MayCommit) := by
  have stable : (terms plans fresh).Stable held fun db =>
      db.findSubscription update.subId = some locked := row_stable lock
  refine .bind (.exec (stable.at _) fun db inv row _ => ⟨⟨guarded db inv row, fun up => ?_⟩, ?_⟩)
  · have longer := longer up
    rw [← show db.plans = plans from inv] at longer
    exact ⟨locked, row, longer⟩
  · intro nextBilled _
    refine ⟨_, row, .bind (.bind (query_meets stable fun db inv row => ?_))⟩
    refine .bind (updateSubscription_meets (fun _ => rfl) stable ?_ ?_)
    · intro up db row' inv known found _
      cases Option.some.inj (known.symm.trans found)
      exact .inr (longer up)
    · intro hit held' pending' stable' moves
      exact .bind (.require fun _ => .pure (.pure ⟨stable'.at _, moves⟩))

theorem upgradeBody_meets {call : UpgradeCall}
    (longer : longerCycle plans sub.planId call.targetPlanId = true) :
    Commits plans fresh (upgradeBody call sub toPlan) := by
  refine .bind (lockSubscription_meets (fun _ => trivial) true_stable fun db locked found ready => ?_)
  refine .bind (.require fun active => sendAndSwitch_meets List.mem_cons_self ?_ fun up => ?_)
  · intro db inv row
    refine ⟨List.mem_cons_self, locked, row, of_decide_eq_true active, ?_⟩
    rw [inv]
    exact longer
  · -- the lock found the plan the call had read
    rw [ready up locked found]
    exact longer

theorem changeBody_meets {call : ChangeCall}
    (isTo : plans.find? (·.id = call.targetPlanId) = some toPlan) :
    Commits plans fresh (changeBody call sub toPlan) := by
  refine .bind (lockSubscription_meets (fun _ => trivial) true_stable fun _ locked _ _ => ?_)
  refine .bind (.require fun active => .bind (.require fun renews => .bind (.require fun _ => ?_)))
  have stable : (terms plans fresh).Stable [(.subscription sub.id, .update)] fun db =>
      db.findSubscription sub.id = some locked := row_stable List.mem_cons_self
  refine .bind (findPlan_meets stable fun fromPlan isFrom => ?_)
  refine .bind (.require fun _ => .bind (.require fun cycles => ?_))
  have longer := longerCycle_of_found isFrom isTo cycles
  refine sendAndSwitch_meets List.mem_cons_self ?_ fun _ => longer
  intro db inv row
  refine ⟨List.mem_cons_self, locked, row, of_decide_eq_true active, renews, ?_⟩
  rw [inv]
  exact longer

theorem keepPlan_meets {post : Post Db LockKey Bool}
    (same : ∀ s, (f s).id = s.id) (keeps : ∀ s, (f s).planId = s.planId)
    (stable : (terms plans fresh).Stable held K)
    (done : ∀ hit held' pending', (terms plans fresh).MayCommit K held' pending' →
      post hit K held' pending') :
    (updateSubscription op subId p f).Meets (terms plans fresh) K held id post :=
  updateSubscription_meets same stable (fun _ _ row _ _ _ _ => .inl (keeps row))
    fun hit held' pending' stable' moves => done hit held' pending' ⟨stable'.at _, moves⟩

theorem cancelSubscription_meets {answer : Except PaddleError Unit}
    {post : Post Db LockKey (Except PaddleError Unit)}
    (stable : (terms plans fresh).Stable held K) (h : post answer K held id) :
    (cancelSubscription subId answer).Meets (terms plans fresh) K held id post := by
  refine .exec (stable.at _) fun db _ known _ => ⟨trivial, fun a ok => ⟨K, known, ?_⟩⟩
  cases ok
  exact h

theorem cancelReads_meets (call : CancelCall) :
    (cancelReads svc call).Meets (terms plans fresh) (fun _ => True) [] id
      fun _ K held pending => True ∧ (terms plans fresh).MayCommit K held pending := by
  refine .bind (findSubscription_meets true_stable fun sub => ?_)
  refine .bind (.require fun _ => .bind (.require fun _ => .bind (ofExcept_meets fun _ => ?_)))
  exact .bind (.require fun _ => .pure ⟨trivial, mayCommit_id true_stable⟩)

theorem cancelBody_meets (call : CancelCall) (sub : Subscription) :
    Commits plans fresh (cancelBody call sub) := by
  unfold cancelBody
  split
  · exact mayCommit_id true_stable
  refine .bind (lockSubscription_meets (fun _ => trivial) true_stable fun _ locked _ _ => ?_)
  have stable : (terms plans fresh).Stable [(.subscription sub.id, .update)] fun db =>
      db.findSubscription sub.id = some locked := row_stable List.mem_cons_self
  refine .bind (.require fun _ => ?_)
  split
  · exact mayCommit_id stable
  refine .bind (cancelSubscription_meets stable ?_)
  split
  · trivial
  · exact .bind (keepPlan_meets (fun _ => rfl) (fun _ => rfl) stable fun _ _ _ may => .pure may)

theorem channelCancelReads_meets (call : ChannelCancelCall) :
    (channelCancelReads svc call).Meets (terms plans fresh) (fun _ => True) [] id
      fun _ K held pending => True ∧ (terms plans fresh).MayCommit K held pending := by
  refine .bind (.require fun _ => .bind (activePaddleSub_meets true_stable fun sub => ?_))
  refine .bind (cancelSubscription_meets true_stable ?_)
  cases call.answer with
  | ok _ => exact ⟨trivial, mayCommit_id true_stable⟩
  | error e => trivial

theorem channelCancelFlip_meets (sub : Subscription) :
    Commits plans fresh (channelCancelFlip sub) :=
  .bind (keepPlan_meets (fun _ => rfl) (fun _ => rfl) true_stable fun _ _ _ may => .pure may)

theorem enqueueBenefitSync_meets {m : EntitlementSyncMessage} {pending : Db → Db}
    (stable : (terms plans fresh).Stable held K)
    (may : (terms plans fresh).MayCommit K held pending) :
    (enqueueBenefitSync m).Meets (terms plans fresh) K held pending
      fun _ => (terms plans fresh).MayCommit := by
  refine .exec (stable.at _) fun db _ known _ => ⟨trivial, fun _ _ => ⟨K, known, may.1, ?_⟩⟩
  intro db inv known
  obtain ⟨inv', moves⟩ := may.2 db inv known
  exact ⟨inv', moves.locked, moves.upward⟩

theorem endLocked_meets (sub : Subscription) {K : Db → Prop}
    (stable : (terms plans fresh).Stable held K) :
    (endLocked svc sub).Meets (terms plans fresh) K held id
      fun _ => (terms plans fresh).MayCommit := by
  unfold endLocked
  split
  · exact .bind (keepPlan_meets (fun _ => rfl) (fun _ => rfl) stable fun _ _ _ may => .pure may)
  · refine .bind (updateSubscription_meets (fun _ => rfl) stable (fun _ _ _ _ _ _ _ => .inl rfl) ?_)
    intro hit held' pending' stable' moves
    have may : (terms plans fresh).MayCommit K held' pending' := ⟨stable'.at _, moves⟩
    unfold Txn.when
    split
    · exact .bind (enqueueBenefitSync_meets stable' may)
    · exact may

theorem cancelledBody_meets (external : String) :
    Commits plans fresh (cancelledBody svc external) := by
  unfold cancelledBody
  split
  · exact mayCommit_id true_stable
  refine .bind (.queryLocking (true_stable.at _) fun db _ _ _ => ⟨trivial, fun _ => True, trivial, ?_⟩)
  split
  · exact mayCommit_id true_stable
  · exact endLocked_meets svc _ true_stable

theorem program_meets (call : Call) :
    (call.program svc).Meets (terms plans fresh) noTerms (fun _ => True) [] id := by
  cases call with
  | upgrade call =>
    exact readThen_meets (upgradeReads_meets svc call) fun _ longer => upgradeBody_meets longer
  | change call =>
    exact readThen_meets (changeReads_meets svc call) fun _ isTo => changeBody_meets isTo
  | cancel call =>
    exact readThen_meets (cancelReads_meets svc call) fun sub _ => cancelBody_meets call sub
  | channelCancel call =>
    exact readThen_meets (channelCancelReads_meets svc call) fun sub _ => channelCancelFlip_meets sub
  | cancelled external => exact inTx_meets (cancelledBody_meets svc external)

end Bodies

/-! ### Runs -/

section Runs

variable {ι : Type} [DecidableEq ι]

abbrev Service.Config (ι : Type) := ReadCommitted.Config Db LockKey Stmt Reply ι

def Sends (P : PriceUpdate → List (LockKey × LockMode) → Db → Prop) (c : Service.Config ι) :
    Action ι Nat → Prop
  | .step i =>
    match (c.session i).code with
    | .stmt (.updateSubscriptionPrice u) _ _ _ => P u (c.locksOf i) c.db
    | _ => True
  | _ => True

/-- An upgrade takes the row lock only while the row has the plan it read. -/
def LocksFresh (c : Service.Config ι) : Action ι Nat → Prop
  | .step i =>
    match (c.session i).code with
    | .stmt (.lockForUpgrade subId planRead) _ _ _ => stillOn subId planRead c.db
    | _ => True
  | _ => True

variable {a : Action ι Nat} {c : Service.Config ι}

theorem sends_of_passes {fresh : Prop}
    (passes : c.Passes (terms plans fresh) (fun _ => noTerms) a) :
    Sends (fun u held db => u.Guarded held db ∧ (fresh → u.Upward db)) c a := by
  cases a with
  | env e => trivial
  | kill i => trivial
  | step i =>
    simp only [Config.Passes] at passes
    simp only [Sends]
    split
    · rename_i code
      simp only [code] at passes
      exact passes
    · trivial

theorem admissible_of_fresh {fresh : Prop} (locks : fresh → LocksFresh c a) :
    c.Admissible (terms plans fresh) tick a := by
  cases a with
  | env e => exact fun _ => trivial
  | kill i => trivial
  | step i =>
    simp only [Config.Admissible]
    split
    · rename_i l _ _ _ code
      cases l with
      | lockForUpgrade subId planRead =>
        intro up
        have := locks up
        simp only [LocksFresh, code] at this
        exact this
      | sql op => trivial
      | updateSubscriptionPrice u => trivial
      | cancelSubscription subId => trivial
    · exact fun _ _ => trivial
    · trivial

theorem tick_allowed (plans : List Plan) (fresh : Prop) :
    Config.EnvAllowed (terms plans fresh).toDiscipline tick :=
  fun _ _ inv => ⟨inv, fun _ => .inl rfl, fun _ _ row found => ⟨row, found, .inl rfl⟩⟩

def Reached (plans : List Plan) (subId planId : Id) (db : Db) : Prop :=
  ∃ row, db.findSubscription subId = some row ∧
    (row.planId = planId ∨ longerCycle plans planId row.planId = true)

theorem Moves.reached {held : List (LockKey × LockMode)} {db db' : Db}
    (inv : db.plans = plans) (moves : Moves True held db db') {planId : Id}
    (reached : Reached plans subId planId db) : Reached plans subId planId db' := by
  obtain ⟨row, found, at_⟩ := reached
  obtain ⟨row', found', up⟩ := moves.upward trivial subId row found
  rw [inv] at up
  refine ⟨row', found', ?_⟩
  rcases at_ with rfl | longer
  · exact up
  · rcases up with same | more
    · exact .inr (same ▸ longer)
    · exact .inr (longerCycle_trans longer more)

theorem Sends.mono {P Q : PriceUpdate → List (LockKey × LockMode) → Db → Prop}
    (weaker : ∀ u held, P u held c.db → Q u held c.db) (sends : Sends P c a) : Sends Q c a := by
  cases a with
  | env e => trivial
  | kill i => trivial
  | step i =>
    simp only [Sends] at sends ⊢
    split
    · rename_i code
      simp only [code] at sends
      exact weaker _ _ sends
    · trivial

def sessions (svc : Service) (db : Db) (calls : ι → Call) : Service.Config ι :=
  .start db fun i => (calls i).program svc

theorem sessions_meeting (svc : Service) (db : Db) (calls : ι → Call)
    (fresh : Prop) : (sessions svc db calls).Meeting (terms db.plans fresh) fun _ => noTerms :=
  Config.meeting_start rfl fun i => program_meets svc (calls i)

/-- Paddle is asked for a price only under the lock of an active row; a plan change asks only for
a longer cycle than the row's, while it renews, and an upgrade for a longer one than it read.
Where upgrades lock what they read, every call asks for more than the row has, and a plan the row
has reached is never asked for again. -/
theorem plan_changes_guarded (svc : Service) (db : Db) (calls : ι → Call)
    (as : List (Action ι Nat)) :
    (sessions svc db calls).Along tick (Sends fun u held db => u.Guarded held db) as ∧
    ((sessions svc db calls).Along tick LocksFresh as →
      (sessions svc db calls).Along tick (Sends fun u _ db => u.Upward db) as ∧
      ∀ done rest c subId row, as = done ++ rest → (sessions svc db calls).run tick done = some c →
        c.db.findSubscription subId = some row →
        c.Along tick (Sends fun u _ _ => u.subId = subId → u.targetPlanId ≠ row.planId) rest) := by
  constructor
  · have admissible : (sessions svc db calls).Along tick
        (Config.Admissible (terms db.plans False) tick) as :=
      (Config.along_true as).mono fun _ _ _ => admissible_of_fresh False.elim
    have passed := (sessions_meeting svc db calls False).along (tick_allowed _ _)
      (I := fun _ => True) (fun _ _ _ _ _ _ _ => trivial) trivial admissible
    exact passed.mono fun c a held => (sends_of_passes held.1).mono fun _ _ both => both.1
  · intro locks
    have admissible : (sessions svc db calls).Along tick
        (Config.Admissible (terms db.plans True) tick) as :=
      locks.mono fun _ _ fresh => admissible_of_fresh fun _ => fresh
    have meeting := sessions_meeting svc db calls True
    constructor
    · have passed := meeting.along (tick_allowed _ _) (I := fun _ => True)
        (fun _ _ _ _ _ _ _ => trivial) trivial admissible
      exact passed.mono fun c a held => (sends_of_passes held.1).mono fun _ _ both => both.2 trivial
    · rintro done rest c subId row rfl ran found
      obtain ⟨before, after⟩ := Config.along_append.mp admissible
      -- from here on the row has this plan, or one with a longer cycle
      have passed := (meeting.run (tick_allowed _ _) before ran).along (tick_allowed _ _)
        (I := Reached db.plans subId row.planId) (fun _ _ _ inv _ moves => moves.reached inv)
        ⟨row, found, .inl rfl⟩ (after c ran)
      refine passed.mono fun c a ⟨passes, inv, reached⟩ => (sends_of_passes passes).mono ?_
      rintro u held ⟨-, upward⟩ rfl
      obtain ⟨now, isNow, longer⟩ := upward trivial
      obtain ⟨now', isNow', at_⟩ := reached
      cases Option.some.inj (isNow.symm.trans isNow')
      rw [show c.db.plans = db.plans from inv] at longer
      rcases at_ with same | longer'
      · exact same ▸ longerCycle_ne longer
      · exact longerCycle_ne (longerCycle_trans longer' longer)

instance Sends.decidable (P : PriceUpdate → List (LockKey × LockMode) → Db → Prop)
    [∀ u held db, Decidable (P u held db)] (c : Service.Config ι) (a : Action ι Nat) :
    Decidable (Sends P c a) := by
  unfold Sends
  split
  · split <;> infer_instance
  · infer_instance

instance (subId planRead : Id) (db : Db) : Decidable (stillOn subId planRead db) :=
  match found : db.findSubscription subId with
  | none => .isTrue fun row same => nomatch found.symm.trans same
  | some row => decidable_of_iff (row.planId = planRead) (by simp [stillOn, found])

instance LocksFresh.decidable (c : Service.Config ι) (a : Action ι Nat) :
    Decidable (LocksFresh c a) := by
  unfold LocksFresh
  split
  · split <;> infer_instance
  · infer_instance

end Runs

/-! A membership that renews monthly. -/

def memberships : Db where
  plans := [⟨"monthly", .kayaMembership, 30, true, true⟩, ⟨"yearly", .kayaMembership, 365, true, true⟩]
  subscriptions :=
    [⟨"s", "u", "monthly", .kayaMembership, .active, some 0, some .paddle, true, some "sub_1"⟩]

def paddleService : Service := ⟨true, fun planId => "pri_" ++ planId, true⟩

def toYearly : Nat → Call
  | 0 => .upgrade ⟨"u", "yearly", .ok none⟩
  | 1 => .change ⟨"u", "s", "yearly", .ok none⟩
  | _ => .cancel ⟨"u", "s", .ok ()⟩

def PriceUpdate.orderly (u : PriceUpdate) (held : List (LockKey × LockMode)) (db : Db) : Bool :=
  held.contains (.subscription u.subId, .update) &&
    (db.findSubscription u.subId).any fun row =>
      row.status = .active && row.autoRenew && longerCycle db.plans row.planId u.targetPlanId

/-- An upgrade lifts a cancellation that is scheduled: the row no longer renews when Paddle is
asked. -/
theorem upgrade_after_cancellation :
    ¬ (sessions paddleService memberships toYearly).Along tick
      (Sends fun u held db => u.orderly held db = true)
      (List.replicate 6 (.step 2) ++ List.replicate 6 (.step 0)) := by
  decide +kernel

theorem plan_changes_guarded_yearly :
    (sessions paddleService memberships toYearly).Along tick LocksFresh
        (List.replicate 9 (.step 0)) ∧
      (sessions paddleService memberships toYearly).Along tick (Sends fun u _ db => u.Upward db)
        (List.replicate 9 (.step 0)) :=
  have locks : (sessions paddleService memberships toYearly).Along tick LocksFresh
      (List.replicate 9 (.step 0)) := by decide +kernel
  ⟨locks, ((plan_changes_guarded paddleService memberships toYearly _).2 locks).1⟩

end YunhouUsers.Payments
