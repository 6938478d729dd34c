import YunhouUsers.Inference.Entitlements.Sync

/-!
One delivered sync message brings the entitlements of a subscription to what the facts demand.

A plan touches the latest row of its source only (`Succeeds`).  An older row of the same source is
never looked at, so what is left active is decided by the state before (`Lone`).
-/

namespace YunhouUsers.Inference.Entitlements

open Table

/-! The latest row of a source. -/

variable {rows : List Entitlement} {s : Source}

theorem latest_spec {m : Entitlement} (found : latest rows s = some m) :
    m ∈ rows ∧ m.source = s ∧ ∀ x ∈ rows, x.source = s → x.revision ≤ m.revision := by
  obtain ⟨mem, top, _⟩ := List.argmax_eq_some_iff.mp found
  obtain ⟨mem, of_s⟩ := List.mem_filter.mp mem
  refine ⟨mem, by simpa using of_s, fun x memx of_s => ?_⟩
  have le := top x (List.mem_filter.mpr ⟨memx, by simpa using of_s⟩)
  rcases Prod.Lex.toLex_le_toLex.mp le with lt | ⟨eq, _⟩
  · exact lt.le
  · exact eq.le

theorem latest_of_top {m : Entitlement} (mem : m ∈ rows) (of_s : m.source = s)
    (top : ∀ x ∈ rows, x.source = s → x ≠ m → x.revision < m.revision) :
    latest rows s = some m := by
  have lt : ∀ x ∈ rows.filter (·.source = s), x ≠ m → rank x < rank m := by
    intro x memx other
    obtain ⟨memx, of_s⟩ := List.mem_filter.mp memx
    exact Prod.Lex.toLex_lt_toLex.mpr (.inl (top x memx (by simpa using of_s) other))
  refine List.argmax_eq_some_iff.mpr ⟨List.mem_filter.mpr ⟨mem, by simpa using of_s⟩, ?_, ?_⟩
  · intro x memx
    by_cases same : x = m
    · rw [same]
    · exact (lt x memx same).le
  · intro x memx le
    by_cases same : x = m
    · rw [same]
    · exact absurd (lt x memx same) (not_lt.mpr le)

theorem latest_eq_none : latest rows s = none ↔ ∀ x ∈ rows, x.source ≠ s := by
  simp [latest, List.argmax_eq_none, List.filter_eq_nil_iff]

/-- No row of the source is active behind its latest one. -/
def Lone (rows : List Entitlement) (s : Source) : Prop :=
  ∀ x ∈ rows, x.source = s → x.status = .active → latest rows s = some x

theorem latest_congr {rows' : List Entitlement}
    (same : rows'.filter (·.source = s) = rows.filter (·.source = s)) :
    latest rows' s = latest rows s := by
  rw [latest, latest, same]

theorem lone_congr {rows' : List Entitlement}
    (same : rows'.filter (·.source = s) = rows.filter (·.source = s)) :
    Lone rows' s ↔ Lone rows s := by
  have members : ∀ x, (x ∈ rows' ∧ x.source = s) ↔ x ∈ rows ∧ x.source = s := by
    intro x
    simpa using congrArg (fun l => x ∈ l) same
  unfold Lone
  rw [latest_congr same]
  refine forall_congr' fun x => ?_
  rw [← and_imp, members x, and_imp]

/-! What a plan does to the rows. -/

/-- `e` becomes the latest row of `s`: as its first row, or in place of the one before. -/
inductive Succeeds (rows : List Entitlement) (s : Source) (e : Entitlement) :
    List Entitlement → Prop where
  | granted (none : latest rows s = none) (of_s : e.source = s) : Succeeds rows s e (rows ++ [e])
  | changed (cur : Entitlement) (found : latest rows s = some cur) (id : e.id = cur.id)
      (of_s : e.source = s) (revision : e.revision = cur.revision + 1)
      (anchor : e.anchorAt = cur.anchorAt) : Succeeds rows s e (EntitlementTable.put rows e)

variable {cur e : Entitlement}

theorem mem_put {x : Entitlement}
    (ids : (rows.map (·.id)).Nodup) (mem : cur ∈ rows) (id : e.id = cur.id) :
    x ∈ EntitlementTable.put rows e ↔ x = e ∨ x ∈ rows ∧ x ≠ cur := by
  rw [EntitlementTable.put, mem_updateWhere]
  constructor
  · rintro ⟨r, memr, rfl⟩
    by_cases same : r.id = e.id
    · simp [same]
    · have other : r ≠ cur := fun eq => same (by rw [eq, id])
      simpa [same] using .inr ⟨memr, other⟩
  · rintro (rfl | ⟨memx, other⟩)
    · exact ⟨cur, mem, by simp [id]⟩
    · have differ : x.id ≠ e.id := fun same => other (eq_of_key ids memx mem (same.trans id))
      exact ⟨x, memx, by simp [differ]⟩

namespace Succeeds

variable {rows rows' : List Entitlement} {s : Source} {e : Entitlement}

theorem latest_eq (ids : (rows.map (·.id)).Nodup) (step : Succeeds rows s e rows') :
    latest rows' s = some e := by
  cases step with
  | granted none of_s =>
    refine latest_of_top (by simp) of_s fun x mem of_s' other => ?_
    have old : x ∈ rows := by simpa [other] using mem
    exact absurd of_s' (latest_eq_none.mp none x old)
  | changed cur found id of_s revision anchor =>
    obtain ⟨mem, _, top⟩ := latest_spec found
    have members {x} := mem_put (x := x) ids mem id
    refine latest_of_top (members.mpr (.inl rfl)) of_s fun x memx of_s' other => ?_
    have old := top x ((members.mp memx).resolve_left other).1 of_s'
    omega

theorem filter_other (step : Succeeds rows s e rows') (ids : (rows.map (·.id)).Nodup)
    {t : Source} (other : t ≠ s) :
    rows'.filter (·.source = t) = rows.filter (·.source = t) := by
  cases step with
  | granted none of_s =>
    have differ : e.source ≠ t := fun same => other (same.symm.trans of_s)
    simp [List.filter_append, differ]
  | changed cur found id of_s revision anchor =>
    obtain ⟨mem, cur_s, _⟩ := latest_spec found
    rw [EntitlementTable.put, updateWhere, List.filter_map]
    have keep : ∀ r ∈ rows, ((fun r => decide (r.source = t)) ∘
        fun r => if decide (r.id = e.id) then e else r) r = decide (r.source = t) := by
      intro r memr
      by_cases same : r.id = e.id
      · have is_cur : r = cur := eq_of_key ids memr mem (same.trans id)
        have of_s' : r.source = s := is_cur ▸ cur_s
        simp [same, of_s, of_s']
      · simp [same]
    rw [List.filter_congr keep]
    refine (List.map_congr_left fun r memr => ?_).trans (List.map_id _)
    obtain ⟨memr, of_t⟩ := List.mem_filter.mp memr
    have differ : r.id ≠ e.id := by
      intro same
      have is_cur : r = cur := eq_of_key ids memr mem (same.trans id)
      exact other ((by simpa using of_t : r.source = t).symm.trans (is_cur ▸ cur_s))
    simp [differ]

theorem lone_iff (step : Succeeds rows s e rows') (ids : (rows.map (·.id)).Nodup) :
    Lone rows' s ↔ Lone rows s := by
  have now_latest := step.latest_eq ids
  cases step with
  | granted none of_s =>
    have old : Lone rows s := fun x mem of_s' => absurd of_s' (latest_eq_none.mp none x mem)
    refine iff_of_true (fun x mem of_s' _ => ?_) old
    rcases List.mem_append.mp mem with mem | mem
    · exact absurd of_s' (latest_eq_none.mp none x mem)
    · rw [now_latest, List.mem_singleton.mp mem]
  | changed cur found id of_s revision anchor =>
    have members {x} := mem_put (x := x) ids (latest_spec found).1 id
    unfold Lone
    rw [now_latest, found]
    constructor
    · intro lone x mem of_s' active
      by_contra other
      have behind : x ≠ cur := fun same => other (by rw [same])
      have same := lone x (members.mpr (.inr ⟨mem, behind⟩)) of_s' active
      -- `e` outranks every old row
      have le := (latest_spec found).2.2 x mem of_s'
      have eq : e = x := Option.some.inj same
      rw [← eq] at le
      omega
    · intro lone x mem of_s' active
      rcases members.mp mem with rfl | ⟨old, behind⟩
      · rfl
      · exact absurd (Option.some.inj (lone x old of_s' active)).symm behind

theorem keeps (step : Succeeds rows s e rows') (ids : (rows.map (·.id)).Nodup) :
    ∀ x ∈ rows, ∃ x' ∈ rows', x'.id = x.id ∧ x'.anchorAt = x.anchorAt := by
  intro x mem
  cases step with
  | granted none of_s => exact ⟨x, by simp [mem], rfl, rfl⟩
  | changed cur found id of_s revision anchor =>
    have members {x} := mem_put (x := x) ids (latest_spec found).1 id
    by_cases same : x = cur
    · exact ⟨e, members.mpr (.inl rfl), same ▸ id, same ▸ anchor⟩
    · exact ⟨x, members.mpr (.inr ⟨mem, same⟩), rfl, rfl⟩

end Succeeds

/-! What a plan aims at. -/

structure Meets (want : BenefitTarget) (e : Entitlement) : Prop where
  active : e.status = .active
  policy : e.policyVersionId = want.policyVersionId
  models : want.modelIds.Perm e.modelIds
  effectiveTo : e.effectiveTo = want.effectiveTo

variable {want : BenefitTarget}

theorem patchTowards_isEmpty (active : cur.status = .active) :
    (patchTowards want cur).isEmpty = true ↔ Meets want cur := by
  have meets : Meets want cur ↔ cur.policyVersionId = want.policyVersionId ∧
      equalModelSets want.modelIds cur.modelIds = true ∧ cur.effectiveTo = want.effectiveTo := by
    rw [equalModelSets_iff]
    exact ⟨fun m => ⟨m.policy, m.models, m.effectiveTo⟩, fun h => ⟨active, h.1, h.2.1, h.2.2⟩⟩
  rw [meets]
  unfold patchTowards EntitlementPatch.isEmpty
  grind

variable {d : SyncDecision} {now : Int}

theorem converge_noop_iff {current : Option Entitlement} :
    converge current d now = .ok .noop ↔
      match d.target with
      | none => ∀ e, current = some e → e.status ≠ .active
      | some want => want.policyVersionId ≠ "" ∧ ∃ e, current = some e ∧ Meets want e := by
  unfold converge
  cases d.target with
  | none => cases current <;> grind
  | some want =>
    cases current with
    | none => by_cases empty : want.policyVersionId = "" <;> simp [empty]
    | some cur =>
      by_cases active : cur.status = .active
      · have empty : (patchTowards want cur).isEmpty = true ↔ _ := patchTowards_isEmpty active
        have same : Meets want cur → cur.effectiveTo = want.effectiveTo := fun m => m.effectiveTo
        simp only [active]
        grind
      · have unmet : ¬ Meets want cur := fun m => active m.active
        simp only [Option.some.injEq, exists_eq_left', unmet, and_false, iff_false]
        grind

theorem meets_patched (distinct : want.modelIds.Nodup) (cur : Entitlement) :
    Meets want ((patchTowards want cur).applyTo .active cur) := by
  have deduped : dedupeModels want.modelIds = want.modelIds :=
    dedupeAfter_of_nodup distinct (by simp)
  constructor
  · rfl
  · unfold patchTowards EntitlementPatch.applyTo
    grind
  · unfold patchTowards EntitlementPatch.applyTo
    simp only [deduped]
    split
    · rename_i same
      exact (equalModelSets_iff _ _).mp same
    · exact .refl _
  · unfold patchTowards EntitlementPatch.applyTo
    cases h : want.effectiveTo <;> cases h' : cur.effectiveTo <;> grind

variable {table : EntitlementTable}

theorem EntitlementTable.insert_ok {table' : EntitlementTable}
    (ok : table.insert e = .ok table') : table'.rows = table.rows ++ [e] := by
  simp only [EntitlementTable.insert] at ok
  split_ifs at ok
  cases ok
  rfl

theorem EntitlementTable.set_ok {table' : EntitlementTable}
    (ok : table.set e = .ok table') : table'.rows = put table.rows e := by
  simp only [EntitlementTable.set] at ok
  split_ifs at ok
  cases ok
  rfl

variable {db db' : Db}

theorem storeRow_ok {op : String}
    {write : EntitlementTable → Entitlement → Except PgError EntitlementTable}
    (ok : storeRow db op e write = .ok db') :
    ∃ table, write db.entitlements e = .ok table ∧ db' = { db with entitlements := table } := by
  unfold storeRow at ok
  split at ok
  · cases ok
  · split at ok
    · rename_i table written
      cases ok
      exact ⟨table, written, rfl⟩
    · cases ok

variable {statuses : List EntitlementStatus}

theorem updateRow_ok {op id stale : String} {revision : Nat} {change : Entitlement → Entitlement}
    (mem : cur ∈ db.entitlements.rows) (is_cur : id = cur.id)
    (ok : updateRow db op id revision statuses stale change = .ok db') :
    ∃ table, db' = { db with entitlements := table } ∧
      table.rows = EntitlementTable.put db.entitlements.rows (change cur) := by
  unfold updateRow at ok
  split at ok
  · cases ok
  · rename_i row found
    have hit := List.find?_some found
    simp only [Bool.and_eq_true, decide_eq_true_eq] at hit
    have same : row = cur := eq_of_key db.entitlements.ids (List.mem_of_find?_eq_some found) mem
      (hit.1.1.trans is_cur)
    obtain ⟨table, written, rfl⟩ := storeRow_ok ok
    exact ⟨table, rfl, same ▸ EntitlementTable.set_ok written⟩

theorem insertEntitlementTx_ok (first : e.revision = 1) (ok : insertEntitlementTx db e = .ok db') :
    ∃ table, db' = { db with entitlements := table } ∧ table.rows = db.entitlements.rows ++ [e] := by
  unfold insertEntitlementTx at ok
  split at ok
  · cases ok
  · have same : { e with revision := if e.revision = 0 then 1 else e.revision } = e := by
      cases e
      simp_all
    rw [same] at ok
    obtain ⟨table, written, rfl⟩ := storeRow_ok ok
    exact ⟨table, rfl, EntitlementTable.insert_ok written⟩

theorem grantFromPlan_ok {plan : PlanRevision} {anchor effectiveFrom : Int}
    {effectiveTo : Option Int} (ok : grantFromPlan plan anchor effectiveFrom effectiveTo = .ok e) :
    e.source = plan.source ∧ e.modelIds = dedupeModels plan.modelIds ∧
      e.policyVersionId = plan.policyVersionId ∧ e.effectiveTo = effectiveTo ∧ e.revision = 1 ∧
      e.status = .active := by
  unfold grantFromPlan at ok
  dsimp only at ok
  split_ifs at ok
  all_goals
    cases ok
    exact ⟨rfl, rfl, rfl, rfl, rfl, rfl⟩

structure Aims (d : SyncDecision) (s : Source) : Prop where
  source : ∀ want, d.target = some want → want.source = s
  distinct : ∀ want, d.target = some want → want.modelIds.Nodup

def Settles (db db' : Db) (s : Source) (d : SyncDecision) (now : Int) : Prop :=
  ∃ table e, db' = { db with entitlements := table } ∧
    Succeeds db.entitlements.rows s e table.rows ∧ converge (some e) d now = .ok .noop

section Plan

variable {env : Env} {accountId id : String} {db db' : Db} {now : Int} {s : Source}
  {d : SyncDecision}

theorem settles_insert (none : latest db.entitlements.rows s = none)
    (target : d.target = some want) (aims : Aims d s) (named : want.policyVersionId ≠ "")
    (ok : applyPlan env accountId db ⟨s, id, .insert ⟨want.source, want.modelIds,
      want.policyVersionId⟩ now now want.effectiveTo⟩ = .ok db') : Settles db db' s d now := by
  simp only [applyPlan] at ok
  split at ok
  · cases ok
  · rename_i e granted
    obtain ⟨source, models, policy, effectiveTo, first, active⟩ := grantFromPlan_ok granted
    obtain ⟨table, rfl, rows⟩ := insertEntitlementTx_ok (by exact first) ok
    have deduped : dedupeModels want.modelIds = want.modelIds :=
      dedupeAfter_of_nodup (aims.distinct want target) (by simp)
    refine ⟨table,
      { e with
        id := env.uuid db
        billingAccountId := accountId
        createdAt := env.dbNow db }, rfl, ?_, ?_⟩
    · rw [rows]
      exact .granted none (source.trans (aims.source want target))
    · rw [converge_noop_iff, target]
      exact ⟨named, _, rfl, active, policy, by rw [models, deduped], effectiveTo⟩

variable {cur : Entitlement} (found : latest db.entitlements.rows s = some cur)
include found

theorem settles_change
    (written : db' = { db with entitlements := table } ∧
      table.rows = EntitlementTable.put db.entitlements.rows e)
    (id : e.id = cur.id) (source : e.source = cur.source) (revision : e.revision = cur.revision + 1)
    (anchor : e.anchorAt = cur.anchorAt) (done : converge (some e) d now = .ok .noop) :
    Settles db db' s d now := by
  obtain ⟨rfl, rows⟩ := written
  have of_s : e.source = s := source.trans (latest_spec found).2.1
  exact ⟨table, e, rfl, rows ▸ .changed cur found id of_s revision anchor, done⟩

theorem settles_patch (target : d.target = some want) (aims : Aims d s)
    (named : want.policyVersionId ≠ "") (is_cur : id = cur.id) {op stale : String}
    (ok : updateRow db op id (patchTowards want cur).expectedRevision statuses stale
      ((patchTowards want cur).applyTo .active) = .ok db') : Settles db db' s d now := by
  obtain ⟨table, written⟩ := updateRow_ok (latest_spec found).1 is_cur ok
  refine settles_change found written rfl rfl rfl rfl ?_
  rw [converge_noop_iff, target]
  exact ⟨named, _, rfl, meets_patched (aims.distinct want target) cur⟩

theorem settles_retire (target : d.target = none) {revision : Nat} {status : EntitlementStatus}
    (is_cur : id = cur.id) (ok : applyPlan env accountId db ⟨s, id, .retire revision status⟩ = .ok db') :
    Settles db db' s d now := by
  simp only [applyPlan, retireEntitlementTx] at ok
  split at ok
  · cases ok
  · rename_i inactive
    obtain ⟨table, written⟩ := updateRow_ok (latest_spec found).1 is_cur ok
    refine settles_change found written rfl rfl rfl rfl ?_
    rw [converge_noop_iff, target]
    rintro e' ⟨⟩
    exact inactive

omit found in
theorem applyPlan_settles {action : ConvergeAction} (aims : Aims d s)
    (planned : converge (latest db.entitlements.rows s) d now = .ok action) (todo : action ≠ .noop)
    (is_cur : ∀ cur, latest db.entitlements.rows s = some cur → id = cur.id)
    (ok : applyPlan env accountId db ⟨s, id, action⟩ = .ok db') : Settles db db' s d now := by
  cases current : latest db.entitlements.rows s with
  | none =>
    rw [current] at planned
    cases target : d.target with
    | none =>
      simp only [converge, target, Except.ok.injEq] at planned
      exact absurd planned.symm todo
    | some want =>
      simp only [converge, target] at planned
      split_ifs at planned with unnamed
      cases planned
      exact settles_insert current target aims unnamed ok
  | some cur =>
    rw [current] at planned
    have is_cur := is_cur cur current
    cases target : d.target with
    | none =>
      simp only [converge, target] at planned
      split_ifs at planned
      · exact absurd (Except.ok.inj planned).symm todo
      · cases planned
        exact settles_retire current target is_cur ok
    | some want =>
      simp only [converge, target] at planned
      split_ifs at planned with unnamed
      · cases planned
        exact settles_patch current target aims unnamed is_cur ok
      · exact absurd (Except.ok.inj planned).symm todo
      · cases planned
        exact settles_patch current target aims unnamed is_cur ok

end Plan

/-! All plans of a message. -/

variable {touched : List Source}

/-- What a sync leaves alone: the facts, ids and anchors, and whether rows are hidden behind the
latest ones.  Only the rows of the sources in `touched` change. -/
structure Progress (touched : List Source) (db db' : Db) : Prop where
  subscriptions : db'.subscriptions = db.subscriptions
  orders : db'.orders = db.orders
  others : ∀ s, s ∉ touched →
    latest db'.entitlements.rows s = latest db.entitlements.rows s
  lone : ∀ s, Lone db'.entitlements.rows s ↔ Lone db.entitlements.rows s
  kept : ∀ e ∈ db.entitlements.rows, ∃ e' ∈ db'.entitlements.rows,
    e'.id = e.id ∧ e'.anchorAt = e.anchorAt

namespace Progress

theorem of_eq (touched : List Source)
    (subscriptions : db'.subscriptions = db.subscriptions) (orders : db'.orders = db.orders)
    (entitlements : db'.entitlements = db.entitlements) : Progress touched db db' :=
  ⟨subscriptions, orders, fun s _ => by rw [entitlements], fun s => by rw [entitlements],
    fun e mem => ⟨e, entitlements ▸ mem, rfl, rfl⟩⟩

theorem trans {db'' : Db} (first : Progress touched db db')
    (second : Progress touched db' db'') : Progress touched db db'' := by
  refine ⟨second.subscriptions.trans first.subscriptions, second.orders.trans first.orders,
    fun s other => (second.others s other).trans (first.others s other),
    fun s => (second.lone s).trans (first.lone s), fun e mem => ?_⟩
  obtain ⟨e', mem', id, anchor⟩ := first.kept e mem
  obtain ⟨e'', mem'', id', anchor'⟩ := second.kept e' mem'
  exact ⟨e'', mem'', id'.trans id, anchor'.trans anchor⟩

theorem mono {more : List Source} (progress : Progress touched db db')
    (sub : ∀ s ∈ touched, s ∈ more) : Progress more db db' :=
  ⟨progress.subscriptions, progress.orders,
    fun s other => progress.others s (fun mem => other (sub s mem)), progress.lone, progress.kept⟩

end Progress

theorem Settles.progress (settles : Settles db db' s d now) : Progress [s] db db' := by
  obtain ⟨table, e, rfl, step, _⟩ := settles
  have ids := db.entitlements.ids
  refine ⟨rfl, rfl, ?_, ?_, step.keeps ids⟩
  · intro t other
    exact latest_congr (step.filter_other ids (by simpa using other))
  · intro t
    by_cases same : t = s
    · rw [same]
      exact step.lone_iff ids
    · exact lone_congr (step.filter_other ids same)

theorem Settles.done (settles : Settles db db' s d now) :
    converge (latest db'.entitlements.rows s) d now = .ok .noop := by
  obtain ⟨table, e, rfl, step, done⟩ := settles
  rw [step.latest_eq db.entitlements.ids]
  exact done

def Done (db : Db) (now : Int) (d : SyncDecision) (sources : List Source) : Prop :=
  ∀ s ∈ sources, converge (latest db.entitlements.rows s) (d.restrict s) now = .ok .noop

theorem aims_restrict (s : Source)
    (distinct : ∀ want, d.target = some want → want.modelIds.Nodup) : Aims (d.restrict s) s := by
  have split {want} : (d.restrict s).target = some want ↔ d.target = some want ∧ want.source = s := by
    simp [SyncDecision.restrict, Option.filter_eq_some_iff]
  constructor
  · intro want target
    exact (split.mp target).2
  · intro want target
    exact distinct want (split.mp target).1

variable {sources : List Source} {plans : List SourcePlan}

theorem planSources_cons (planned : planSources db now d (s :: sources) = .ok plans) :
    ∃ action rest, converge (latest db.entitlements.rows s) (d.restrict s) now = .ok action ∧
      planSources db now d sources = .ok rest ∧
      plans = if action = .noop then rest
        else ⟨s, ((latest db.entitlements.rows s).map (·.id)).getD "", action⟩ :: rest := by
  simp only [planSources, getLatestEntitlementBySource] at planned
  cases acts : converge (latest db.entitlements.rows s) (d.restrict s) now with
  | error e => simp [acts, bind, Except.bind] at planned
  | ok action =>
    cases tail : planSources db now d sources with
    | error e => simp [acts, tail, bind, Except.bind] at planned
    | ok rest =>
      simp only [acts, tail, bind, Except.bind, pure, Except.pure, Except.ok.injEq] at planned
      refine ⟨action, rest, rfl, rfl, planned.symm.trans ?_⟩
      cases latest db.entitlements.rows s <;> rfl

theorem apply_sources {env : Env} {accountId : String} {db₀ : Db}
    (distinct : ∀ want, d.target = some want → want.modelIds.Nodup) (nodup : sources.Nodup) :
    ∀ {plans : List SourcePlan}, planSources db₀ now d sources = .ok plans →
      ∀ {db db' : Db}, (∀ s ∈ sources, latest db.entitlements.rows s =
        latest db₀.entitlements.rows s) →
      plans.foldlM (applyPlan env accountId) db = .ok db' →
      Progress sources db db' ∧ Done db' now d sources := by
  induction sources with
  | nil =>
    intro plans planned db db' same ok
    cases planned
    cases ok
    exact ⟨.of_eq _ rfl rfl rfl, by simp [Done]⟩
  | cons s sources ih =>
    obtain ⟨new, nodup⟩ := List.nodup_cons.mp nodup
    intro plans planned db db' same ok
    obtain ⟨action, rest, acts, tail, rfl⟩ := planSources_cons planned
    rw [← same s List.mem_cons_self] at acts ok
    by_cases todo : action = .noop
    · rw [if_pos todo] at ok
      obtain ⟨progress, done⟩ := ih nodup tail
        (fun t mem => same t (List.mem_cons_of_mem s mem)) ok
      refine ⟨progress.mono fun t mem => List.mem_cons_of_mem s mem, ?_⟩
      refine List.forall_mem_cons.mpr ⟨?_, done⟩
      rw [progress.others s new, acts, todo]
    · rw [if_neg todo, List.foldlM_cons] at ok
      cases applied : applyPlan env accountId db ⟨s, ((latest db.entitlements.rows s).map
          (·.id)).getD "", action⟩ with
      | error e => simp [applied, bind, Except.bind] at ok
      | ok db₁ =>
        rw [applied] at ok
        have settles := applyPlan_settles (aims_restrict s distinct) acts todo
          (by rintro cur found; simp [found]) applied
        obtain ⟨progress, done⟩ := ih nodup tail (fun t mem => by
          have other : t ∉ [s] := by
            rw [List.mem_singleton]
            rintro rfl
            exact new mem
          rw [settles.progress.others t other, same t (List.mem_cons_of_mem s mem)]) ok
        refine ⟨(settles.progress.mono (by simp)).trans
          (progress.mono fun t mem => List.mem_cons_of_mem s mem), ?_⟩
        refine List.forall_mem_cons.mpr ⟨?_, done⟩
        rw [progress.others s new]
        exact settles.done

theorem decideSync_target {sub : Option SubscriptionState} {order : Option OrderBenefitSnapshot}
    (ok : decideSync sub order now = .ok d) (target : d.target = some want) :
    want.modelIds.Nodup ∧ ∃ state, sub = some state ∧ want.source ∈ candidates state.id := by
  unfold decideSync at ok
  cases sub with
  | none =>
    cases ok
    cases target
  | some state =>
    simp only at ok
    split_ifs at ok
    · cases ok
      cases target
    · cases ok
      cases target
    · cases order with
      | none =>
        cases ok
        cases target
      | some order =>
        simp only at ok
        split_ifs at ok
        cases mode : order.grantMode with
        | subscription =>
          rw [mode] at ok
          cases ok
          cases target
          exact ⟨nodup_dedupeAfter [] _, state, rfl, by simp [candidates]⟩
        | gift =>
          rw [mode] at ok
          cases ok
          cases target
          exact ⟨nodup_dedupeAfter [] _, state, rfl, by simp [candidates]⟩
        | other text =>
          rw [mode] at ok
          cases ok

theorem candidates_nodup (subscriptionId : String) : (candidates subscriptionId).Nodup := by
  simp [candidates]

theorem planSync_ok {userId productCode hint : String}
    (named : syncSubscriptionId db userId productCode hint ≠ "")
    (planned : planSync db now userId productCode hint = .ok plans) :
    (userId = "" || productCode = "") = false ∧
      ∃ d, syncDecision db now userId productCode = .ok d ∧
        planSources db now d (candidates (syncSubscriptionId db userId productCode hint)) =
          .ok plans := by
  unfold planSync at planned
  split_ifs at planned with invalid
  refine ⟨by simpa using invalid, ?_⟩
  cases decided : syncDecision db now userId productCode with
  | error e => simp [decided, bind, Except.bind] at planned
  | ok d =>
    simp only [decided, bind, Except.bind, named, if_false] at planned
    exact ⟨d, rfl, planned⟩

theorem planSources_done
    (done : Done db now d sources) : planSources db now d sources = .ok [] := by
  induction sources with
  | nil => rfl
  | cons s sources ih =>
    obtain ⟨first, rest⟩ := List.forall_mem_cons.mp done
    simp [planSources, getLatestEntitlementBySource, first, ih rest, bind, Except.bind, pure,
      Except.pure]

section Message

variable {env : Env} {now : Int} {db db' : Db} {userId productCode subscriptionId : String}

theorem Progress.syncDecision_eq (progress : Progress touched db db') :
    syncDecision db' now userId productCode = syncDecision db now userId productCode := by
  simp only [syncDecision, getSyncSubscription, getLatestPaidBenefitOrder, progress.subscriptions,
    progress.orders]

theorem Progress.syncSubscriptionId_eq (progress : Progress touched db db')
    (hint : String) : syncSubscriptionId db' userId productCode hint =
      syncSubscriptionId db userId productCode hint := by
  simp only [syncSubscriptionId, getSyncSubscription, progress.subscriptions]

/-- The message is about this subscription; a hint counts only when there is no row. -/
def Concerns (db : Db) (userId productCode subscriptionId : String) (msg : OutboxMessage) : Prop :=
  ∀ m, msg.payload = some m → m.userId = userId ∧ m.productCode = productCode ∧
    syncSubscriptionId db userId productCode m.subscriptionId = subscriptionId

theorem Progress.markDelivered (outboxId : Option Nat)
    (progress : Progress touched db db') : Progress touched db (markDelivered outboxId db') := by
  cases outboxId with
  | none => exact progress
  | some id => exact progress.trans (.of_eq _ rfl rfl rfl)

theorem done_markDelivered (outboxId : Option Nat)
    (done : Done db now d sources) : Done (markDelivered outboxId db) now d sources := by
  cases outboxId <;> exact done

theorem insertAccount_ok {uuid : String} {row : Option BillingAccount}
    (ok : insertAccount uuid userId db = .ok (row, db')) : Progress [] db db' := by
  unfold insertAccount at ok
  split_ifs at ok <;> cases ok <;> exact .of_eq _ rfl rfl rfl

theorem ensureBillingAccount_ok {uuid : String} {account : BillingAccount × Db}
    (ok : ensureBillingAccount uuid db userId = .ok account) : Progress [] db account.2 := by
  change (insertAccount uuid userId db).bind _ = _ at ok
  cases inserted : insertAccount uuid userId db with
  | error e => simp [inserted, Except.bind] at ok
  | ok r =>
    obtain ⟨row, db₁⟩ := r
    rw [inserted] at ok
    have kept := insertAccount_ok inserted
    cases row with
    | some row =>
      cases ok
      exact kept
    | none =>
      change (SyncStore.getBillingAccountByUser (selectAccount userId)) db₁ = _ at ok
      simp only [SyncStore.getBillingAccountByUser, selectAccount, bind, StateT.bind,
        Except.bind] at ok
      generalize db₁.accounts.find? _ = found at ok
      cases found <;> cases ok
      exact kept

variable (env : Env)

theorem applyPlans_progress (userId : String) (outboxId : Option Nat)
    (distinct : ∀ want, d.target = some want → want.modelIds.Nodup) (nodup : sources.Nodup)
    (planned : planSources db now d sources = .ok plans) :
    Progress sources db (applyPlans env userId plans outboxId db).2 ∧
      ((applyPlans env userId plans outboxId db).1 = .ok false →
        Done (applyPlans env userId plans outboxId db).2 now d sources) := by
  by_cases nothing : plans = []
  · have ran : plans.foldlM (applyPlan env "") db = .ok db := by rw [nothing]; rfl
    obtain ⟨progress, done⟩ := apply_sources distinct nodup planned (fun _ _ => rfl) ran
    rw [applyPlans, if_pos nothing]
    exact ⟨progress.markDelivered outboxId, fun _ => done_markDelivered outboxId done⟩
  · rw [applyPlans, if_neg nothing]
    dsimp only
    split
    · exact ⟨.of_eq _ rfl rfl rfl, by simp⟩
    · rename_i accountId db₁ account
      have prepared : Progress [] db db₁ := by
        split_ifs at account
        · cases ensured : ensureBillingAccount (env.uuid db) db userId with
          | error e => simp [ensured, Except.map] at account
          | ok r =>
            simp only [ensured, Except.map, Except.ok.injEq, Prod.mk.injEq] at account
            exact account.2 ▸ ensureBillingAccount_ok ensured
        · cases account
          exact .of_eq _ rfl rfl rfl
      have start : Progress sources db db₁ := prepared.mono (by simp)
      split
      · rename_i db₂ ran
        obtain ⟨progress, done⟩ := apply_sources distinct nodup planned
          (fun s _ => prepared.others s List.not_mem_nil) ran
        exact ⟨(start.trans progress).markDelivered outboxId, fun _ =>
          done_markDelivered outboxId done⟩
      · refine ⟨start, ?_⟩
        split <;> simp

structure Arrived (db : Db) (now : Int) (userId productCode subscriptionId : String) : Prop where
  valid : (userId = "" || productCode = "") = false
  about : ∃ hint, syncSubscriptionId db userId productCode hint = subscriptionId
  done : ∃ d, syncDecision db now userId productCode = .ok d ∧
    Done db now d (candidates subscriptionId)

theorem Arrived.plan (arrived : Arrived db now userId productCode subscriptionId)
    (named : subscriptionId ≠ "") {hint : String}
    (same : syncSubscriptionId db userId productCode hint = subscriptionId) :
    planSync db now userId productCode hint = .ok [] := by
  obtain ⟨d, decided, done⟩ := arrived.done
  rw [planSync, if_neg (by simp [arrived.valid]), decided, same]
  simpa [bind, Except.bind, named] using planSources_done done

variable {msg : OutboxMessage}

theorem processMessage_progress (now : Int) (named : subscriptionId ≠ "")
    (concerns : Concerns db userId productCode subscriptionId msg) :
    Progress (candidates subscriptionId) db (processMessage env now db msg).2 ∧
      ∀ plans, (processMessage env now db msg).1 = .delivered plans →
        Arrived (processMessage env now db msg).2 now userId productCode subscriptionId := by
  unfold processMessage
  cases payload : msg.payload with
  | none => exact ⟨.of_eq _ rfl rfl rfl, by simp⟩
  | some m =>
    obtain ⟨rfl, rfl, rfl⟩ := concerns m payload
    dsimp only
    cases planned : planSync db now m.userId m.productCode m.subscriptionId with
    | error e => exact ⟨.of_eq _ rfl rfl rfl, by simp⟩
    | ok plans =>
      obtain ⟨valid, d, decided, planned⟩ := planSync_ok named planned
      have distinct : ∀ want, d.target = some want → want.modelIds.Nodup := fun want target =>
        (decideSync_target decided target).1
      have applied := applyPlans_progress env m.userId (some msg.id) distinct (candidates_nodup _)
        planned
      dsimp only
      split
      · rename_i result
        rw [result] at applied
        exact ⟨applied.1.trans (.of_eq _ rfl rfl rfl), by simp⟩
      · rename_i result
        rw [result] at applied
        exact ⟨applied.1.trans (.of_eq _ rfl rfl rfl), by simp⟩
      · rename_i result
        rw [result] at applied
        have decided' := applied.1.syncDecision_eq.trans decided
        exact ⟨applied.1, fun _ _ => ⟨valid, ⟨_, applied.1.syncSubscriptionId_eq _⟩, d, decided',
          applied.2 rfl⟩⟩

theorem Concerns.forward (concerns : Concerns db userId productCode subscriptionId msg)
    (progress : Progress touched db db') : Concerns db' userId productCode subscriptionId msg := by
  intro m payload
  rw [progress.syncSubscriptionId_eq]
  exact concerns m payload

theorem processMessage_arrived (named : subscriptionId ≠ "")
    (arrived : Arrived db now userId productCode subscriptionId)
    (concerns : Concerns db userId productCode subscriptionId msg) :
    Arrived (processMessage env now db msg).2 now userId productCode subscriptionId := by
  have same : (processMessage env now db msg).2.entitlements = db.entitlements := by
    unfold processMessage
    cases payload : msg.payload with
    | none => rfl
    | some m =>
      obtain ⟨rfl, rfl, hint⟩ := concerns m payload
      dsimp only
      rw [arrived.plan named hint]
      rfl
  have progress := (processMessage_progress env now named concerns).1
  obtain ⟨valid, ⟨hint, about⟩, d, decided, done⟩ := arrived
  refine ⟨valid, ⟨hint, (progress.syncSubscriptionId_eq hint).trans about⟩, d,
    progress.syncDecision_eq.trans decided, ?_⟩
  unfold Done
  rw [same]
  exact done

theorem processMessages_progress (now : Int) (named : subscriptionId ≠ "")
    {msgs : List OutboxMessage} :
    ∀ {db : Db}, (∀ msg ∈ msgs, Concerns db userId productCode subscriptionId msg) →
      Progress (candidates subscriptionId) db (processMessages env now msgs db).2 ∧
      (Arrived db now userId productCode subscriptionId ∨
          (∃ plans, .delivered plans ∈ (processMessages env now msgs db).1) →
        Arrived (processMessages env now msgs db).2 now userId productCode subscriptionId) := by
  induction msgs with
  | nil =>
    intro db concerns
    refine ⟨.of_eq _ rfl rfl rfl, ?_⟩
    rintro (arrived | ⟨_, ⟨⟩⟩)
    exact arrived
  | cons msg msgs ih =>
    intro db concerns
    obtain ⟨first, rest⟩ := List.forall_mem_cons.mp concerns
    obtain ⟨progress, sent⟩ := processMessage_progress env now named first
    obtain ⟨later, sent'⟩ := ih fun m mem => (rest m mem).forward progress
    refine ⟨progress.trans later, ?_⟩
    rintro (arrived | ⟨plans, mem⟩)
    · exact sent' (.inl (processMessage_arrived env named arrived first))
    · rcases List.mem_cons.mp mem with head | tail
      · exact sent' (.inl (sent plans head.symm))
      · exact sent' (.inr ⟨plans, tail⟩)

theorem Arrived.redelivered (arrived : Arrived db now userId productCode subscriptionId)
    (named : subscriptionId ≠ "") (concerns : Concerns db userId productCode subscriptionId msg)
    (decodes : msg.payload.isSome) :
    processMessage env now db msg = (.delivered [], markOutboxDeliveredTx db msg.id) := by
  obtain ⟨m, payload⟩ := Option.isSome_iff_exists.mp decodes
  obtain ⟨rfl, rfl, hint⟩ := concerns m payload
  simp [processMessage, payload, arrived.plan named hint, applyPlans, markDelivered]

/-- Once a message about a subscription was delivered, later ones that decode are delivered too
and change no entitlement. -/
theorem redelivery_idle (named : subscriptionId ≠ "") {msgs more : List OutboxMessage}
    {plans : List SourcePlan}
    (concerns : ∀ msg ∈ msgs ++ more, Concerns db userId productCode subscriptionId msg)
    (delivered : .delivered plans ∈ (processMessages env now msgs db).1)
    (decodes : ∀ msg ∈ more, msg.payload.isSome) :
    let first := (processMessages env now msgs db).2
    (∀ outcome ∈ (processMessages env now more first).1, outcome = .delivered []) ∧
      (processMessages env now more first).2.entitlements = first.entitlements := by
  obtain ⟨before, after⟩ := List.forall_mem_append.mp concerns
  obtain ⟨progress, sent⟩ := processMessages_progress env now named before
  have arrived := sent (.inr ⟨plans, delivered⟩)
  have about := fun m mem => (after m mem).forward progress
  dsimp only
  generalize (processMessages env now msgs db).2 = first at arrived about ⊢
  clear concerns after delivered progress sent
  induction more generalizing first with
  | nil => exact ⟨by simp [processMessages], rfl⟩
  | cons msg more ih =>
    obtain ⟨here, later⟩ := List.forall_mem_cons.mp about
    obtain ⟨head, tail⟩ := List.forall_mem_cons.mp decodes
    have step := arrived.redelivered env named here head
    have marked := processMessage_arrived env named arrived here
    have forward := (processMessage_progress env now named here).1
    rw [step] at marked forward
    obtain ⟨outcomes, same⟩ := ih tail _ marked fun m mem => (later m mem).forward forward
    rw [processMessages, step]
    exact ⟨List.forall_mem_cons.mpr ⟨rfl, outcomes⟩, same⟩

end Message

def demanded (db : Db) (now : Int) (userId productCode : String) : Option BenefitTarget :=
  (syncDecision db now userId productCode).toOption.bind (·.target)

structure Synced (now : Int) (userId productCode subscriptionId : String) (db db' : Db) :
    Prop where
  active : ∀ want, demanded db now userId productCode = some want →
    ∃ e, latest db'.entitlements.rows want.source = some e ∧ Meets want e
  alone : ∀ e ∈ db'.entitlements.rows, e.source ∈ candidates subscriptionId → e.status = .active →
    ∃ want, demanded db now userId productCode = some want ∧
      latest db'.entitlements.rows want.source = some e
  kept : ∀ e ∈ db.entitlements.rows, ∃ e' ∈ db'.entitlements.rows,
    e'.id = e.id ∧ e'.anchorAt = e.anchorAt
  settled : ∀ hint, syncSubscriptionId db' userId productCode hint = subscriptionId →
    planSync db' now userId productCode hint = .ok []

section Arrived

variable {db : Db} {now : Int} {d : SyncDecision} {s : Source} {sources : List Source}

theorem Done.meets (done : Done db now d sources) (mem : s ∈ sources)
    (target : d.target = some want) (source : want.source = s) :
    ∃ e, latest db.entitlements.rows s = some e ∧ Meets want e := by
  have noop := converge_noop_iff.mp (done s mem)
  simp only [SyncDecision.restrict, target, Option.filter_some, source, decide_true, if_true]
    at noop
  exact noop.2

theorem Done.active (done : Done db now d sources) (mem : s ∈ sources)
    (found : latest db.entitlements.rows s = some e) (active : e.status = .active) :
    ∃ want, d.target = some want ∧ want.source = s := by
  have noop := converge_noop_iff.mp (done s mem)
  cases target : (d.restrict s).target with
  | none =>
    rw [target] at noop
    exact absurd active (noop e found)
  | some want =>
    simp only [SyncDecision.restrict, Option.filter_eq_some_iff, decide_eq_true_eq] at target
    exact ⟨want, target.1, target.2⟩

end Arrived

/-- Whatever messages about a subscription are processed in whatever order, once one of them is
delivered the entitlements are what the facts demand, exactly when no row of a candidate source
was active behind the latest one. -/
theorem sync_converges_iff (env : Env) (now : Int) (userId productCode subscriptionId : String)
    (db : Db) (msgs : List OutboxMessage) (plans : List SourcePlan) (named : subscriptionId ≠ "")
    (concerns : ∀ msg ∈ msgs, Concerns db userId productCode subscriptionId msg)
    (delivered : .delivered plans ∈ (processMessages env now msgs db).1) :
    Synced now userId productCode subscriptionId db (processMessages env now msgs db).2 ↔
      ∀ s ∈ candidates subscriptionId, Lone db.entitlements.rows s := by
  obtain ⟨progress, sent⟩ := processMessages_progress env now named concerns
  have arrived := sent (.inr ⟨plans, delivered⟩)
  obtain ⟨d, decided, done⟩ := arrived.done
  rw [progress.syncDecision_eq] at decided
  have demand : demanded db now userId productCode = d.target := by
    simp [demanded, decided, Except.toOption]
  constructor
  · intro synced s mem
    rw [← progress.lone s]
    intro e inside of_s active
    obtain ⟨want, _, found⟩ := synced.alone e inside (of_s ▸ mem) active
    have source : want.source = s := (latest_spec found).2.1.symm.trans of_s
    rw [← source]
    exact found
  · intro lone
    refine ⟨fun want target => ?_, fun e inside mem active => ?_, progress.kept,
      fun hint same => arrived.plan named same⟩
    · rw [demand] at target
      obtain ⟨_, state, current, mem⟩ := decideSync_target decided target
      obtain ⟨hint, about⟩ := arrived.about
      rw [progress.syncSubscriptionId_eq, syncSubscriptionId, current] at about
      exact done.meets (about ▸ mem) target rfl
    · have found := (progress.lone e.source).mpr (lone e.source mem) e inside rfl active
      obtain ⟨want, target, source⟩ := done.active mem found active
      exact ⟨want, demand.trans target, source ▸ found⟩

/-! A user with one paid order. -/

def shop (status : SubscriptionStatus) (expiresAt : Int) (entitlements : EntitlementTable) : Db :=
  { users := ["u"], policies := [⟨"p", .published⟩], accounts := [⟨"a", "u"⟩]
    subscriptions := [⟨⟨"s", "u", "monthly", "coding-plan", status, some expiresAt⟩, 0⟩]
    orders := [⟨"o", "u", "monthly", .paid, some ⟨"p", ["m", "n", "m"], .subscription⟩, 0, 0⟩]
    entitlements }

def shopEnv : Env :=
  { uuid := fun db => "e" ++ String.ofList (db.entitlements.rows.map fun _ => '0')
    dbNow := fun _ => 0
    maxBackoff := 600000000 }

def shopMessage : OutboxMessage :=
  ⟨1, "entitlement.sync", some ⟨"u", "coding-plan", "", "", "", "", ""⟩, .pending, 0, none⟩

/-- The plan changed from a gift to a subscription that had been refunded before. -/
theorem sync_converges_mode_switch :
    let gift : Entitlement :=
      ⟨"g", "a", ⟨.grant, "bundle:s"⟩, ["m"], "p", 5, 5, some 90, 3, false, .active, 5⟩
    let old : Entitlement :=
      ⟨"e", "a", ⟨.subscription, "s"⟩, ["k"], "p", 1, 1, some 9, 2, false, .revoked, 1⟩
    let db := shop .active 90 ⟨[gift, old], by decide, by decide⟩
    Synced 20 "u" "coding-plan" "s" db
      (processMessages shopEnv 20 [shopMessage, shopMessage] db).2 := by
  intro gift old db
  refine (sync_converges_iff shopEnv 20 "u" "coding-plan" "s" db [shopMessage, shopMessage] []
    (by decide) ?_ (by decide +kernel)).mpr ?_
  · intro msg mem m payload
    obtain rfl : msg = shopMessage := by simpa using mem
    cases payload
    exact ⟨rfl, rfl, by decide +kernel⟩
  · unfold Lone
    decide +kernel

def newShop : Db := shop .active 90 ⟨[], .nil, .nil⟩

theorem redelivery_idle_new :
    (processMessages shopEnv 10 [shopMessage, shopMessage]
        (processMessages shopEnv 10 [shopMessage] newShop).2).2.entitlements =
      (processMessages shopEnv 10 [shopMessage] newShop).2.entitlements := by
  have concerns : ∀ msg ∈ [shopMessage] ++ [shopMessage, shopMessage],
      Concerns newShop "u" "coding-plan" "s" msg := by
    intro msg mem m payload
    obtain rfl : msg = shopMessage := by simpa using mem
    cases payload
    exact ⟨rfl, rfl, by decide +kernel⟩
  exact (redelivery_idle shopEnv (by decide) concerns (List.mem_singleton.mpr rfl) (by decide)).2

/-- A slow worker grants what another one has granted and renewed meanwhile: its row is a second
one of the same source, and a cancellation does not reach it. -/
theorem second_row_survives_cancellation :
    let empty := shop .active 90 ⟨[], .nil, .nil⟩
    let plans := (planSync empty 10 "u" "coding-plan" "").toOption.getD []
    let first := (processMessage shopEnv 10 empty shopMessage).2
    let renewed := (processMessage shopEnv 20 (shop .active 180 first.entitlements) shopMessage).2
    let late := applyPlans shopEnv "u" plans none renewed
    let db := shop .cancelled 180 late.2.entitlements
    let last := processMessages shopEnv 30 [shopMessage] db
    late.1 = .ok false ∧
      last.1 = [.delivered [⟨⟨.subscription, "s"⟩, "e", .retire 2 .revoked⟩]] ∧
      ¬ Synced 30 "u" "coding-plan" "s" db last.2 := by
  intro empty plans first renewed late db last
  refine ⟨by decide +kernel, by decide +kernel, fun synced => ?_⟩
  have left : ∃ e ∈ last.2.entitlements.rows, e.source ∈ candidates "s" ∧ e.status = .active := by
    decide +kernel
  obtain ⟨e, mem, source, active⟩ := left
  obtain ⟨want, demand, _⟩ := synced.alone e mem source active
  have nothing : demanded db 30 "u" "coding-plan" = none := by decide +kernel
  rw [nothing] at demand
  cases demand

end YunhouUsers.Inference.Entitlements
