import Mathlib.Order.Bounds.Basic
import YunhouUsers.Inference.AdmissionCheck

/-!
The deficit a rejected call is told: by the pure check (`quota.withDeficit`) and by `Reserve`.
-/

namespace YunhouUsers.Inference

open ReadCommitted Table Quota Postgres

/-- Only the blocks of the error and the hold are read. -/
def withDeficit (e : Err) (hold : Int) : Err :=
  match e with
  | .quotaExceeded blockedBy keyBudget reported =>
    let deficit := blockedBy.foldl (fun deficit b =>
      let avail := b.limit - b.used - b.reserved
      let avail := if avail < 0 then 0 else avail
      if hold - avail > deficit then hold - avail else deficit) 0
    .quotaExceeded blockedBy keyBudget
      (if deficit > 0 ∧ reported = none then some deficit else reported)
  | e => e

/-! The largest shortfall of several rooms. -/

/-- Both loops: the shortfall of a room counts when it is larger than what was found before. -/
def worst (hold deficit : Int) (rooms : List Int) : Int :=
  rooms.foldl (fun deficit room => if hold - room > deficit then hold - room else deficit) deficit

structure Tightest (room : WindowKind → Int) (kinds : List WindowKind) (m : Int) : Prop where
  attained : ∃ kind ∈ kinds, room kind = m
  least : ∀ kind ∈ kinds, m ≤ room kind

variable {room : WindowKind → Int} {kinds : List WindowKind}

theorem Tightest.unique {m m' : Int}
    (t : Tightest room kinds m) (t' : Tightest room kinds m') : m = m' := by
  obtain ⟨kind, mem, rfl⟩ := t.attained
  obtain ⟨kind', mem', rfl⟩ := t'.attained
  exact Int.le_antisymm (t.least kind' mem') (t'.least kind mem)

theorem exists_tightest (room : WindowKind → Int) (some_ : kinds ≠ []) :
    ∃ m, Tightest room kinds m := by
  induction kinds with
  | nil => exact absurd rfl some_
  | cons kind kinds ih =>
    by_cases empty : kinds = []
    · subst empty
      exact ⟨room kind, ⟨kind, by simp, rfl⟩, by simp⟩
    · obtain ⟨m, ⟨other, mem, is⟩, least⟩ := ih empty
      by_cases lower : m ≤ room kind
      · exact ⟨m, ⟨other, by simp [mem], is⟩, List.forall_mem_cons.mpr ⟨lower, least⟩⟩
      · refine ⟨room kind, ⟨kind, by simp, rfl⟩, List.forall_mem_cons.mpr ⟨Int.le_refl _, ?_⟩⟩
        intro k memk
        have := least k memk
        omega

theorem worst_spec (hold deficit : Int) (rooms : List Int) :
    deficit ≤ worst hold deficit rooms ∧ (∀ room ∈ rooms, hold - room ≤ worst hold deficit rooms) ∧
      (worst hold deficit rooms = deficit ∨
        ∃ room ∈ rooms, worst hold deficit rooms = hold - room) := by
  induction rooms generalizing deficit with
  | nil => simp [worst]
  | cons room rooms ih =>
    have step : worst hold deficit (room :: rooms) =
        worst hold (if hold - room > deficit then hold - room else deficit) rooms := rfl
    obtain ⟨above, all, which⟩ := ih (if hold - room > deficit then hold - room else deficit)
    rw [← step] at above all which
    refine ⟨by split at above <;> omega, List.forall_mem_cons.mpr ⟨?_, all⟩, ?_⟩
    · split at above <;> omega
    · rcases which with same | ⟨other, mem, same⟩
      · split at same
        · exact .inr ⟨room, by simp, same⟩
        · exact .inl same
      · exact .inr ⟨other, by simp [mem], same⟩

theorem worst_eq {hold deficit m : Int}
    (tightest : Tightest room kinds m) (short : deficit ≤ hold - m) :
    worst hold deficit (kinds.map room) = hold - m := by
  obtain ⟨above, all, which⟩ := worst_spec hold deficit (kinds.map room)
  obtain ⟨kind, mem, is⟩ := tightest.attained
  have reached := all m (List.mem_map.mpr ⟨kind, mem, is⟩)
  rcases which with same | ⟨x, memx, same⟩
  · omega
  · obtain ⟨other, memo, rfl⟩ := List.mem_map.mp memx
    have := tightest.least other memo
    omega

theorem worst_eq_iff {hold m d : Int} (tightest : Tightest room kinds m) (positive : 0 < d) :
    worst hold 0 (kinds.map room) = d ↔ hold - m = d := by
  by_cases short : 0 ≤ hold - m
  · rw [worst_eq tightest short]
  · obtain ⟨above, all, which⟩ := worst_spec hold 0 (kinds.map room)
    have none : worst hold 0 (kinds.map room) ≤ 0 := by
      rcases which with same | ⟨x, memx, same⟩
      · omega
      · obtain ⟨kind, mem, rfl⟩ := List.mem_map.mp memx
        have := tightest.least kind mem
        omega
    omega

/-! The windows in the way of a hold. -/

section Rows

variable (p : Policy) (rows : List QuotaWindow) (hold at_ : Int)

def storedRoom (kind : WindowKind) : Int :=
  match findWindow rows kind at_ with
  | some w => w.limit - w.used - w.reserved
  | none => 0

/-- The room the policy's limit leaves, where an overdrawn window leaves none. -/
def policyRoom (kind : WindowKind) : Int :=
  match findWindow rows kind at_ with
  | some w => max 0 ((p.limitFor kind).getD 0 - w.used - w.reserved)
  | none => 0

def blocking : List WindowKind :=
  p.enabledWindows.filter (fun kind => storedRoom rows at_ kind < hold)

/-- The holds of the rejected call with the limit of every blocking row raised by `d`. -/
def raised (d : Int) (windows : List QuotaWindow) : List QuotaWindow :=
  updateWhere (fun w => (windowHolds p rows hold at_).any (·.windowId = some w.id) &&
    w.limit - w.used - w.reserved < hold) (fun w => { w with limit := w.limit + d }) windows

end Rows

variable {db : Db} {p : Policy} {rows : List QuotaWindow} {hold at_ : Int}

def blockOf (p : Policy) (rows : List QuotaWindow) (at_ : Int) (kind : WindowKind) : WindowBlock :=
  match findWindow rows kind at_ with
  | some w =>
    { kind := some kind, limit := (p.limitFor kind).getD 0, used := w.used, reserved := w.reserved
      resetsAt := some w.stop }
  | none => ⟨some kind, 0, 0, 0, none⟩

theorem evaluateKinds_eq (positive : 0 < hold)
    (found : ∀ kind ∈ kinds, ∃ w, findWindow rows kind at_ = some w) :
    evaluateKinds p rows hold at_ kinds =
      .ok ((kinds.filter (fun kind => storedRoom rows at_ kind < hold)).map (blockOf p rows at_)) := by
  induction kinds with
  | nil => rfl
  | cons kind kinds ih =>
    obtain ⟨⟨w, is⟩, found⟩ := List.forall_mem_cons.mp found
    have same : w.available < hold ↔ storedRoom rows at_ kind < hold := by
      unfold storedRoom QuotaWindow.available
      simp only [is]
      split <;> omega
    simp only [evaluateKinds, is, ih found, bind, Except.bind, pure, Except.pure]
    by_cases short : storedRoom rows at_ kind < hold
    · simp [same, short, blockOf, is]
    · simp [same, short]

theorem blockOf_room (kind : WindowKind) :
    (if (blockOf p rows at_ kind).limit - (blockOf p rows at_ kind).used -
        (blockOf p rows at_ kind).reserved < 0 then 0
      else (blockOf p rows at_ kind).limit - (blockOf p rows at_ kind).used -
        (blockOf p rows at_ kind).reserved) = policyRoom p rows at_ kind := by
  unfold blockOf policyRoom
  cases findWindow rows kind at_ with
  | none => rfl
  | some w =>
    dsimp only
    split <;> omega

theorem check_deficit (positive : 0 < hold) (blocked : blocking p rows hold at_ ≠ [])
    (found : ∀ kind ∈ p.enabledWindows, ∃ w, findWindow rows kind at_ = some w) :
    ∃ e, evaluateAdmission p rows hold at_ = .error e ∧
      withDeficit e hold = .quotaExceeded ((blocking p rows hold at_).map (blockOf p rows at_)) false
        (if worst hold 0 ((blocking p rows hold at_).map (policyRoom p rows at_)) > 0 then
          some (worst hold 0 ((blocking p rows hold at_).map (policyRoom p rows at_))) else none) := by
  have named : evaluateKinds p rows hold at_ p.enabledWindows =
      .ok ((blocking p rows hold at_).map (blockOf p rows at_)) := evaluateKinds_eq positive found
  refine ⟨.quotaExceeded ((blocking p rows hold at_).map (blockOf p rows at_)) false none, ?_, ?_⟩
  · obtain ⟨b, bs, is⟩ : ∃ b bs, (blocking p rows hold at_).map (blockOf p rows at_) = b :: bs :=
      List.exists_cons_of_ne_nil (by simpa using blocked)
    rw [evaluateAdmission, if_neg (by omega), named, is]
  · simp only [withDeficit, List.foldl_map, blockOf_room, worst, and_true]

def holdOn (rows : List QuotaWindow) (hold at_ : Int) (kind : WindowKind) : HoldSpec :=
  ⟨targetOf kind, (findWindow rows kind at_).map (·.id), none, hold⟩

variable {windows : List QuotaWindow} {w : QuotaWindow}

theorem any_fits_iff (ids : (windows.map (·.id)).Nodup)
    (mem : w ∈ windows) (live : w.voided = false) (amount : Int) :
    windows.any (QuotaWindow.fits w.id amount) = true ↔ amount ≤ w.limit - w.used - w.reserved := by
  constructor
  · intro hit
    obtain ⟨x, memx, fits⟩ := List.any_eq_true.mp hit
    simp only [QuotaWindow.fits, Bool.and_eq_true, decide_eq_true_eq] at fits
    rw [← eq_of_key ids memx mem fits.1.1]
    omega
  · intro room
    refine List.any_eq_true.mpr ⟨w, mem, ?_⟩
    have enough : w.used + w.reserved + amount ≤ w.limit := by omega
    simp [QuotaWindow.fits, live, enough]

def reserveOn (id : Uuid) (amount : Int) (windows : List QuotaWindow) : List QuotaWindow :=
  updateWhere (QuotaWindow.fits id amount) (fun w => { w with reserved := w.reserved + amount })
    windows

variable {amount : Int}

theorem holdWindow_hit (q : HoldProgress) (kind : TargetKind)
    (ids : (db.windows.map (·.id)).Nodup) (mem : w ∈ db.windows)
    (live : w.voided = false) (room : amount ≤ w.limit - w.used - w.reserved) :
    (holdWindow q kind w.id amount).eval db =
      .ok (q.admitHold amount, { db with windows := reserveOn w.id amount db.windows }) := by
  have hit := (any_fits_iff ids mem live amount).mpr room
  unfold holdWindow
  rw [Txn.eval_bind_of_ok (tryUpdate_ok.mpr rfl), if_pos hit]
  rfl

theorem holdWindow_miss (q : HoldProgress) (kind : TargetKind)
    (ids : (db.windows.map (·.id)).Nodup) (mem : w ∈ db.windows)
    (live : w.voided = false) (short : w.limit - w.used - w.reserved < amount) :
    ∃ block : WindowBlock, (holdWindow q kind w.id amount).eval db =
      .ok (({ q with blocked := q.blocked ++ [block] } : HoldProgress).short
        (w.limit - w.used - w.reserved) amount,
        { db with windows := reserveOn w.id amount db.windows }) := by
  have miss : ¬ db.windows.any (QuotaWindow.fits w.id amount) = true := by
    rw [any_fits_iff ids mem live]
    omega
  have untouched : reserveOn w.id amount db.windows = db.windows := by
    refine updateWhere_eq_self fun x memx => ?_
    by_contra hit
    exact miss (List.any_eq_true.mpr ⟨x, memx, by simpa using hit⟩)
  have read : ({ db with windows := reserveOn w.id amount db.windows } : Db).findWindow w.id =
      some w := by
    rw [untouched]
    exact find_of_mem ids mem
  refine ⟨⟨windowKindOfTarget kind, w.limit, w.used, w.reserved, some w.stop⟩, ?_⟩
  unfold holdWindow
  rw [Txn.eval_bind_of_ok (tryUpdate_ok.mpr rfl), if_neg miss]
  unfold reserveOn at read
  rw [Txn.eval_query_bind, read]
  rfl

theorem short_deficit {q : HoldProgress} (nonneg : 0 ≤ q.deficit) (room amount : Int) :
    (q.short room amount).deficit = worst amount q.deficit [room] := by
  unfold HoldProgress.short worst
  simp only [List.foldl_cons, List.foldl_nil]
  by_cases more : amount - room > q.deficit
  · rw [if_pos ⟨by omega, more⟩, if_pos more]
  · rw [if_neg (fun h => more h.2), if_neg more]

theorem short_blocked (q : HoldProgress) (room amount : Int) :
    (q.short room amount).blocked = q.blocked ∧
      (q.short room amount).keyBudgetBlocked = q.keyBudgetBlocked := by
  unfold HoldProgress.short
  split <;> exact ⟨rfl, rfl⟩

theorem mem_reserveOn {id : Uuid}
    (mem : w ∈ windows) (other : w.id ≠ id) : w ∈ reserveOn id amount windows := by
  refine mem_updateWhere.mpr ⟨w, mem, ?_⟩
  simp [QuotaWindow.fits, other]

theorem reserveOn_ids (id : Uuid) (amount : Int) (windows : List QuotaWindow) :
    (reserveOn id amount windows).map (·.id) = windows.map (·.id) := by
  unfold reserveOn
  rw [map_updateWhere _ _ (fun w : QuotaWindow => w.id) (by intro; rfl)]

/-- The hold loop over the windows of the kinds: by induction, with the rows of the kinds still to
come as they were, since each update touches its own row only. -/
theorem applyHolds_report (nonneg : 0 ≤ hold) (distinct : kinds.Nodup)
    (found : ∀ kind ∈ kinds, ∃ w, findWindow rows kind at_ = some w) :
    ∀ (q : HoldProgress) (db : Db), 0 ≤ q.deficit → (db.windows.map (·.id)).Nodup →
      (∀ kind ∈ kinds, ∀ w, findWindow rows kind at_ = some w → w ∈ db.windows) →
      ∃ q' db', (applyHolds (kinds.map (holdOn rows hold at_)) q).eval db = .ok (q', db') ∧
        q'.keyBudgetBlocked = q.keyBudgetBlocked ∧
        (q'.blocked = [] ↔ q.blocked = [] ∧
          kinds.filter (fun kind => storedRoom rows at_ kind < hold) = []) ∧
        q'.deficit = worst hold q.deficit
          ((kinds.filter (fun kind => storedRoom rows at_ kind < hold)).map (storedRoom rows at_)) := by
  induction kinds with
  | nil => exact fun q db _ _ _ => ⟨q, db, rfl, rfl, by simp, rfl⟩
  | cons kind kinds ih =>
    intro q db positive ids stored
    obtain ⟨⟨w, is⟩, found⟩ := List.forall_mem_cons.mp found
    obtain ⟨new, distinct⟩ := List.nodup_cons.mp distinct
    have mem := stored kind (by simp) w is
    obtain ⟨-, ofKind, live⟩ := findWindow_spec is
    have room : storedRoom rows at_ kind = w.limit - w.used - w.reserved := by
      simp [storedRoom, is]
    have first : applyHold q (holdOn rows hold at_ kind) = holdWindow q (targetOf kind) w.id hold := by
      have window : targetOf kind ≠ .keyBudget := by cases kind <;> simp [targetOf]
      simp [applyHold, holdOn, window, is, Int.not_lt.mpr nonneg]
    have rest : ∀ kind' ∈ kinds, ∀ w', findWindow rows kind' at_ = some w' →
        w' ∈ reserveOn w.id hold db.windows := by
      intro kind' mem' w' is'
      have memw' := stored kind' (by simp [mem']) w' is'
      refine mem_reserveOn memw' fun same => ?_
      have equal := eq_of_key ids memw' mem same
      have ofKind' := (findWindow_spec is').2.1
      rw [equal, ofKind] at ofKind'
      exact new (ofKind' ▸ mem')
    have ids' : ((reserveOn w.id hold db.windows).map (·.id)).Nodup := by
      rw [reserveOn_ids]
      exact ids
    rw [List.map_cons, applyHolds, first]
    by_cases short : w.limit - w.used - w.reserved < hold
    · obtain ⟨block, ran⟩ := holdWindow_miss q (targetOf kind) ids mem live short
      have counted := short_deficit (q := { q with blocked := q.blocked ++ [block] }) positive
        (w.limit - w.used - w.reserved) hold
      obtain ⟨blocks, keyBudget⟩ := short_blocked { q with blocked := q.blocked ++ [block] }
        (w.limit - w.used - w.reserved) hold
      obtain ⟨q', db', ran', keyBudget', blocked', deficit'⟩ := ih distinct found
        (({ q with blocked := q.blocked ++ [block] } : HoldProgress).short
          (w.limit - w.used - w.reserved) hold) { db with windows := reserveOn w.id hold db.windows }
        (by rw [counted]; exact positive.trans (worst_spec _ _ _).1) ids' rest
      refine ⟨q', db', ?_, keyBudget'.trans keyBudget, ?_, ?_⟩
      · rw [Txn.eval_bind_of_ok ran]
        exact ran'
      · rw [blocked', blocks]
        simp [room, short]
      · rw [deficit', counted]
        simp [room, short, worst]
    · have ran := holdWindow_hit q (targetOf kind) ids mem live (Int.not_lt.mp short)
      obtain ⟨q', db', ran', keyBudget', blocked', deficit'⟩ := ih distinct found (q.admitHold hold)
        { db with windows := reserveOn w.id hold db.windows } positive ids' rest
      refine ⟨q', db', ?_, keyBudget', ?_, ?_⟩
      · rw [Txn.eval_bind_of_ok ran]
        exact ran'
      · rw [blocked']
        simp [room, short, HoldProgress.admitHold]
      · rw [deficit']
        simp [room, short, HoldProgress.admitHold]

theorem sortHolds_windowHolds : sortHolds (windowHolds p rows hold at_) =
    windowHolds p rows hold at_ := by
  unfold sortHolds windowHolds
  refine List.Pairwise.insertionSort_eq ?_
  rw [List.pairwise_map]
  have ordered : windowOrder.Pairwise (fun a b =>
      windowOrderKey (targetOf a) ≤ windowOrderKey (targetOf b)) := by decide
  exact ordered.filter _

section Reserve

variable (nonneg : 0 ≤ hold) (ids : (db.windows.map (·.id)).Nodup)
  (stored : ∀ w ∈ rows, w ∈ db.windows)
  (found : ∀ kind ∈ p.enabledWindows, ∃ w, findWindow rows kind at_ = some w)
include nonneg ids stored found

theorem reserve_deficit {cmd : ReserveCommand} (newId : Nat → Uuid)
    (asked : cmd.holds = windowHolds p rows hold at_)
    (active : ∃ a, db.findAccount cmd.request.billingAccountId = some a ∧ a.status = .active) {m : Int}
    (tightest : Tightest (storedRoom rows at_) (blocking p rows hold at_) m) :
    ∃ blocks, (reserve cmd newId).eval db = .error (.quotaExceeded blocks false (some (hold - m))) := by
  have distinct : p.enabledWindows.Nodup := (by decide : windowOrder.Nodup).filter _
  obtain ⟨q, db', ran, keyBudget, blocked, deficit⟩ := applyHolds_report nonneg distinct found {} db
    (Int.le_refl 0) ids (fun kind _ w is => stored w (findWindow_spec is).1)
  obtain ⟨kind, mem, is⟩ := tightest.attained
  have short : m < hold := by
    have := (List.mem_filter.mp mem).2
    simp only [decide_eq_true_eq] at this
    omega
  have shortfall : q.deficit = hold - m := by
    rw [deficit]
    refine worst_eq tightest ?_
    change 0 ≤ hold - m
    omega
  have some_ : q.blocked ≠ [] := by
    intro none
    exact List.ne_nil_of_mem mem (blocked.mp none).2
  have ran' : (applyHolds (windowHolds p rows hold at_) {}).eval db = .ok (q, db') := ran
  refine ⟨q.blocked, ?_⟩
  unfold reserve
  rw [Txn.eval_bind_of_ok (lockAccountTx_ok.mpr ⟨active, rfl⟩), asked, sortHolds_windowHolds,
    Txn.eval_bind_of_ok ran', keyBudget, shortfall]
  have refused : (q.blocked.isEmpty && !({} : HoldProgress).keyBudgetBlocked) = false := by
    simp [some_]
  have reported : hold - m > 0 := by omega
  rw [refused, if_pos reported]
  rfl

omit nonneg ids stored found in
theorem findWindow_raised (d : Int) (kind : WindowKind) :
    findWindow (raised p rows hold at_ d rows) kind at_ =
      (findWindow rows kind at_).map (fun w =>
        if (windowHolds p rows hold at_).any (·.windowId = some w.id) &&
          w.limit - w.used - w.reserved < hold then { w with limit := w.limit + d } else w) := by
  unfold findWindow raised updateWhere
  rw [List.find?_map]
  congr 2
  funext w
  simp only [Function.comp_apply]
  split <;> rfl

theorem holdsTaken_raised (d : Int) :
    HoldsTaken { db with windows := raised p rows hold at_ d db.windows }
        (windowHolds p rows hold at_) ↔
      ∀ kind ∈ blocking p rows hold at_, hold - storedRoom rows at_ kind ≤ d := by
  have sameHolds : windowHolds p (raised p rows hold at_ d rows) hold at_ =
      windowHolds p rows hold at_ := by
    refine List.map_congr_left fun kind _ => ?_
    rw [findWindow_raised, Option.map_map]
    congr 2
    funext w
    simp only [Function.comp_apply]
    split <;> rfl
  have ids' : ((raised p rows hold at_ d db.windows).map (·.id)).Nodup := by
    unfold raised
    rw [map_updateWhere _ _ (fun w : QuotaWindow => w.id) (by intro; rfl)]
    exact ids
  have stored' : ∀ w ∈ raised p rows hold at_ d rows, w ∈ raised p rows hold at_ d db.windows := by
    intro w mem
    obtain ⟨x, memx, is⟩ := mem_updateWhere.mp mem
    exact mem_updateWhere.mpr ⟨x, stored x memx, is⟩
  have found' : ∀ kind ∈ p.enabledWindows,
      ∃ w, findWindow (raised p rows hold at_ d rows) kind at_ = some w := by
    intro kind mem
    obtain ⟨w, is⟩ := found kind mem
    rw [findWindow_raised, is]
    exact ⟨_, rfl⟩
  have each : ∀ kind ∈ p.enabledWindows,
      ((∃ w, findWindow (raised p rows hold at_ d rows) kind at_ = some w ∧
          w.used + w.reserved + hold ≤ w.limit) ↔
        (storedRoom rows at_ kind < hold → hold - storedRoom rows at_ kind ≤ d)) := by
    intro kind mem
    obtain ⟨w, is⟩ := found kind mem
    have named : (windowHolds p rows hold at_).any (·.windowId = some w.id) = true :=
      List.any_eq_true.mpr ⟨holdOn rows hold at_ kind, List.mem_map.mpr ⟨kind, mem, rfl⟩,
        by simp [holdOn, is]⟩
    have room : storedRoom rows at_ kind = w.limit - w.used - w.reserved := by
      simp [storedRoom, is]
    rw [findWindow_raised, is, room]
    simp only [named, Bool.true_and, decide_eq_true_eq, Option.map_some, Option.some.injEq,
      exists_eq_left']
    split
    · dsimp only
      omega
    · omega
  rw [← sameHolds, holdsTaken_iff ids' stored' found' nonneg]
  constructor
  · intro taken kind mem
    obtain ⟨enabled, short⟩ := List.mem_filter.mp mem
    exact (each kind enabled).mp (taken kind enabled) (by simpa using short)
  · intro covered kind enabled
    refine (each kind enabled).mpr fun short => covered kind (List.mem_filter.mpr ⟨enabled, ?_⟩)
    simpa using short

theorem blocking_of_rejected (rejected : ¬ HoldsTaken db (windowHolds p rows hold at_)) :
    blocking p rows hold at_ ≠ [] := by
  intro none
  refine rejected ((holdsTaken_iff ids stored found nonneg).mpr fun kind mem => ?_)
  obtain ⟨w, is⟩ := found kind mem
  have room := List.filter_eq_nil_iff.mp none kind mem
  simp only [storedRoom, is, decide_eq_true_eq, Int.not_lt] at room
  exact ⟨w, is, by omega⟩

/-- The deficits of the two paths agree, and are the least raise that admits the hold, exactly when
the tightest blocking window has the same room by the policy's limit, counted as none when it is
overdrawn, as by its stored row. -/
theorem deficit_exact_iff {cmd : ReserveCommand} (newId : Nat → Uuid)
    (asked : cmd.holds = windowHolds p rows hold at_)
    (active : ∃ a, db.findAccount cmd.request.billingAccountId = some a ∧ a.status = .active)
    (rejected : ¬ HoldsTaken db (windowHolds p rows hold at_)) :
    (∃ d e blocks blocks', evaluateAdmission p rows hold at_ = .error e ∧
        withDeficit e hold = .quotaExceeded blocks false (some d) ∧
        (reserve cmd newId).eval db = .error (.quotaExceeded blocks' false (some d)) ∧
        IsLeast {d | HoldsTaken { db with windows := raised p rows hold at_ d db.windows }
          (windowHolds p rows hold at_)} d) ↔
      ∃ m, Tightest (storedRoom rows at_) (blocking p rows hold at_) m ∧
        Tightest (policyRoom p rows at_) (blocking p rows hold at_) m := by
  have blocked := blocking_of_rejected nonneg ids stored found rejected
  obtain ⟨m, tightest⟩ := exists_tightest (storedRoom rows at_) blocked
  obtain ⟨m', tightest'⟩ := exists_tightest (policyRoom p rows at_) blocked
  obtain ⟨blocks', stored_⟩ := reserve_deficit nonneg ids stored found newId asked active tightest
  have roomy : 0 ≤ m' := by
    obtain ⟨kind, -, rfl⟩ := tightest'.attained
    unfold policyRoom
    split
    · exact le_max_left _ _
    · exact Int.le_refl 0
  have short : m < hold := by
    obtain ⟨kind, mem, rfl⟩ := tightest.attained
    simpa using (List.mem_filter.mp mem).2
  have least : IsLeast {d | HoldsTaken { db with windows := raised p rows hold at_ d db.windows }
      (windowHolds p rows hold at_)} (hold - m) := by
    constructor
    · refine (holdsTaken_raised nonneg ids stored found _).mpr fun kind mem => ?_
      have := tightest.least kind mem
      omega
    · intro d taken
      obtain ⟨kind, mem, is⟩ := tightest.attained
      have := (holdsTaken_raised nonneg ids stored found d).mp taken kind mem
      omega
  constructor
  · rintro ⟨d, e, blocks, _, failed, reported, store, -⟩
    rw [stored_] at store
    cases store
    refine ⟨m, tightest, ?_⟩
    -- a hold of nothing passes the check, so the reported hold is positive
    have positive : 0 < hold := by
      by_contra zero
      have passes : evaluateAdmission p rows hold at_ = .ok () := by
        refine (evaluateAdmission_ok nonneg).mpr fun kind mem => ?_
        obtain ⟨w, is⟩ := found kind mem
        refine ⟨w, is, ?_⟩
        rw [le_available_iff nonneg]
        omega
      cases failed.symm.trans passes
    obtain ⟨e', failed', reported'⟩ := check_deficit positive blocked found
    cases failed.symm.trans failed'
    rw [reported'] at reported
    have counted : worst hold 0 ((blocking p rows hold at_).map (policyRoom p rows at_)) =
        hold - m := by
      split at reported
      · exact Option.some.inj (Err.quotaExceeded.inj reported).2.2
      · cases (Err.quotaExceeded.inj reported).2.2
    rw [worst_eq_iff tightest' (by omega)] at counted
    obtain rfl : m' = m := by omega
    exact tightest'
  · rintro ⟨m'', tight, tight'⟩
    obtain rfl := tight.unique tightest
    obtain rfl := tight'.unique tightest'
    obtain ⟨e, failed, reported⟩ := check_deficit (by omega) blocked found
    rw [worst_eq tightest' (by omega), if_pos (by omega)] at reported
    exact ⟨hold - m'', e, _, blocks', failed, reported, stored_, least⟩

end Reserve

def callWith (holds : List HoldSpec) : ReserveCommand :=
  { request :=
      { id := 3, billingAccountId := 1, apiKeyId := none, entitlementId := 2, policyVersionId := 5
        priceVersionId := none, status := .authenticated, admittedAt := none
        windowFiveHourId := none, windowWeeklyId := none, windowMonthlyId := none
        reservedMicros := none, settledMicros := none, chargeSource := .plan
        usageStatus := .pending, lastError := "", completedAt := none }
    holds, admittedAt := 50 }

theorem deficit_exact_near_limit :
    let w : QuotaWindow := ⟨1, 2, .fiveHour, 0, 100, 10, 6, 3, false⟩
    let db : Db := { accounts := [⟨1, .active⟩], windows := [w] }
    let holds := windowHolds ⟨some 10, none, none⟩ [w] 3 50
    ∃ d e blocks blocks', evaluateAdmission ⟨some 10, none, none⟩ [w] 3 50 = .error e ∧
      withDeficit e 3 = .quotaExceeded blocks false (some d) ∧
      (reserve (callWith holds) id).eval db = .error (.quotaExceeded blocks' false (some d)) ∧
      IsLeast {d | HoldsTaken
        { db with windows := raised ⟨some 10, none, none⟩ [w] 3 50 d db.windows } holds} d := by
  intro w db holds
  have ids : (db.windows.map (·.id)).Nodup := by decide
  have stored : ∀ x ∈ [w], x ∈ db.windows := fun _ mem => mem
  have found : ∀ kind ∈ (⟨some 10, none, none⟩ : Policy).enabledWindows,
      ∃ x, findWindow [w] kind 50 = some x := by
    intro kind mem
    obtain ⟨limit, enabled⟩ := mem_enabledWindows.mp mem
    cases kind with
    | fiveHour => exact ⟨w, by decide⟩
    | weekly => cases enabled
    | monthly => cases enabled
  have blocked : blocking ⟨some 10, none, none⟩ [w] 3 50 = [.fiveHour] := by decide
  refine (deficit_exact_iff (by decide) ids stored found id rfl ⟨⟨1, .active⟩, rfl, rfl⟩ ?_).mpr
    ⟨1, ?_, ?_⟩
  · rw [holdsTaken_iff ids stored found (by decide)]
    intro taken
    obtain ⟨x, is, room⟩ := taken .fiveHour (by decide)
    cases (by decide : findWindow [w] .fiveHour 50 = some w).symm.trans is
    exact absurd room (by decide)
  · rw [blocked]
    exact ⟨⟨.fiveHour, by simp, by decide⟩, by decide⟩
  · rw [blocked]
    exact ⟨⟨.fiveHour, by simp, by decide⟩, by decide⟩

/-- A correction took the window to 15 of 10: the check says that a hold of three lacks three, the
store that it lacks eight. -/
theorem deficits_differ_when_overdrawn :
    let w : QuotaWindow := ⟨1, 2, .fiveHour, 0, 100, 10, 15, 0, false⟩
    let db : Db := { accounts := [⟨1, .active⟩], windows := [w] }
    let block : WindowBlock := ⟨some .fiveHour, 10, 15, 0, some 100⟩
    evaluateAdmission ⟨some 10, none, none⟩ [w] 3 50 = .error (.quotaExceeded [block] false none) ∧
      withDeficit (.quotaExceeded [block] false none) 3 = .quotaExceeded [block] false (some 3) ∧
      (reserve (callWith (windowHolds ⟨some 10, none, none⟩ [w] 3 50)) id).eval db =
        .error (.quotaExceeded [block] false (some 8)) := by
  decide +kernel

end YunhouUsers.Inference
