import YunhouUsers.Inference.Quota.Partition
import YunhouUsers.Inference.Quota.Policy
import YunhouUsers.Inference.Conservation.Runs

/-!
Window activation over whole histories of calls.

The rows of an entitlement stay on its calendar and apart from each other, so that a consumption
binds to one row of each kind, and the read view shows that row.
-/

namespace YunhouUsers.Inference.Quota

open ReadCommitted

variable {iv : Interval}

def Tile (interval : Int → Except Err Interval) (range : Int → Prop) (iv : Interval) : Prop :=
  ∃ k, 0 ≤ k ∧ range k ∧ interval k = .ok iv

namespace Partition

variable {interval : Int → Except Err Interval} {windowAt : Int → Except Err (Interval × Int)}
  {anchor : Int} {range reach : Int → Prop} (part : Partition interval windowAt anchor range reach)
include part

end Partition

variable {anchor : Int}

theorem weeklyWindowAt_tile {t n : Int} (found : weeklyWindowAt anchor t = .ok (iv, n)) :
    anchor ≤ t ∧ Tile (weeklyInterval anchor) (fun n => n ≤ lastWeek) iv := by
  unfold weeklyWindowAt at found
  split_ifs at found with early
  have known := Int.not_lt.mp early
  have range : 0 ≤ sub t anchor / (weeklyDuration * 1000) ∧
      sub t anchor / (weeklyDuration * 1000) ≤ lastWeek := by
    simp only [sub, lastWeek, weeklyDuration, day, hour]
    omega
  simp only [weeklyInterval_eq anchor range.1 range.2, Except.map] at found
  cases found
  exact ⟨known, _, range.1, range.2, weeklyInterval_eq anchor range.1 range.2⟩

theorem monthlyWindowAt_tile {t k : Int} (found : monthlyWindowAt anchor t = .ok (iv, k)) :
    anchor ≤ t ∧ Tile (monthlyInterval anchor) (fun _ => True) iv ∧ iv.contains t = true := by
  have known : anchor ≤ t := by
    unfold monthlyWindowAt at found
    split_ifs at found with early
    all_goals exact Int.not_lt.mp early
  obtain ⟨iv', k', found', lo, _, is, contains, _⟩ := (monthly_partition anchor).found t known trivial
  cases found.symm.trans found'
  exact ⟨known, ⟨k, lo, trivial, is⟩, contains⟩

def OnCalendar (anchor : Int) (w : QuotaWindow) : Prop :=
  match w.kind with
  | .fiveHour => True
  | .weekly => Tile (weeklyInterval anchor) (fun n => n ≤ lastWeek) (QuotaWindow.interval w)
  | .monthly => Tile (monthlyInterval anchor) (fun _ => True) (QuotaWindow.interval w)

variable {kind : WindowKind} {t : Int} {w : QuotaWindow}

variable {active : List QuotaWindow}

theorem consumptionWindow_onCalendar {opens : Bool}
    (ok : consumptionWindow kind anchor active t = .ok (iv, opens))
    (is : w.kind = kind) (interval : QuotaWindow.interval w = iv) : OnCalendar anchor w := by
  subst is
  rw [OnCalendar, interval]
  cases kind : w.kind with
  | fiveHour => trivial
  | weekly =>
    rw [kind] at ok
    obtain ⟨r, found, same⟩ := Txn.map_ok.mp ok
    cases same
    exact (weeklyWindowAt_tile found).2
  | monthly =>
    rw [kind] at ok
    obtain ⟨r, found, same⟩ := Txn.map_ok.mp ok
    cases same
    exact (monthlyWindowAt_tile found).2.1

end YunhouUsers.Inference.Quota

namespace YunhouUsers.Inference.Postgres

open ReadCommitted Table Quota

def NoOverlap (w x : QuotaWindow) : Prop :=
  w.voided = false → x.voided = false → w.entitlementId = x.entitlementId → w.kind = x.kind →
    w.stop ≤ x.start ∨ x.stop ≤ w.start

structure Fades (w x : QuotaWindow) : Prop where
  entitlementId : x.entitlementId = w.entitlementId
  kind : x.kind = w.kind
  start : x.start = w.start
  stop : x.stop = w.stop
  voided : x.voided = false → w.voided = false

variable {db : Db} {kind : WindowKind} {t : Int} {w : QuotaWindow}

structure Tiled (anchorOf : Uuid → Int) (windows : List QuotaWindow) : Prop where
  calendar : ∀ w ∈ windows, OnCalendar (anchorOf w.entitlementId) w
  apart : windows.Pairwise NoOverlap

namespace Tiled

variable {anchorOf : Uuid → Int} {windows : List QuotaWindow} (tiled : Tiled anchorOf windows)
include tiled

theorem map {f : QuotaWindow → QuotaWindow} (fades : ∀ w, Fades w (f w)) :
    Tiled anchorOf (windows.map f) := by
  constructor
  · intro x mem
    obtain ⟨w, memw, rfl⟩ := List.mem_map.mp mem
    have f := fades w
    have same := tiled.calendar w memw
    unfold OnCalendar at same ⊢
    simp only [QuotaWindow.interval, f.entitlementId, f.kind, f.start, f.stop] at same ⊢
    exact same
  · rw [List.pairwise_map]
    refine tiled.apart.imp fun {w x} apart => ?_
    intro w_live x_live
    rw [(fades w).entitlementId, (fades x).entitlementId, (fades w).kind, (fades x).kind,
      (fades w).start, (fades w).stop, (fades x).start, (fades x).stop]
    exact apart ((fades w).voided w_live) ((fades x).voided x_live)

theorem shift (r u : Uuid → Int) : Tiled anchorOf (shiftWindows r u windows) :=
  tiled.map fun _ => ⟨rfl, rfl, rfl, rfl, id⟩

theorem void (p : QuotaWindow → Bool) :
    Tiled anchorOf (updateWhere p (fun w => { w with voided := true }) windows) := by
  refine tiled.map fun w => ?_
  split
  · exact ⟨rfl, rfl, rfl, rfl, by simp⟩
  · exact ⟨rfl, rfl, rfl, rfl, id⟩

theorem insert (stored : db.windows = windows)
    (fine : windowViolation w db = none) (calendar : OnCalendar (anchorOf w.entitlementId) w) :
    Tiled anchorOf (windows ++ [w]) := by
  constructor
  · intro x mem
    rcases List.mem_append.mp mem with mem | mem
    · exact tiled.calendar x mem
    · cases List.mem_singleton.mp mem
      exact calendar
  · refine List.pairwise_append.mpr ⟨tiled.apart, List.pairwise_singleton _ _, ?_⟩
    intro x mem y is
    cases List.mem_singleton.mp is
    intro x_live _ entitlement kind
    unfold windowViolation at fine
    split_ifs at fine with _ _ _ _ _ overlap
    simp only [List.any_eq_true, Bool.and_eq_true, decide_eq_true_eq, Bool.not_eq_true',
      not_exists, not_and, and_imp, stored] at overlap
    have := overlap x mem x_live entitlement kind
    omega

end Tiled

section Activate

variable {anchorOf : Uuid → Int} {cmd : ActivateWindowsCommand} {newId : WindowKind → Uuid}
  (own : cmd.anchor = anchorOf cmd.entitlementId)
include own

variable {p : List QuotaWindow × List QuotaWindow}

theorem activateKind_tiled {out : List QuotaWindow} {db' : Db}
    (tiled : Tiled anchorOf db.windows)
    (ran : (activateKind cmd newId kind (activeRows cmd.entitlementId db) out).eval db =
      .ok (p, db')) : Tiled anchorOf db'.windows ∧ p.1 = activeRows cmd.entitlementId db' := by
  obtain ⟨_, rfl, rfl⟩ | ⟨limit, iv, _, opens, fine, rfl, rfl⟩ | ⟨_, _, _, _, rfl, rfl⟩ :=
    activateKind_cases ran
  · exact ⟨tiled, rfl⟩
  · refine ⟨tiled.insert rfl fine ?_, ?_⟩
    · exact own ▸ consumptionWindow_onCalendar opens rfl rfl
    · simp [activeRows, newWindow]
  · exact ⟨tiled, rfl⟩

theorem activateKinds_tiled {kinds : List WindowKind} :
    ∀ {out ws : List QuotaWindow} {db db' : Db}, Tiled anchorOf db.windows →
      (activateKinds cmd newId kinds (activeRows cmd.entitlementId db) out).eval db =
        .ok (ws, db') → Tiled anchorOf db'.windows := by
  induction kinds with
  | nil =>
    intro out ws db db' tiled ran
    cases ran
    exact tiled
  | cons kind kinds ih =>
    intro out ws db db' tiled ran
    simp only [activateKinds, Txn.eval_bind_ok] at ran
    obtain ⟨⟨active, out₁⟩, db₁, first, rest⟩ := ran
    obtain ⟨tiled, rfl⟩ := activateKind_tiled own tiled first
    exact ih tiled rest

end Activate

def Call.Anchored (anchorOf : Uuid → Int) : Call → Prop
  | .activateWindows cmd _ => cmd.anchor = anchorOf cmd.entitlementId
  | _ => True

theorem Tiled.commit {anchorOf : Uuid → Int} (tiled : Tiled anchorOf db.windows)
    (c : db.Conserved) {call : Call} (anchored : call.Anchored anchorOf) :
    Tiled anchorOf (call.commit db).windows := by
  refine call.commit_keeps (P := fun db => Tiled anchorOf db.windows) tiled fun db' ran => ?_
  cases call with
  | activateWindows =>
    obtain ⟨_, ran⟩ := ran
    exact activateKinds_tiled anchored tiled (activateWindowsTx_kinds ran)
  | reserve =>
    obtain ⟨_, ran⟩ := ran
    obtain ⟨_, _, _, rfl, _⟩ := reserve_ok c.unique ran
    dsimp only
    exact tiled.shift _ _
  | release | releaseFromReconciliation =>
    obtain ⟨_, p, _, _, _, _, _, _, _, rfl⟩ :=
      releaseLocked_ok c.unique c.reservationIds c.refsOk ran
    exact (tiled.shift _ _).void p
  | insertAttempt =>
    obtain ⟨_, rfl⟩ := insertAttemptTx_ok ran
    exact tiled
  | settle =>
    obtain ⟨_, _, _, _, _, _, ran⟩ := settle_ok c.noHolds ran
    obtain ⟨_, _, _, _, _, _, _, _, _, _, rfl⟩ :=
      settlePlan_ok c.unique c.reservationIds c.refsOk ran
    exact tiled.shift _ _
  | correctSettlement =>
    obtain ⟨_, _, _, _, _, _, rfl⟩ := correctSettlement_ok c.unique ran
    dsimp only
    exact tiled.shift _ _
  | markReconciliationRequired =>
    obtain ⟨_, rfl⟩ := markReconciliationRequired_ok ran
    exact tiled

theorem Tiled.runCalls {anchorOf : Uuid → Int} (fresh : db.Fresh) {calls : List Call}
    (shaped : ∀ call ∈ calls, call.Shaped) (anchored : ∀ call ∈ calls, call.Anchored anchorOf) :
    Tiled anchorOf (runCalls db calls).windows := by
  have start : db.Conserved ∧ Tiled anchorOf db.windows :=
    ⟨fresh.conserved, by simp [fresh.windows], by simp [fresh.windows]⟩
  have both : ∀ call ∈ calls, call.Shaped ∧ call.Anchored anchorOf :=
    fun call mem => ⟨shaped call mem, anchored call mem⟩
  have keeps : ∀ (db : Db) (call : Call), db.Conserved ∧ Tiled anchorOf db.windows →
      call.Shaped ∧ call.Anchored anchorOf →
      (call.commit db).Conserved ∧ Tiled anchorOf (call.commit db).windows :=
    fun _ _ inv ok => ⟨inv.1.commit ok.1, inv.2.commit inv.1 ok.2⟩
  exact (History.foldl_keeps keeps start (History.along_of_forall both)).2

theorem exists_ok {ε α β : Type} {x : Except ε α} {f : α → β} {b : β}
    (is : x.toOption.map f = some b) : ∃ a, x = .ok a ∧ f a = b := by
  cases x with
  | error e => cases is
  | ok a => exact ⟨a, rfl, Option.some.inj is⟩

end YunhouUsers.Inference.Postgres
