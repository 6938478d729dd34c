import YunhouUsers.Inference.Quota.Policy
import YunhouUsers.Inference.Postgres.Effects.Admission

/-!
The pure admission check against the guarded updates of `Reserve`.
-/

namespace YunhouUsers.Inference

open ReadCommitted Table Quota Postgres

def targetOf : WindowKind → TargetKind
  | .fiveHour => .windowFiveHour
  | .weekly => .windowWeekly
  | .monthly => .windowMonthly

def windowHolds (p : Policy) (windows : List QuotaWindow) (hold at_ : Int) : List HoldSpec :=
  p.enabledWindows.map fun kind =>
    ⟨targetOf kind, (findWindow windows kind at_).map (·.id), none, hold⟩

def HoldsTaken (db : Db) (holds : List HoldSpec) : Prop :=
  ∃ p db', (applyHolds holds {}).eval db = .ok (p, db') ∧ p.Clear

theorem holdWindow_runs (p : HoldProgress) (kind : TargetKind) (id : Uuid) (amount : Int)
    (db : Db) :
    ∃ p', (holdWindow p kind id amount).eval db = .ok (p', { db with
        windows := updateWhere (QuotaWindow.fits id amount)
          (fun w => { w with reserved := w.reserved + amount }) db.windows }) ∧
      (p'.Clear ↔ p.Clear ∧ db.windows.any (QuotaWindow.fits id amount) = true) := by
  simp only [holdWindow, Txn.eval_bind, tryUpdate, Txn.eval_exec, Except.map, Except.bind]
  by_cases hit : db.windows.any (QuotaWindow.fits id amount) = true
  · rw [if_pos hit]
    exact ⟨p.admitHold amount, rfl, by simp [HoldProgress.admitHold_clear, hit]⟩
  · rw [if_neg hit, Txn.eval_query_bind]
    -- a miss blocks, whatever the detail says
    split
    · exact ⟨_, rfl, by rw [HoldProgress.short_clear]; simp [HoldProgress.Clear, hit]⟩
    · exact ⟨_, rfl, by simp [HoldProgress.Clear, hit]⟩

theorem any_fits_other {id id' : Uuid} (other : id' ≠ id) (amount amount' : Int)
    (windows : List QuotaWindow) :
    (updateWhere (QuotaWindow.fits id amount) (fun w => { w with reserved := w.reserved + amount })
      windows).any (QuotaWindow.fits id' amount') = windows.any (QuotaWindow.fits id' amount') := by
  rw [updateWhere, List.any_map]
  congr 1
  funext w
  simp only [Function.comp_apply]
  split
  · rename_i hit
    have is : w.id = id := by
      simp only [QuotaWindow.fits, Bool.and_eq_true, decide_eq_true_eq] at hit
      exact hit.1.1
    simp [QuotaWindow.fits, is, other.symm]
  · rfl

theorem applyHolds_windows {holds : List HoldSpec}
    (distinct : (holds.map (·.windowId)).Nodup)
    (named : ∀ h ∈ holds, h.targetKind ≠ .keyBudget ∧ 0 ≤ h.amount ∧ ∃ id, h.windowId = some id) :
    ∀ (p : HoldProgress) (db : Db), ∃ p' db', (applyHolds holds p).eval db = .ok (p', db') ∧
      (p'.Clear ↔ p.Clear ∧ ∀ h ∈ holds, ∀ id, h.windowId = some id →
        db.windows.any (QuotaWindow.fits id h.amount) = true) := by
  induction holds with
  | nil => exact fun p db => ⟨p, db, rfl, by simp⟩
  | cons h holds ih =>
    intro p db
    rw [List.map_cons, List.nodup_cons] at distinct
    obtain ⟨⟨window, nonneg, id, is⟩, named⟩ := List.forall_mem_cons.mp named
    obtain ⟨p₁, ran, clear⟩ := holdWindow_runs p h.targetKind id h.amount db
    obtain ⟨p₂, db₂, rest, clear'⟩ := ih distinct.2 named p₁ { db with
      windows := updateWhere (QuotaWindow.fits id h.amount)
        (fun w => { w with reserved := w.reserved + h.amount }) db.windows }
    have first : applyHold p h = holdWindow p h.targetKind id h.amount := by
      simp [applyHold, window, is, Int.not_lt.mpr nonneg]
    refine ⟨p₂, db₂, ?_, ?_⟩
    · rw [applyHolds, first, Txn.eval_bind, ran]
      exact rest
    · rw [clear', clear, List.forall_mem_cons, and_assoc]
      refine and_congr_right fun _ => and_congr ?_ ?_
      · simp [is]
      · refine forall_congr' fun h' => forall_congr' fun mem => forall_congr' fun id' =>
          forall_congr' fun is' => ?_
        have other : id' ≠ id := by
          rintro rfl
          exact distinct.1 (List.mem_map.mpr ⟨h', mem, is'.trans is.symm⟩)
        rw [any_fits_other other]

section Check

variable {db : Db} {p : Policy} {rows : List QuotaWindow} {hold at_ : Int}

theorem findWindow_spec {kind : WindowKind} {w : QuotaWindow}
    (found : findWindow rows kind at_ = some w) :
    w ∈ rows ∧ w.kind = kind ∧ w.voided = false := by
  have live := List.find?_some found
  simp only [liveAt, Bool.and_eq_true, decide_eq_true_eq, Bool.not_eq_true'] at live
  exact ⟨List.mem_of_find?_eq_some found, live.1.1, live.1.2⟩

variable (ids : (db.windows.map (·.id)).Nodup) (stored : ∀ w ∈ rows, w ∈ db.windows)
  (found : ∀ kind ∈ p.enabledWindows, ∃ w, findWindow rows kind at_ = some w)
include ids stored found

theorem windowHolds_distinct (hold : Int) :
    ((windowHolds p rows hold at_).map (·.windowId)).Nodup := by
  rw [windowHolds, List.map_map]
  refine List.Nodup.map_on ?_ ((by decide : windowOrder.Nodup).filter _)
  intro kind mem kind' mem' same
  obtain ⟨w, is⟩ := found kind mem
  obtain ⟨w', is'⟩ := found kind' mem'
  simp only [Function.comp_apply, is, is', Option.map_some, Option.some.injEq] at same
  have eq := eq_of_key ids (stored w (findWindow_spec is).1) (stored w' (findWindow_spec is').1) same
  rw [← (findWindow_spec is).2.1, eq, (findWindow_spec is').2.1]

theorem holdsTaken_iff (nonneg : 0 ≤ hold) :
    HoldsTaken db (windowHolds p rows hold at_) ↔ ∀ kind ∈ p.enabledWindows,
      ∃ w, findWindow rows kind at_ = some w ∧ w.used + w.reserved + hold ≤ w.limit := by
  have named : ∀ h ∈ windowHolds p rows hold at_, h.targetKind ≠ .keyBudget ∧ 0 ≤ h.amount ∧
      ∃ id, h.windowId = some id := by
    intro h mem
    obtain ⟨kind, enabled, rfl⟩ := List.mem_map.mp mem
    obtain ⟨w, is⟩ := found kind enabled
    exact ⟨by cases kind <;> simp [targetOf], nonneg, w.id, by simp [is]⟩
  obtain ⟨p', db', ran, clear⟩ :=
    applyHolds_windows (windowHolds_distinct ids stored found hold) named {} db
  have taken : HoldsTaken db (windowHolds p rows hold at_) ↔ p'.Clear := by
    constructor
    · rintro ⟨q, db'', ran', done⟩
      cases ran.symm.trans ran'
      exact done
    · exact fun done => ⟨p', db', ran, done⟩
  rw [taken, clear, windowHolds, List.forall_mem_map]
  simp only [HoldProgress.Clear, true_and, and_self]
  refine forall_congr' fun kind => forall_congr' fun mem => ?_
  obtain ⟨w, is⟩ := found kind mem
  obtain ⟨inside, _, live⟩ := findWindow_spec is
  simp only [is, Option.map_some, Option.some.injEq, forall_eq', exists_eq_left']
  constructor
  · intro hit
    obtain ⟨x, memx, fits⟩ := List.any_eq_true.mp hit
    simp only [QuotaWindow.fits, Bool.and_eq_true, decide_eq_true_eq] at fits
    rw [← eq_of_key ids memx (stored w inside) fits.1.1]
    exact fits.2
  · intro room
    exact List.any_eq_true.mpr ⟨w, stored w inside, by simp [QuotaWindow.fits, live, room]⟩

end Check

theorem le_available_iff {w : QuotaWindow} {hold : Int} (nonneg : 0 ≤ hold) :
    hold ≤ w.available ↔
      w.used + w.reserved + hold ≤ w.limit ∨ hold = 0 ∧ w.limit < w.used + w.reserved := by
  unfold QuotaWindow.available
  dsimp only
  split_ifs <;> omega

/-- The two agree on every positive hold; on a hold of nothing they agree unless an enabled window
is overdrawn. -/
theorem admission_check_agrees_iff (db : Db) (p : Policy) (rows : List QuotaWindow)
    (hold at_ : Int) (nonneg : 0 ≤ hold) (ids : (db.windows.map (·.id)).Nodup)
    (stored : ∀ w ∈ rows, w ∈ db.windows)
    (resolved : ∀ kind limit, p.limitFor kind = some limit →
      ∃ w, findWindow rows kind at_ = some w ∧ w.limit = limit) :
    (evaluateAdmission p rows hold at_ = .ok () ↔
        HoldsTaken db (windowHolds p rows hold at_)) ↔
      0 < hold ∨ ∀ kind ∈ p.enabledWindows, ∀ w, findWindow rows kind at_ = some w →
        w.used + w.reserved ≤ w.limit := by
  have found : ∀ kind ∈ p.enabledWindows, ∃ w, findWindow rows kind at_ = some w := by
    intro kind mem
    obtain ⟨limit, enabled⟩ := mem_enabledWindows.mp mem
    obtain ⟨w, found, -⟩ := resolved kind limit enabled
    exact ⟨w, found⟩
  rw [evaluateAdmission_ok nonneg, holdsTaken_iff ids stored found nonneg]
  constructor
  · intro agree
    by_cases positive : 0 < hold
    · exact .inl positive
    · have zero : hold = 0 := by omega
      have accepted : ∀ kind ∈ p.enabledWindows,
          ∃ w, findWindow rows kind at_ = some w ∧ hold ≤ w.available := by
        intro kind mem
        obtain ⟨w, found⟩ := found kind mem
        exact ⟨w, found, by rw [le_available_iff nonneg]; omega⟩
      refine .inr fun kind mem w found => ?_
      obtain ⟨w', found', room⟩ := agree.mp accepted kind mem
      cases found.symm.trans found'
      omega
  · intro spared
    refine forall_congr' fun kind => forall_congr' fun mem => exists_congr fun w =>
      and_congr_right fun found => ?_
    rw [le_available_iff nonneg]
    rcases spared with positive | sound
    · omega
    · have := sound kind mem w found
      omega

theorem admission_check_agrees_last_unit :
    let w : QuotaWindow := ⟨1, 2, .fiveHour, 0, 100, 10, 6, 3, false⟩
    (evaluateAdmission ⟨some 10, none, none⟩ [w] 1 50 = .ok () ↔
      HoldsTaken { windows := [w] } (windowHolds ⟨some 10, none, none⟩ [w] 1 50)) := by
  intro w
  refine (admission_check_agrees_iff { windows := [w] } ⟨some 10, none, none⟩ [w] 1 50 (by decide)
    (by decide) (by simp) ?_).mpr (.inl (by decide))
  intro kind limit enabled
  cases kind with
  | fiveHour => exact ⟨w, by decide, Option.some.inj enabled⟩
  | weekly => cases enabled
  | monthly => cases enabled

/-- A correction took the window to 11 of 10: the check lets a hold of nothing pass, the store does
not. -/
theorem overdrawn_window_passes_check :
    let w : QuotaWindow := ⟨1, 2, .fiveHour, 0, 100, 10, 11, 0, false⟩
    evaluateAdmission ⟨some 10, none, none⟩ [w] 0 50 = .ok () ∧
      ¬ HoldsTaken { windows := [w] } (windowHolds ⟨some 10, none, none⟩ [w] 0 50) := by
  intro w
  refine ⟨by decide, ?_⟩
  rintro ⟨p, db', ran, clear, _⟩
  have one : ((applyHolds (windowHolds ⟨some 10, none, none⟩ [w] 0 50) {}).eval
      { windows := [w] }).toOption.map (fun r => r.1.blocked.length) = some 1 := by decide
  simp [ran, clear, Except.toOption] at one

end YunhouUsers.Inference
