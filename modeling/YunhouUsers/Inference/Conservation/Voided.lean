import YunhouUsers.Inference.Conservation.Runs

/-!
Voided windows over whole histories of calls.

A window is voided when its last hold is given back.  Requests that were settled on it stay bound
to it, and a correction may charge them later.
-/

namespace YunhouUsers.Inference.Postgres

open ReadCommitted Table Accounting

def Db.HeldLive (db : Db) : Prop :=
  ∀ r ∈ db.reservations, r.state = .held → NamesLive db.windows r.windowId

def Db.VoidedUnused (db : Db) : Prop := ∀ w ∈ db.windows, w.voided = true → w.used = 0

variable {requestId : Uuid}

theorem mem_closeHeld {state : ReservationState} (final : state ≠ .held)
    {rows : List Reservation} {r : Reservation} (mem : r ∈ closeHeld requestId state rows)
    (held : r.state = .held) : r ∈ rows := by
  obtain ⟨r₀, mem₀, rfl⟩ := mem_updateWhere.mp mem
  by_cases hit : heldOf requestId r₀ = true
  · rw [if_pos hit] at held
    exact absurd held final
  · rw [if_neg hit]
    exact mem₀

/-! Holds keep to live windows, whatever is called. -/

namespace Db.HeldLive

variable {db db' : Db} (live : db.HeldLive)
include live

theorem opened (c : db.Conserved) (opened : db.Opened db') : db'.HeldLive := by
  obtain ⟨fresh, rfl, _, nodup⟩ := opened
  have ids := nodup c.unique.windows
  simp only [List.map_append] at ids
  intro r mem held w memw bound
  rcases List.mem_append.mp memw with memw | memw
  · exact live r mem held w memw bound
  · exact absurd rfl ((List.nodup_append.mp ids).2.2 w.id (c.known r mem w.id bound) w.id
      (List.mem_map_of_mem memw))

theorem reserve (c : db.Conserved) {cmd : ReserveCommand} {newId : Nat → Uuid} {id : Uuid}
    (ran : (Postgres.reserve cmd newId).eval db = .ok (id, db')) : db'.HeldLive := by
  obtain ⟨p, holds, _, rfl, _⟩ := reserve_ok c.unique ran
  intro r mem held
  rw [namesLive_shiftWindows]
  rcases List.mem_append.mp mem with mem | mem
  · exact live r mem held
  · obtain ⟨h, memh, _, rfl⟩ := mem_holdRows mem
    exact (holds h memh).2.2.1

theorem releaseLocked (c : db.Conserved) {fromReconciliation : Bool}
    (ran : (Postgres.releaseLocked requestId fromReconciliation).eval db = .ok ((), db')) :
    db'.HeldLive := by
  obtain ⟨_, p, _, _, _, _, _, _, unused, rfl⟩ :=
    releaseLocked_ok c.unique c.reservationIds c.refsOk ran
  intro r mem held w memw bound
  obtain ⟨w₁, mem₁, rfl⟩ := mem_updateWhere.mp memw
  by_cases hit : p w₁ = true
  · rw [if_pos hit] at bound
    exact absurd held ((unused w₁ mem₁ hit).2 r mem bound)
  · rw [if_neg hit] at bound ⊢
    exact namesLive_shiftWindows.mpr (live r (mem_closeHeld (by decide) mem held) held) w₁ mem₁ bound

theorem settle (c : db.Conserved) {cmd : SettleCommand} {now : Int}
    (ran : (Postgres.settle cmd now).eval db = .ok ((), db')) : db'.HeldLive := by
  obtain ⟨_, _, _, _, _, _, ran⟩ := settle_ok c.noHolds ran
  obtain ⟨_, _, _, _, _, _, _, _, _, _, rfl⟩ := settlePlan_ok c.unique c.reservationIds c.refsOk ran
  intro r mem held
  rw [namesLive_shiftWindows]
  exact live r (mem_closeHeld (by decide) mem held) held

theorem correctSettlement (c : db.Conserved) {cmd : CorrectionCommand} {adjId jobId : Uuid}
    {now : Int} (ran : (Postgres.correctSettlement cmd adjId jobId now).eval db = .ok ((), db')) :
    db'.HeldLive := by
  obtain ⟨_, _, _, _, _, _, rfl⟩ := correctSettlement_ok c.unique ran
  intro r mem held
  rw [namesLive_shiftWindows]
  exact live r mem held

theorem commit (c : db.Conserved) (call : Call) : (call.commit db).HeldLive := by
  refine call.commit_keeps live fun db' ran => ?_
  cases call with
  | activateWindows =>
    obtain ⟨_, ran⟩ := ran
    exact live.opened c (activateWindowsTx_ok ran)
  | reserve =>
    obtain ⟨_, ran⟩ := ran
    exact live.reserve c ran
  | release | releaseFromReconciliation => exact live.releaseLocked c ran
  | insertAttempt =>
    obtain ⟨_, rfl⟩ := insertAttemptTx_ok ran
    exact live
  | settle => exact live.settle c ran
  | correctSettlement => exact live.correctSettlement c ran
  | markReconciliationRequired =>
    obtain ⟨_, rfl⟩ := markReconciliationRequired_ok ran
    exact live

end Db.HeldLive

/-! Charges keep to live windows as long as corrections do. -/

/-- A correction is not of a request that is bound to a voided window. -/
def Call.SparesVoided (db : Db) : Call → Prop
  | .correctSettlement cmd _ _ _ => ∀ q ∈ db.findRequest cmd.requestId, ∀ w ∈ db.windows,
      w.voided = true → w.id ∉ q.windowIds
  | _ => True

theorem columnsShift_outside {q : Request} {w : Uuid} (outside : w ∉ q.windowIds) (signed : Int) :
    columnsShift q signed w = 0 := by
  simp only [Request.windowIds, List.mem_filterMap, List.mem_cons, List.not_mem_nil, or_false,
    not_exists, not_and] at outside
  simp [columnsShift, onRow, outside _ (.inl rfl), outside _ (.inr (.inl rfl)),
    outside _ (.inr (.inr rfl))]

namespace Db.VoidedUnused

variable {db db' : Db} (unused : db.VoidedUnused)
include unused

theorem shift {r u : Uuid → Int} (windows : db'.windows = shiftWindows r u db.windows)
    (none : ∀ w ∈ db.windows, w.voided = true → u w.id = 0) : db'.VoidedUnused := by
  intro w mem voided
  rw [windows] at mem
  obtain ⟨w₀, mem₀, rfl⟩ := List.mem_map.mp mem
  simp [unused w₀ mem₀ voided, none w₀ mem₀ voided]

theorem releaseLocked (c : db.Conserved) {fromReconciliation : Bool}
    (ran : (Postgres.releaseLocked requestId fromReconciliation).eval db = .ok ((), db')) :
    db'.VoidedUnused := by
  obtain ⟨_, p, _, _, _, _, _, _, empty, rfl⟩ :=
    releaseLocked_ok c.unique c.reservationIds c.refsOk ran
  intro w mem voided
  obtain ⟨w₁, mem₁, rfl⟩ := mem_updateWhere.mp mem
  by_cases hit : p w₁ = true
  · rw [if_pos hit]
    exact (empty w₁ mem₁ hit).1
  · rw [if_neg hit] at voided ⊢
    obtain ⟨w₀, mem₀, rfl⟩ := List.mem_map.mp mem₁
    simpa using unused w₀ mem₀ voided

theorem settle (c : db.Conserved) (live : db.HeldLive) {cmd : SettleCommand} {now : Int}
    (ran : (Postgres.settle cmd now).eval db = .ok ((), db')) : db'.VoidedUnused := by
  obtain ⟨_, _, _, _, _, _, ran⟩ := settle_ok c.noHolds ran
  obtain ⟨_, _, _, _, _, _, _, _, _, _, rfl⟩ := settlePlan_ok c.unique c.reservationIds c.refsOk ran
  refine unused.shift rfl fun w mem voided => total_eq_zero fun r memr => ?_
  obtain ⟨memr, held⟩ := List.mem_filter.mp memr
  simp only [heldOf, Bool.and_eq_true, decide_eq_true_eq] at held
  have outside : r.windowId ≠ some w.id := by
    intro bound
    simp [live r memr held.2 w mem bound] at voided
  simp [onRow, outside]

theorem commit (c : db.Conserved) (live : db.HeldLive) {call : Call}
    (spares : call.SparesVoided db) : (call.commit db).VoidedUnused := by
  refine call.commit_keeps unused fun db' ran => ?_
  cases call with
  | activateWindows =>
    obtain ⟨_, ran⟩ := ran
    obtain ⟨fresh, rfl, empty, _⟩ := activateWindowsTx_ok ran
    intro w mem voided
    rcases List.mem_append.mp mem with mem | mem
    · exact unused w mem voided
    · exact (empty w mem).1
  | reserve =>
    obtain ⟨_, ran⟩ := ran
    obtain ⟨_, _, _, rfl, _⟩ := reserve_ok c.unique ran
    exact unused.shift (u := fun _ => 0) rfl fun _ _ _ => rfl
  | release | releaseFromReconciliation => exact unused.releaseLocked c ran
  | insertAttempt =>
    obtain ⟨_, rfl⟩ := insertAttemptTx_ok ran
    exact unused
  | settle => exact unused.settle c live ran
  | correctSettlement =>
    obtain ⟨q, _, d, _, _, reads, rfl⟩ := correctSettlement_ok c.unique ran
    exact unused.shift (r := fun _ => 0) (u := columnsShift q (signedDelta d)) rfl fun w mem voided =>
      columnsShift_outside (spares q reads.found w mem voided) _
  | markReconciliationRequired =>
    obtain ⟨_, rfl⟩ := markReconciliationRequired_ok ran
    exact unused

end Db.VoidedUnused

@[mk_iff]
structure CarriesNothing (db : Db) (w : QuotaWindow) : Prop where
  used : w.used = 0
  reserved : w.reserved = 0
  unheld : ∀ r ∈ db.reservations, r.windowId = some w.id → r.state ≠ .held
  uncharged : ∀ q ∈ db.requests, db.boundTo q.id w.id = true → db.requestNet q.id ≤ 0

instance (db : Db) (w : QuotaWindow) : Decidable (CarriesNothing db w) :=
  decidable_of_iff _ (carriesNothing_iff db w).symm

theorem Db.Conserved.carriesNothing {db : Db} (c : db.Conserved) (live : db.HeldLive)
    (unused : db.VoidedUnused) {w : QuotaWindow} (mem : w ∈ db.windows) (voided : w.voided = true) :
    CarriesNothing db w := by
  have unheld : ∀ r ∈ db.reservations, r.windowId = some w.id → r.state ≠ .held := by
    intro r memr bound held
    simp [live r memr held w mem bound] at voided
  refine ⟨unused w mem voided, ?_, unheld, fun q memq bound => ?_⟩
  · rw [c.balanced.reserved w mem]
    refine total_eq_zero fun r memr => ?_
    by_cases bound : r.windowId = some w.id
    · simp [heldOnWindow, heldOn, unheld r memr bound]
    · simp [heldOnWindow, heldOn, onRow, bound]
  · -- the charges of all bound requests add up to nothing, and none is negative
    have inside : w.id ∈ q.windowIds := by
      rw [c.mem_windowIds memq]
      simpa [Db.boundTo] using bound
    have most : settledOnWindow w.id q ≤ total (settledOnWindow w.id) db.requests := by
      refine le_total (fun x memx => ?_) memq
      have := c.settledAmount_nonneg x memx
      rw [settledOnWindow]
      split_ifs <;> omega
    rw [← c.balanced.used w mem, unused w mem voided, settledOnWindow, if_pos inside] at most
    rw [c.booked.net q memq]
    exact most

/-- In every history whose corrections spare requests on voided windows, voided windows carry
nothing. -/
theorem voided_carry_nothing (db : Db) (fresh : db.Fresh) (calls : List Call)
    (shaped : ∀ call ∈ calls, call.Shaped)
    (spares : History.Along (fun db call => call.commit db) (fun db call => call.SparesVoided db)
      db calls) :
    ∀ w ∈ (runCalls db calls).windows, w.voided = true → CarriesNothing (runCalls db calls) w := by
  have kept : (runCalls db calls).Conserved ∧ (runCalls db calls).HeldLive ∧
      (runCalls db calls).VoidedUnused := by
    refine History.foldl_keeps (I := fun db => db.Conserved ∧ db.HeldLive ∧ db.VoidedUnused) ?_
      ⟨fresh.conserved, ?_, ?_⟩ (spares.and (History.along_of_forall shaped))
    · rintro db call ⟨c, live, unused⟩ ⟨spares, shaped⟩
      exact ⟨c.commit shaped, live.commit c call, unused.commit c live spares⟩
    · simp [Db.HeldLive, fresh.reservations]
    · simp [Db.VoidedUnused, fresh.windows]
  exact fun w mem voided => kept.1.carriesNothing kept.2.1 kept.2.2 mem voided

/-- Two requests on the five-hour window 11; the first is settled at no charge, the second is
released, and the window is taken back. -/
def voidingCalls : List Call :=
  [.activateWindows
      { billingAccountId := 1, entitlementId := 2, anchor := 0, at_ := 0
        limits := fun kind => if kind = .fiveHour then some 100 else none }
      (fun _ => 11),
    .reserve ⟨auditRequest none none, [auditHold .windowFiveHour (some 11) none], 0⟩
      (fun n => 20 + n),
    .reserve ⟨{ auditRequest none none with id := 4 },
      [auditHold .windowFiveHour (some 11) none], 0⟩ (fun n => 30 + n),
    .insertAttempt ⟨40, 3, 1, .completed, "", none⟩,
    .settle
      { requestId := 3, usage := ⟨3, 40, .reported, 1⟩, chargeMicros := 0, walletCharge := none
        attemptId := none, attemptCost := none, costBasis := none, settledAt := 1 } 1,
    .release 4]

theorem voidingCalls_shaped : ∀ call ∈ voidingCalls, call.Shaped := by
  have shaped : ∀ id, ReserveCommand.Shaped ⟨{ auditRequest none none with id := id },
      [auditHold .windowFiveHour (some 11) none], 0⟩ := by
    intro id
    refine ⟨by simp, fun kind w set => ?_, by simp [auditHold, auditRequest]⟩
    cases kind <;> simp [windowColumn, auditRequest] at set
  simp only [voidingCalls, List.forall_mem_cons, Call.Shaped, true_and]
  exact ⟨shaped 3, shaped 4, by simp⟩

theorem voided_carry_nothing_released :
    (runCalls auditDb voidingCalls).windows.map (·.voided) = [true] ∧
    ∀ w ∈ (runCalls auditDb voidingCalls).windows, w.voided = true →
      CarriesNothing (runCalls auditDb voidingCalls) w :=
  ⟨by decide, voided_carry_nothing auditDb auditDb_fresh _ voidingCalls_shaped
    ⟨trivial, trivial, trivial, trivial, trivial, trivial, trivial⟩⟩

/-- A late correction charges the first request, on a window that no longer counts. -/
theorem voided_window_charged :
    ¬ ∀ w ∈ (runCalls auditDb (voidingCalls ++ [.correctSettlement
        ⟨3, ⟨3, 40, .reported, 0⟩, 10, "late usage report", "ops", "key", some 2⟩ 50 60
          2])).windows, w.voided = true →
      CarriesNothing (runCalls auditDb (voidingCalls ++ [.correctSettlement
        ⟨3, ⟨3, 40, .reported, 0⟩, 10, "late usage report", "ops", "key", some 2⟩ 50 60 2])) w := by
  decide

end YunhouUsers.Inference.Postgres
