import YunhouUsers.Inference.Conservation.Invariant

/-!
Every call of the quota store keeps the invariant.
-/

namespace YunhouUsers.Inference.Postgres

open ReadCommitted Table Accounting

variable {db db' : Db}

theorem Db.Balanced.shift (balanced : db.Balanced) (r u b : Uuid → Int)
    (windows : ∀ w ∈ db'.windows, ∃ w₀ ∈ db.windows, w.id = w₀.id ∧
      w.reserved = w₀.reserved + r w₀.id ∧ w.used = w₀.used + u w₀.id)
    (apiKeys : db'.apiKeys = shiftKeys b db.apiKeys)
    (reserved : ∀ id, total (heldOnWindow id) db'.reservations =
      total (heldOnWindow id) db.reservations + r id)
    (used : ∀ id, total (settledOnWindow id) db'.requests =
      total (settledOnWindow id) db.requests + u id)
    (budget : ∀ id,
      total (heldOnKey id) db'.reservations + total (settledOnKey id) db'.requests =
        total (heldOnKey id) db.reservations + total (settledOnKey id) db.requests + b id) :
    db'.Balanced := by
  refine ⟨fun w mem => ?_, fun w mem => ?_, fun k mem => ?_⟩
  · obtain ⟨w₀, mem₀, id, moved, _⟩ := windows w mem
    rw [moved, id, reserved, balanced.reserved w₀ mem₀]
  · obtain ⟨w₀, mem₀, id, _, moved⟩ := windows w mem
    rw [moved, id, used, balanced.used w₀ mem₀]
  · rw [apiKeys] at mem
    obtain ⟨k₀, mem₀, rfl⟩ := List.mem_map.mp mem
    rw [budget, ← balanced.budget k₀ mem₀]

theorem mem_shiftWindows {r u : Uuid → Int} {windows : List QuotaWindow} {w : QuotaWindow}
    (mem : w ∈ shiftWindows r u windows) :
    ∃ w₀ ∈ windows, w.id = w₀.id ∧ w.reserved = w₀.reserved + r w₀.id ∧
      w.used = w₀.used + u w₀.id := by
  obtain ⟨w₀, mem₀, rfl⟩ := List.mem_map.mp mem
  exact ⟨w₀, mem₀, rfl, rfl, rfl⟩

theorem total_heldOn_closeHeld (column : Reservation → Option Uuid) {state : ReservationState}
    (closed : state ≠ .held) (db : Db) (requestId id : Uuid) :
    total (heldOn column id) (closeHeld requestId state db.reservations) =
      total (heldOn column id) db.reservations +
        total (fun r => onRow (column r) (-r.amount) id) (db.heldRows requestId) := by
  rw [closeHeld, Db.heldRows, total_filter, total_updateWhere, ← total_add]
  apply total_congr
  intro r _
  by_cases mine : heldOf requestId r = true
  · have held : r.state = .held := by
      simp only [heldOf, Bool.and_eq_true, decide_eq_true_eq] at mine
      exact mine.2
    simp only [mine, if_true, heldOn, closed, held, if_false, onRow]
    split <;> omega
  · simp [mine]

theorem targets_closeHeld (requestId : Uuid) (state : ReservationState) (rows : List Reservation) :
    (closeHeld requestId state rows).map target = rows.map target := by
  apply map_updateWhere
  intro r
  rfl

variable {requestId : Uuid} {f : Request → Request} {q : Request}

theorem Db.Conserved.held_closed (c : db.Conserved)
    {state : ReservationState} (closed : state ≠ .held)
    (id : ∀ q, (f q).id = q.id) (final : ∀ q, isFinal (f q) = true) :
    ∀ q ∈ updateWhere (·.id = requestId) f db.requests,
      ∀ r ∈ closeHeld requestId state db.reservations, r.requestId = q.id →
        (r.state = .held ↔ isFinal q = false) := by
  intro q memq r memr same
  obtain ⟨q₀, memq₀, rfl⟩ := mem_updateWhere.mp memq
  obtain ⟨r₀, memr₀, rfl⟩ := mem_updateWhere.mp memr
  have sameId : r₀.requestId = q₀.id := by
    have left : (if heldOf requestId r₀ = true then { r₀ with state := state } else r₀).requestId =
        r₀.requestId := by split <;> rfl
    have right : (if decide (q₀.id = requestId) = true then f q₀ else q₀).id = q₀.id := by
      split
      · exact id q₀
      · rfl
    rw [← left, same, right]
  have before := c.held q₀ memq₀ r₀ memr₀ sameId
  by_cases mine : q₀.id = requestId
  · by_cases open_ : r₀.state = .held
    · simp [heldOf, sameId, mine, open_, closed, final]
    · simp [heldOf, mine, open_, final]
  · simpa [heldOf, sameId, mine] using before

namespace Db.Conserved

variable {db : Db} (c : db.Conserved)
include c

theorem charged_once (mem : q ∈ db.requests) (live : isFinal q = false)
    (column : Reservation → Option Uuid) (id : Uuid)
    (once : ∀ r ∈ db.reservations, ∀ r' ∈ db.reservations, r.requestId = r'.requestId →
      column r = some id → column r' = some id → r = r') (charge : Int) :
    total (fun r => onRow (column r) charge id) (db.heldRows q.id) =
      if db.reservations.any (fun r => r.requestId = q.id && column r = some id) then charge
      else 0 := by
  have mine : ∀ r ∈ db.heldRows q.id, r ∈ db.reservations ∧ r.requestId = q.id := by
    intro r memr
    obtain ⟨memr, held⟩ := List.mem_filter.mp memr
    simp only [heldOf, Bool.and_eq_true, decide_eq_true_eq] at held
    exact ⟨memr, held.1⟩
  have distinct : (db.heldRows q.id).Nodup := c.reservationIds.of_map.filter _
  have sum := total_once (p := fun r => column r = some id) distinct
    (fun r memr r' memr' h h' => once r (mine r memr).1 r' (mine r' memr').1
      ((mine r memr).2.trans (mine r' memr').2.symm) (by simpa using h) (by simpa using h')) charge
  have same : (db.heldRows q.id).any (fun r => column r = some id) =
      db.reservations.any (fun r => r.requestId = q.id && column r = some id) := by
    rw [Db.heldRows, List.any_filter, Bool.eq_iff_iff, List.any_eq_true, List.any_eq_true]
    refine exists_congr fun r => and_congr_right fun memr => ?_
    simp only [heldOf, Bool.and_eq_true, decide_eq_true_eq]
    constructor
    · rintro ⟨⟨request, _⟩, bound⟩
      exact ⟨request, bound⟩
    · rintro ⟨request, bound⟩
      exact ⟨⟨request, (c.held q mem r memr request).mpr live⟩, bound⟩
  rw [← same, ← sum]
  apply total_congr
  intro r _
  simp [onRow]

theorem charged_window (mem : q ∈ db.requests) (live : isFinal q = false)
    (charge : Int) (w : Uuid) :
    rowsOnWindow (db.heldRows q.id) (fun _ => charge) w =
      if w ∈ q.windowIds then charge else 0 := by
  have sum := c.charged_once mem live (·.windowId) w
    (fun r memr r' memr' same => c.eq_of_window memr memr' same) charge
  refine sum.trans (if_congr ?_ rfl rfl)
  rw [c.mem_windowIds mem w]
  simp

theorem charged_key (mem : q ∈ db.requests) (live : isFinal q = false) (charge : Int) (k : Uuid) :
    rowsOnKey (db.heldRows q.id) (fun _ => charge) k =
      if q.apiKeyId = some k then charge else 0 := by
  have sum := c.charged_once mem live (·.apiKeyId) k
    (fun r memr r' memr' same => c.eq_of_apiKey memr memr' same) charge
  refine sum.trans (if_congr ?_ rfl rfl)
  rw [c.apiKeyId_eq mem k]
  simp

theorem columnsShift_eq (mem : q ∈ db.requests) (signed : Int) (w : Uuid) :
    columnsShift q signed w = if w ∈ q.windowIds then signed else 0 := by
  have distinct := c.windowIds_nodup mem
  cases five : q.windowFiveHourId <;> cases week : q.windowWeeklyId <;>
    cases month : q.windowMonthlyId <;>
    simp only [columnsShift, onRow, Request.windowIds, five, week, month] at distinct ⊢ <;>
    grind

end Db.Conserved

/-! Steps that leave the ledger alone. -/

theorem requestNet_congr (ledger : db'.ledger = db.ledger)
    (adjustments : db'.adjustments = db.adjustments) (id : Uuid) :
    db'.requestNet id = db.requestNet id := by
  have find : db'.findAdjustment = db.findAdjustment := by
    funext a
    rw [Db.findAdjustment, adjustments, Db.findAdjustment]
  simp only [Db.requestNet, Db.signedAmount, find, ledger]

section Unsettled

variable {p : Request → Bool} {f : Request → Request} {requests : List Request}
  (unsettled : ∀ q ∈ requests, p q = true → q.status ≠ .settled ∧ (f q).status ≠ .settled)
include unsettled

theorem settledAmount_unsettled : ∀ q ∈ requests,
    settledAmount (if p q then f q else q) = settledAmount q := by
  intro q mem
  split
  · rename_i hit
    have := unsettled q mem hit
    simp [settledAmount, this]
  · rfl

theorem total_settled_unsettled (ids : ∀ q, link (f q) = link q) (id : Uuid) :
    total (settledOnWindow id) (updateWhere p f requests) = total (settledOnWindow id) requests ∧
      total (settledOnKey id) (updateWhere p f requests) = total (settledOnKey id) requests := by
  have links : ∀ q, link (if p q then f q else q) = link q := by
    intro q
    split
    · exact ids q
    · rfl
  refine ⟨?_, ?_⟩ <;> rw [total_updateWhere] <;> apply total_congr <;> intro q mem
  · have windows : (if p q then f q else q).windowIds = q.windowIds :=
      congrArg RequestLink.windowIds (links q)
    simp only [settledOnWindow, windows, settledAmount_unsettled unsettled q mem]
  · have key : (if p q then f q else q).apiKeyId = q.apiKeyId :=
      congrArg RequestLink.apiKeyId (links q)
    simp only [settledOnKey, key, settledAmount_unsettled unsettled q mem]

end Unsettled

theorem Db.Booked.unsettled (b : db.Booked) {p : Request → Bool} (ledger : db'.ledger = db.ledger)
    (adjustments : db'.adjustments = db.adjustments)
    (requests : db'.requests = updateWhere p f db.requests) (ids : ∀ q, link (f q) = link q)
    (unsettled : ∀ q ∈ db.requests, p q = true → q.status ≠ .settled ∧ (f q).status ≠ .settled) :
    db'.Booked := by
  refine ⟨?_, ?_, ?_, ?_, ?_⟩
  · intro q mem
    rw [requests] at mem
    obtain ⟨q₀, mem₀, rfl⟩ := mem_updateWhere.mp mem
    have id : (if p q₀ then f q₀ else q₀).id = q₀.id := by
      split
      · exact congrArg RequestLink.id (ids q₀)
      · rfl
    rw [requestNet_congr ledger adjustments, id, b.net q₀ mem₀,
      settledAmount_unsettled unsettled q₀ mem₀]
  · intro q mem settled
    rw [requests] at mem
    obtain ⟨q₀, mem₀, rfl⟩ := mem_updateWhere.mp mem
    by_cases hit : p q₀ = true
    · simp only [hit, if_true] at settled
      exact absurd settled (unsettled q₀ mem₀ hit).2
    · simp only [hit, Bool.false_eq_true, if_false] at settled ⊢
      exact b.priced q₀ mem₀ settled
  · intro e mem
    rw [ledger] at mem
    obtain ⟨q, memq, same, settled⟩ := b.entries e mem
    refine ⟨q, ?_, same, settled⟩
    rw [requests]
    refine mem_updateWhere.mpr ⟨q, memq, ?_⟩
    have miss : p q = false := by
      by_contra hit
      exact (unsettled q memq (by simpa using hit)).1 settled
    simp [miss]
  · rw [ledger, adjustments]
    exact b.adjusted
  · rw [ledger]
    exact b.charges

theorem Db.Conserved.step (c : db.Conserved)
    (windowIds : db'.windows.map (·.id) = db.windows.map (·.id))
    (keyIds : db'.apiKeys.map (·.id) = db.apiKeys.map (·.id))
    (links : db'.requests.map link = db.requests.map link)
    (targets : db'.reservations.map target = db.reservations.map target)
    (held : ∀ q ∈ db'.requests, ∀ r ∈ db'.reservations, r.requestId = q.id →
      (r.state = .held ↔ isFinal q = false))
    (booked : db'.Booked) (balanced : db'.Balanced) (noHolds : db'.walletHolds = []) :
    db'.Conserved := by
  refine ⟨⟨windowIds ▸ c.unique.windows, keyIds ▸ c.unique.apiKeys⟩, ?_, ?_, held, booked, balanced,
    noHolds⟩
  · rw [links, targets]
    exact c.linked
  · intro r mem w bound
    have mem₁ : target r ∈ db.reservations.map target := targets ▸ List.mem_map_of_mem mem
    obtain ⟨r₀, mem₀, same⟩ := List.mem_map.mp mem₁
    have window : (target r₀).windowId = (target r).windowId := by rw [same]
    rw [windowIds]
    exact c.known r₀ mem₀ w (window.trans bound)

theorem Db.Conserved.releaseLocked {fromReconciliation : Bool} (c : db.Conserved)
    (ran : (releaseLocked requestId fromReconciliation).eval db = .ok ((), db')) :
    db'.Conserved := by
  obtain ⟨q, p, holds, jobs, found, settled, released, count, _, rfl⟩ :=
    releaseLocked_ok c.unique c.reservationIds c.refsOk ran
  obtain ⟨mem, rfl⟩ := find_key found
  have closed : ReservationState.released ≠ .held := by decide
  have only : ∀ x ∈ db.requests, decide (x.id = q.id) = true → x.status ≠ .settled ∧
      ({ x with status := .released, lastError := "" } : Request).status ≠ .settled := by
    intro x memx same
    rw [eq_of_key c.requestIds memx mem (by simpa using same)]
    exact ⟨settled, by simp⟩
  have sums := total_settled_unsettled only (fun q => rfl)
  refine c.step ?_ (shiftKeys_ids _ _) (map_updateWhere _ _ link (by intro; rfl) _)
    (targets_closeHeld _ _ _) (c.held_closed closed (fun _ => rfl) (fun _ => rfl))
    (c.booked.unsettled rfl rfl rfl (fun _ => rfl) only) ?_
    (List.length_eq_zero_iff.mp (by simpa [c.noHolds] using count))
  · exact (map_updateWhere _ _ (fun w : QuotaWindow => w.id) (by intro; rfl) _).trans (shiftWindows_ids _ _ _)
  · refine c.balanced.shift (rowsOnWindow (db.heldRows q.id) (fun r => -r.amount)) (fun _ => 0)
      (rowsOnKey (db.heldRows q.id) (fun r => -r.amount)) ?_ rfl ?_ ?_ ?_
    · intro w memw
      obtain ⟨w₁, mem₁, rfl⟩ := mem_updateWhere.mp memw
      obtain ⟨w₀, mem₀, moved⟩ := mem_shiftWindows mem₁
      refine ⟨w₀, mem₀, ?_⟩
      split <;> exact moved
    · exact total_heldOn_closeHeld (·.windowId) closed db q.id
    · intro id
      simpa using (sums id).1
    · intro id
      have held := total_heldOn_closeHeld (·.apiKeyId) closed db q.id id
      have := (sums id).2
      simp only [heldOnKey, rowsOnKey] at held ⊢
      omega

theorem Db.Conserved.markReconciliationRequired {reason : JobReason}
    {deadline : Int} {jobId : Uuid} (c : db.Conserved)
    (ran : (markReconciliationRequired requestId reason deadline jobId).eval db = .ok ((), db')) :
    db'.Conserved := by
  obtain ⟨jobs, rfl⟩ := markReconciliationRequired_ok ran
  have only : ∀ q ∈ db.requests, isOpen requestId q = true →
      q.status ≠ .settled ∧ (parkedRequest reason q).status ≠ .settled := by
    intro q _ hit
    simp only [isOpen, Bool.and_eq_true, decide_eq_true_eq] at hit
    exact ⟨hit.1.2, by simp [parkedRequest]⟩
  have sums := total_settled_unsettled only (fun q => rfl)
  refine c.step rfl rfl (map_updateWhere _ _ link (by intro; rfl) _) rfl ?_
    (c.booked.unsettled rfl rfl rfl (fun _ => rfl) only) ?_ c.noHolds
  · intro q mem r memr same
    obtain ⟨q₀, mem₀, rfl⟩ := mem_updateWhere.mp mem
    by_cases hit : isOpen requestId q₀ = true
    · rw [if_pos hit] at same ⊢
      have before := c.held q₀ mem₀ r memr same
      simp only [isOpen, Bool.and_eq_true, decide_eq_true_eq] at hit
      simpa [isFinal, hit, parkedRequest] using before
    · rw [if_neg hit] at same ⊢
      exact c.held q₀ mem₀ r memr same
  · refine c.balanced.shift (fun _ => 0) (fun _ => 0) (fun _ => 0) (fun w mem => ?_) (by simp)
      (by simp) (fun id => ?_) (fun id => ?_)
    · exact ⟨w, mem, rfl, by simp, by simp⟩
    · simpa using (sums id).1
    · simpa using (sums id).2

theorem Db.Conserved.insertAttempt {a : Attempt} (c : db.Conserved)
    (ran : (insertAttemptTx a).eval db = .ok ((), db')) : db'.Conserved := by
  obtain ⟨_, rfl⟩ := insertAttemptTx_ok ran
  exact ⟨⟨c.unique.windows, c.unique.apiKeys⟩, c.linked, c.known, c.held,
    ⟨c.booked.net, c.booked.priced, c.booked.entries, c.booked.adjusted, c.booked.charges⟩,
    ⟨c.balanced.reserved, c.balanced.used, c.balanced.budget⟩, c.noHolds⟩

theorem Db.Conserved.unbound (c : db.Conserved) {w : Uuid}
    (fresh : w ∉ db.windows.map (·.id)) :
    total (heldOnWindow w) db.reservations = 0 ∧ total (settledOnWindow w) db.requests = 0 := by
  have unbound : ∀ r ∈ db.reservations, r.windowId ≠ some w :=
    fun r mem bound => fresh (c.known r mem w bound)
  refine ⟨total_eq_zero fun r mem => ?_, total_eq_zero fun q mem => ?_⟩
  · simp [heldOnWindow, heldOn, onRow, unbound r mem]
  · have outside : w ∉ q.windowIds := by
      rw [c.mem_windowIds mem]
      rintro ⟨r, memr, _, bound⟩
      exact unbound r memr bound
    simp [settledOnWindow, outside]

theorem Db.Conserved.opened (c : db.Conserved) (opened : db.Opened db') : db'.Conserved := by
  obtain ⟨fresh, rfl, empty, nodup⟩ := opened
  have ids := nodup c.unique.windows
  simp only [List.map_append] at ids
  have new : ∀ w ∈ fresh, w.id ∉ db.windows.map (·.id) := by
    intro w mem old
    exact (List.nodup_append.mp ids).2.2 w.id old w.id (List.mem_map_of_mem mem) rfl
  refine ⟨⟨by simpa using ids, c.unique.apiKeys⟩, c.linked, ?_, c.held,
    ⟨c.booked.net, c.booked.priced, c.booked.entries, c.booked.adjusted, c.booked.charges⟩,
    ⟨?_, ?_, c.balanced.budget⟩, c.noHolds⟩
  · intro r mem w bound
    rw [List.map_append]
    exact List.mem_append_left _ (c.known r mem w bound)
  · intro w mem
    rcases List.mem_append.mp mem with mem | mem
    · exact c.balanced.reserved w mem
    · rw [(empty w mem).2]
      exact (c.unbound (new w mem)).1.symm
  · intro w mem
    rcases List.mem_append.mp mem with mem | mem
    · exact c.balanced.used w mem
    · rw [(empty w mem).1]
      exact (c.unbound (new w mem)).2.symm

/-! Steps that book: one ledger row, and the request it belongs to. -/

theorem signedAmount_append {extra : List Adjustment}
    (adjusted : ∀ e ∈ db.ledger, ∀ a, e.adjustmentId = some a → ∃ x ∈ db.adjustments, x.id = a)
    (adjustments : db'.adjustments = db.adjustments ++ extra) :
    ∀ x ∈ db.ledger, db'.signedAmount x = db.signedAmount x := by
  intro x mem
  have found : ∀ a, x.adjustmentId = some a → db'.findAdjustment a = db.findAdjustment a := by
    intro a set
    obtain ⟨y, memy, same⟩ := adjusted x mem a set
    have some_ : (db.findAdjustment a).isSome := by
      rw [Db.findAdjustment, List.find?_isSome]
      exact ⟨y, memy, by simpa using same⟩
    rw [Db.findAdjustment, adjustments, List.find?_append]
    exact Option.or_of_isSome some_
  cases set : x.adjustmentId with
  | none => simp [Db.signedAmount, set]
  | some a => simp [Db.signedAmount, set, found a set]

section Booking

variable {db db' : Db} (b : db.Booked) {q : Request} {e : LedgerEntry} {f : Request → Request}
  {extra : List Adjustment}
  (adjustments : db'.adjustments = db.adjustments ++ extra)
include b adjustments

theorem requestNet_append (ledger : db'.ledger = db.ledger ++ [e])
    (unit : e.unit = .microcredit) (id : Uuid) :
    db'.requestNet id =
      db.requestNet id + if e.requestId = some id then db'.signedAmount e else 0 := by
  simp only [Db.requestNet, ledger, total_append, total_cons, total_nil, unit, and_true,
    Int.add_zero]
  congr 1
  apply total_congr
  intro x mem
  rw [signedAmount_append b.adjusted adjustments x mem]

theorem Db.Booked.book (ids : (db.requests.map (·.id)).Nodup) (mem : q ∈ db.requests)
    (ledger : db'.ledger = db.ledger ++ [e])
    (requests : db'.requests = updateWhere (·.id = q.id) f db.requests)
    (same : ∀ q, (f q).id = q.id) (owner : e.requestId = some q.id)
    (unit : e.unit = .microcredit)
    (amount : settledAmount (f q) = settledAmount q + db'.signedAmount e)
    (settled : (f q).status = .settled)
    (priced : (f q).chargeSource = .plan ∧ ∃ m, (f q).settledMicros = some m ∧ 0 ≤ m)
    (adjusted : ∀ a, e.adjustmentId = some a → ∃ x ∈ db'.adjustments, x.id = a)
    (charge : e.entryType = .charge → ∀ x ∈ db.ledger, x.entryType = .charge →
      x.requestId ≠ some q.id) : db'.Booked := by
  have cases_ : ∀ x ∈ db'.requests, x = f q ∨ (x ∈ db.requests ∧ x.id ≠ q.id) := by
    intro x memx
    rw [requests] at memx
    obtain ⟨x₀, mem₀, rfl⟩ := mem_updateWhere.mp memx
    by_cases hit : x₀.id = q.id
    · left
      simp [eq_of_key ids mem₀ mem hit]
    · right
      simpa [hit] using mem₀
  refine ⟨?_, ?_, ?_, ?_, ?_⟩
  · intro x memx
    rw [requestNet_append b adjustments ledger unit, owner]
    rcases cases_ x memx with rfl | ⟨mem₀, other⟩
    · rw [same, b.net q mem, amount]
      simp
    · rw [b.net x mem₀]
      simp [Ne.symm other]
  · intro x memx done
    rcases cases_ x memx with rfl | ⟨mem₀, _⟩
    · exact priced
    · exact b.priced x mem₀ done
  · have booked : f q ∈ db'.requests := by
      rw [requests]
      exact mem_updateWhere.mpr ⟨q, mem, by simp⟩
    intro x memx
    rw [ledger, List.mem_append, List.mem_singleton] at memx
    rcases memx with memx | rfl
    · obtain ⟨y, memy, ofy, done⟩ := b.entries x memx
      by_cases hit : y.id = q.id
      · exact ⟨f q, booked, by rw [ofy, same, hit], settled⟩
      · refine ⟨y, ?_, ofy, done⟩
        rw [requests]
        exact mem_updateWhere.mpr ⟨y, memy, by simp [hit]⟩
    · exact ⟨f q, booked, by rw [owner, same], settled⟩
  · intro x memx
    rw [ledger, List.mem_append, List.mem_singleton] at memx
    rcases memx with memx | rfl
    · intro a set
      obtain ⟨y, memy, found⟩ := b.adjusted x memx a set
      exact ⟨y, by rw [adjustments]; exact List.mem_append_left _ memy, found⟩
    · exact adjusted
  · intro id
    rw [ledger, List.filter_append, List.length_append]
    by_cases hit : isChargeOf id e = true
    · have none : db.ledger.filter (isChargeOf id) = [] := by
        rw [List.filter_eq_nil_iff]
        intro x memx isCharge
        simp only [isChargeOf, Bool.and_eq_true, decide_eq_true_eq, owner] at hit isCharge
        exact charge hit.2 x memx isCharge.2 (isCharge.1.trans hit.1.symm)
      simp [none, hit]
    · simpa [hit] using b.charges id

end Booking

theorem Db.Conserved.total_settled_update (c : db.Conserved)
    (mem : q ∈ db.requests) (same : link (f q) = link q) (id : Uuid) :
    total (settledOnWindow id) (updateWhere (·.id = q.id) f db.requests) =
        total (settledOnWindow id) db.requests +
          (if id ∈ q.windowIds then settledAmount (f q) - settledAmount q else 0) ∧
      total (settledOnKey id) (updateWhere (·.id = q.id) f db.requests) =
        total (settledOnKey id) db.requests +
          (if q.apiKeyId = some id then settledAmount (f q) - settledAmount q else 0) := by
  have windows : (f q).windowIds = q.windowIds := congrArg RequestLink.windowIds same
  have key : (f q).apiKeyId = q.apiKeyId := congrArg RequestLink.apiKeyId same
  refine ⟨?_, ?_⟩ <;> rw [total_updateWhere_key c.requestIds mem]
  · rw [settledOnWindow, settledOnWindow, windows]
    split <;> omega
  · rw [settledOnKey, settledOnKey, key]
    split <;> omega

theorem Db.Conserved.settle {cmd : SettleCommand} {now : Int} (c : db.Conserved)
    (ran : (settle cmd now).eval db = .ok ((), db')) : db'.Conserved := by
  obtain ⟨q, found, unsettled, unreleased, plan, charge, ran⟩ := settle_ok c.noHolds ran
  obtain ⟨e, attempts, owner, type, amount, unit, unadjusted, entry, _, _, rfl⟩ :=
    settlePlan_ok c.unique c.reservationIds c.refsOk ran
  obtain ⟨mem, same⟩ := find_key found
  rw [← same] at owner ⊢
  have closed : ReservationState.settled ≠ .held := by decide
  have live : isFinal q = false := by simp [isFinal, unsettled, unreleased]
  have before : settledAmount q = 0 := by simp [settledAmount, unsettled]
  have after : settledAmount (settledRequest cmd q) = cmd.chargeMicros := by
    simp [settledAmount, settledRequest]
  have sums := c.total_settled_update mem (f := settledRequest cmd) rfl
  simp only [before, after, Int.sub_zero] at sums
  refine c.step (shiftWindows_ids _ _ _) (shiftKeys_ids _ _)
    (map_updateWhere _ _ link (by intro; rfl) _) (targets_closeHeld _ _ _)
    (c.held_closed closed (fun _ => rfl) (fun _ => rfl)) ?_ ?_ c.noHolds
  · refine c.booked.book (List.append_nil _).symm c.requestIds mem rfl rfl (fun _ => rfl)
      (congrArg some owner) unit ?_ rfl ⟨plan, _, rfl, charge⟩ ?_ ?_
    · simp [before, after, Db.signedAmount, NewLedgerEntry.row, type, amount]
    · simp [NewLedgerEntry.row, unadjusted]
    · have once := (ledgerViolation_none entry).1
      rwa [owner] at once
  · refine c.balanced.shift _ _ _ (fun w => mem_shiftWindows) rfl
      (total_heldOn_closeHeld (·.windowId) closed db q.id) (fun id => ?_) (fun id => ?_)
    · rw [(sums id).1, c.charged_window mem live]
    · have held := total_heldOn_closeHeld (·.apiKeyId) closed db q.id id
      have paid := c.charged_key mem live cmd.chargeMicros id
      have split : rowsOnKey (db.heldRows q.id) (fun r => cmd.chargeMicros - r.amount) id =
          rowsOnKey (db.heldRows q.id) (fun _ => cmd.chargeMicros) id +
            rowsOnKey (db.heldRows q.id) (fun r => -r.amount) id := by
        rw [rowsOnKey, rowsOnKey, rowsOnKey, ← total_add]
        apply total_congr
        intro r _
        simp only [onRow]
        split <;> omega
      have := (sums id).2
      rw [split, paid]
      simp only [heldOnKey, rowsOnKey] at held ⊢
      omega

theorem correctionEntry_signed {cmd : CorrectionCommand} {adjId : Uuid} {base : Int}
    {d : Direction × Int} {chargeId n : Nat}
    (reads : CorrectionReads cmd adjId q base d chargeId db)
    (adjustments : db'.adjustments = db.adjustments ++ [correctionRow cmd adjId q d]) :
    db'.signedAmount ((correctionEntry cmd q.billingAccountId base d chargeId adjId).row n) =
      cmd.correctedMicros - base := by
  have signed := (correctionDelta_ok reads.delta).2.2
  have absent : db.adjustments.find? (·.id = adjId) = none := by
    simpa [List.find?_eq_none] using reads.fresh
  have found : db'.findAdjustment adjId = some (correctionRow cmd adjId q d) := by
    simp [Db.findAdjustment, adjustments, List.find?_append, absent, correctionRow]
  rw [← signed]
  unfold correctionEntry
  split
  · rename_i void
    simp only [Db.signedAmount, NewLedgerEntry.row]
    omega
  · obtain ⟨way, size⟩ := d
    cases way <;> simp_all [Db.signedAmount, NewLedgerEntry.row, signedDelta, correctionRow]

theorem correctionEntry_fields (cmd : CorrectionCommand) (accountId : Uuid) (base : Int)
    (d : Direction × Int) (chargeId n : Nat) (adjId : Uuid) :
    ((correctionEntry cmd accountId base d chargeId adjId).row n).requestId = some cmd.requestId ∧
      ((correctionEntry cmd accountId base d chargeId adjId).row n).unit = .microcredit ∧
      ((correctionEntry cmd accountId base d chargeId adjId).row n).entryType ≠ .charge := by
  unfold correctionEntry
  split <;> exact ⟨rfl, rfl, by simp [NewLedgerEntry.row]⟩

theorem Db.Conserved.correctSettlement {cmd : CorrectionCommand} {adjId jobId : Uuid} {now : Int}
    (c : db.Conserved) (ran : (correctSettlement cmd adjId jobId now).eval db = .ok ((), db')) :
    db'.Conserved := by
  obtain ⟨q, base, d, chargeId, jobs, reads, rfl⟩ := correctSettlement_ok c.unique ran
  obtain ⟨mem, same⟩ := find_key reads.found
  obtain ⟨nonneg, _, signed⟩ := correctionDelta_ok reads.delta
  have settled := reads.settled
  have before : settledAmount q = base := by simp [settledAmount, settled, reads.based]
  have after : settledAmount (correctedRequest cmd q) = cmd.correctedMicros := by
    simp [settledAmount, correctedRequest, settled]
  have sums := c.total_settled_update mem (f := correctedRequest cmd) rfl
  rw [before, after, ← signed] at sums
  rw [← same]
  refine c.step (by simp) (by simp) (map_updateWhere _ _ link (by intro; rfl) _) rfl ?_ ?_ ?_
    c.noHolds
  · intro x memx r memr ofx
    obtain ⟨x₀, mem₀, rfl⟩ := mem_updateWhere.mp memx
    by_cases hit : decide (x₀.id = q.id) = true
    · rw [if_pos hit] at ofx ⊢
      exact c.held x₀ mem₀ r memr ofx
    · rw [if_neg hit] at ofx ⊢
      exact c.held x₀ mem₀ r memr ofx
  · obtain ⟨owner, unit, other⟩ := correctionEntry_fields cmd q.billingAccountId base d chargeId
      db.ledger.length adjId
    refine c.booked.book rfl c.requestIds mem rfl rfl (fun _ => rfl) (owner.trans (by rw [same]))
      unit ?_ settled ⟨(c.booked.priced q mem settled).1, _, rfl, nonneg⟩
      (ledgerViolation_none reads.entry).2.2 (fun charge => absurd charge other)
    rw [correctionEntry_signed reads rfl, before, after]
    omega
  · refine c.balanced.shift (fun _ => 0) (columnsShift q (signedDelta d)) _
      (fun w memw => ?_) rfl (fun id => by simp) (fun id => ?_) (fun id => ?_)
    · dsimp only at memw
      exact mem_shiftWindows memw
    · rw [(sums id).1, c.columnsShift_eq mem]
    · dsimp only
      rw [(sums id).2, onRow]
      omega

end YunhouUsers.Inference.Postgres
