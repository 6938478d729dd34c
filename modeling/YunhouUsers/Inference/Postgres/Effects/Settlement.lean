import YunhouUsers.Inference.Postgres.Effects.Admission

/-!
What settling and releasing a request do to the tables when they succeed.
-/

namespace YunhouUsers.Inference.Postgres

open ReadCommitted Table Accounting

def closeRows (ids : List Uuid) (state : ReservationState) (rows : List Reservation) :
    List Reservation :=
  updateWhere (fun r => r.state = .held && r.id ∈ ids) (fun r => { r with state := state }) rows

@[simp] theorem closeRows_nil (state : ReservationState) (rows : List Reservation) :
    closeRows [] state rows = rows :=
  updateWhere_eq_self (by simp)

theorem closeRows_cons {state : ReservationState} (final : state ≠ .held) (id : Uuid)
    (ids : List Uuid) (rows : List Reservation) :
    closeRows ids state (updateWhere (fun r => r.id = id && r.state = .held)
      (fun r => { r with state := state }) rows) = closeRows (id :: ids) state rows := by
  simp only [closeRows, updateWhere, List.map_map]
  apply List.map_congr_left
  intro r _
  by_cases here : r.id = id
  · by_cases held : r.state = .held <;> simp [here, held, final]
  · simp [here]

variable {op : String} {db db' : Db}

theorem moveReservation_ok {id : Uuid} {state : ReservationState} {miss : String}
    (ran : (moveReservation op id state miss).eval db = .ok ((), db')) :
    db' = { db with
      reservations := updateWhere (fun r => r.id = id && r.state = .held)
        (fun r => { r with state := state }) db.reservations } := by
  rw [moveReservation, updateRow_ok] at ran
  cases ran.2
  rfl

theorem settleTarget_ok {charge : Int} {r : Reservation} (unique : db.KeysUnique)
    (refs : targetRefsOk r = true) (ran : (settleTarget charge r).eval db = .ok ((), db')) :
    db' = { db with
      windows := shiftWindows (onRow r.windowId (-r.amount)) (onRow r.windowId charge) db.windows
      apiKeys := shiftKeys (onRow r.apiKeyId (charge - r.amount)) db.apiKeys } := by
  unfold settleTarget at ran
  unfold targetRefsOk at refs
  split at ran
  · rename_i kind
    simp only [kind, Bool.and_eq_true, Option.isNone_iff_eq_none] at refs
    split at ran
    · simp at ran
    · rename_i keyId key
      rw [updateRow_ok] at ran
      cases ran.2
      have shift := updateWhere_eq_shiftKeys unique.apiKeys keyId (by simp +contextual) ran.1 (charge - r.amount)
      simp only [show ∀ x : Int, x + (charge - r.amount) = x - r.amount + charge by omega] at shift
      rw [shift]
      simp [refs.1, key]
  · rename_i kind
    split at ran
    · simp at ran
    · rename_i windowId window
      have noKey : r.apiKeyId = none := by
        cases k : r.targetKind <;> simp_all
      rw [updateRow_ok] at ran
      cases ran.2
      have shift := updateWhere_eq_shiftWindows unique.windows windowId (by simp +contextual) ran.1 (-r.amount) charge
      simp only [← Int.sub_eq_add_neg] at shift
      rw [shift]
      simp [noKey, window]

def rowsOnWindow (rows : List Reservation) (f : Reservation → Int) (id : Uuid) : Int :=
  total (fun r => onRow r.windowId (f r) id) rows

def rowsOnKey (rows : List Reservation) (f : Reservation → Int) (id : Uuid) : Int :=
  total (fun r => onRow r.apiKeyId (f r) id) rows

@[simp] theorem rowsOnWindow_nil (f : Reservation → Int) : rowsOnWindow [] f = fun _ => 0 := rfl

@[simp] theorem rowsOnKey_nil (f : Reservation → Int) : rowsOnKey [] f = fun _ => 0 := rfl

theorem rowsOnWindow_cons (r : Reservation) (rows : List Reservation) (f : Reservation → Int) :
    rowsOnWindow (r :: rows) f = fun id => onRow r.windowId (f r) id + rowsOnWindow rows f id := by
  funext id
  simp [rowsOnWindow]

theorem rowsOnKey_cons (r : Reservation) (rows : List Reservation) (f : Reservation → Int) :
    rowsOnKey (r :: rows) f = fun id => onRow r.apiKeyId (f r) id + rowsOnKey rows f id := by
  funext id
  simp [rowsOnKey]

variable {rows : List Reservation}

theorem settleRows_ok {charge : Int}
    (unique : db.KeysUnique) (refs : ∀ r ∈ rows, targetRefsOk r = true)
    (ran : (settleRows charge rows).eval db = .ok ((), db')) :
    db' = { db with
      windows := shiftWindows (rowsOnWindow rows (fun r => -r.amount))
        (rowsOnWindow rows (fun _ => charge)) db.windows
      apiKeys := shiftKeys (rowsOnKey rows (fun r => charge - r.amount)) db.apiKeys
      reservations := closeRows (rows.map (·.id)) .settled db.reservations } := by
  induction rows generalizing db with
  | nil =>
    cases ran
    simp
  | cons r rows ih =>
    simp only [settleRows, Txn.eval_bind_ok] at ran
    obtain ⟨_, db₁, target, _, db₂, moved, rest⟩ := ran
    cases settleTarget_ok unique (refs r List.mem_cons_self) target
    cases moveReservation_ok moved
    rw [ih (unique.shift (onRow r.windowId (-r.amount)) (onRow r.windowId charge)
      (onRow r.apiKeyId (charge - r.amount)) rfl rfl)
      (fun x hx => refs x (List.mem_cons_of_mem r hx)) rest]
    simp only [shiftWindows_shiftWindows, shiftKeys_shiftKeys, rowsOnWindow_cons, rowsOnKey_cons,
      List.map_cons, closeRows_cons (show ReservationState.settled ≠ .held by decide)]

/-- The held reservations of a request, as `loadHeldReservations` reads them. -/
def Db.heldRows (db : Db) (requestId : Uuid) : List Reservation :=
  db.reservations.filter (heldOf requestId)

def closeHeld (requestId : Uuid) (state : ReservationState) (rows : List Reservation) :
    List Reservation :=
  updateWhere (heldOf requestId) (fun r => { r with state := state }) rows

variable {requestId : Uuid}

theorem closeRows_heldRows (unique : (db.reservations.map (·.id)).Nodup)
    (perm : rows.Perm (db.heldRows requestId)) (state : ReservationState) :
    closeRows (rows.map (·.id)) state db.reservations =
      closeHeld requestId state db.reservations := by
  apply updateWhere_congr
  intro r mem
  rw [Bool.eq_iff_iff]
  simp only [Bool.and_eq_true, decide_eq_true_eq]
  constructor
  · rintro ⟨_, listed⟩
    obtain ⟨x, hx, e⟩ := List.mem_map.mp listed
    obtain ⟨memx, heldx⟩ := List.mem_filter.mp (perm.mem_iff.mp hx)
    rw [← eq_of_key unique memx mem e]
    exact heldx
  · intro held
    have open_ : r.state = .held := by
      simp only [heldOf, Bool.and_eq_true, decide_eq_true_eq] at held
      exact held.2
    exact ⟨open_, List.mem_map_of_mem (perm.mem_iff.mpr (List.mem_filter.mpr ⟨mem, held⟩))⟩

theorem rowsOnWindow_perm {rows' : List Reservation} (perm : rows.Perm rows')
    (f : Reservation → Int) : rowsOnWindow rows f = rowsOnWindow rows' f := by
  funext id
  exact total_perm _ perm

theorem rowsOnKey_perm {rows' : List Reservation} (perm : rows.Perm rows')
    (f : Reservation → Int) : rowsOnKey rows f = rowsOnKey rows' f := by
  funext id
  exact total_perm _ perm

def settledRequest (cmd : SettleCommand) (q : Request) : Request :=
  { q with
    status := .settled
    settledMicros := some cmd.chargeMicros
    usageStatus := cmd.usage.source
    completedAt := some cmd.settledAt }

theorem findRequest_update {id : Uuid} {f : Request → Request} {q : Request}
    (same : ∀ q, (f q).id = q.id)
    (requests : db'.requests = updateWhere (·.id = id) f db.requests)
    (found : db.findRequest id = some q) : db'.findRequest id = some (f q) := by
  have key : q.id = id := (find_key found).2
  rw [Db.findRequest] at found
  rw [Db.findRequest, requests, find_updateWhere same, found]
  simp [key]

def firstRevision (u : UsageRecord) : UsageRecord :=
  { u with revision := if u.revision = 0 then 1 else u.revision }

theorem insertUsageRecord_ok {u : UsageRecord}
    (ran : (insertUsageRecord u).eval db = .ok ((), db')) :
    usageViolation (firstRevision u) db = none ∧
      db' = { db with usageRecords := db.usageRecords ++ [firstRevision u] } := by
  simp only [insertUsageRecord, insertRow_ok] at ran
  cases ran.2
  exact ⟨ran.1, rfl⟩

def attemptOwners (attempts : List Attempt) : List (Uuid × Uuid) :=
  attempts.map (fun a => (a.id, a.requestId))

variable {cmd : SettleCommand}

theorem updateAttemptCost_ok (ran : (updateAttemptCost op cmd).eval db = .ok ((), db')) :
    ∃ attempts, attemptOwners attempts = attemptOwners db.attempts ∧
      db' = { db with attempts := attempts } := by
  unfold updateAttemptCost at ran
  split at ran
  · simp only [Txn.eval_bind_ok, tryUpdate_ok] at ran
    obtain ⟨_, _, same, done⟩ := ran
    cases same
    cases done
    exact ⟨_, map_updateWhere _ _ _ (by intro; rfl) _, rfl⟩
  · cases ran
    exact ⟨_, rfl, rfl⟩

theorem markSettled_ok {settled : Int}
    (ran : (markSettled op cmd settled).eval db = .ok ((), db')) :
    db' = { db with
      requests := updateWhere (·.id = cmd.requestId)
        (settledRequest { cmd with chargeMicros := settled }) db.requests } := by
  simp only [markSettled, Txn.eval_bind_ok, tryUpdate_ok] at ran
  obtain ⟨_, _, same, done⟩ := ran
  cases same
  cases done
  rfl

theorem missing_false {id : Option Uuid} {ids : List Uuid} (found : ¬ missing id ids = true)
    {i : Uuid} (set : id = some i) : i ∈ ids := by
  subst set
  simpa [missing] using found

theorem ledgerViolation_none {e : NewLedgerEntry} (ok : ledgerViolation e db = none) :
    (e.entryType = .charge → ∀ x ∈ db.ledger, x.entryType = .charge →
      x.requestId ≠ some e.requestId) ∧ (∃ q ∈ db.requests, q.id = e.requestId) ∧
    (∀ a, e.adjustmentId = some a → ∃ x ∈ db.adjustments, x.id = a) := by
  unfold ledgerViolation at ok
  split_ifs at ok with _ _ _ once _ request adjustment
  refine ⟨?_, by simpa using request, fun a set => ?_⟩
  · intro charge x mem isCharge same
    apply once
    simp only [charge, decide_true, Bool.true_and, List.any_eq_true, Bool.and_eq_true,
      decide_eq_true_eq]
    exact ⟨x, mem, isCharge, same⟩
  · obtain ⟨x, mem, same⟩ := List.mem_map.mp (missing_false adjustment set)
    exact ⟨x, mem, same⟩

theorem settlePlan_ok {q : Request} (unique : db.KeysUnique)
    (ids : (db.reservations.map (·.id)).Nodup)
    (refs : ∀ r ∈ db.reservations, targetRefsOk r = true)
    (ran : (settlePlan cmd q).eval db = .ok ((), db')) :
    ∃ (e : NewLedgerEntry) (attempts : List Attempt),
      e.requestId = cmd.requestId ∧ e.entryType = .charge ∧ e.amount = cmd.chargeMicros ∧
      e.unit = .microcredit ∧ e.adjustmentId = none ∧ ledgerViolation e db = none ∧
      usageViolation (firstRevision cmd.usage) db = none ∧
      attemptOwners attempts = attemptOwners db.attempts ∧ db' = { db with
        windows := shiftWindows (rowsOnWindow (db.heldRows cmd.requestId) (fun r => -r.amount))
          (rowsOnWindow (db.heldRows cmd.requestId) (fun _ => cmd.chargeMicros)) db.windows
        apiKeys := shiftKeys (rowsOnKey (db.heldRows cmd.requestId)
          (fun r => cmd.chargeMicros - r.amount)) db.apiKeys
        requests := updateWhere (·.id = cmd.requestId) (settledRequest cmd) db.requests
        reservations := closeHeld cmd.requestId .settled db.reservations
        ledger := db.ledger ++ [e.row db.ledger.length]
        usageRecords := db.usageRecords ++ [firstRevision cmd.usage]
        attempts := attempts } := by
  simp only [settlePlan, Txn.eval_bind_ok, insertLedgerEntry, insertRow_ok, loadHeldReservations,
    Txn.eval_query, Txn.eval_require_ok] at ran
  obtain ⟨_, _, used, _, _, ⟨fresh, same⟩, rows, _, loaded, _, _, ⟨_, same₁⟩, _, _, settled, _, _,
    cost, marked⟩ := ran
  obtain ⟨evidence, rfl⟩ := insertUsageRecord_ok used
  cases same
  cases loaded
  cases same₁
  have perm := List.perm_insertionSort (fun a b : Reservation =>
    windowOrderKey a.targetKind ≤ windowOrderKey b.targetKind) (db.heldRows cmd.requestId)
  have loadedRefs : ∀ r ∈ (db.heldRows cmd.requestId).insertionSort (fun a b =>
      windowOrderKey a.targetKind ≤ windowOrderKey b.targetKind), targetRefsOk r = true :=
    fun r mem => refs r (List.mem_filter.mp (perm.mem_iff.mp mem)).1
  cases settleRows_ok (by exact ⟨unique.windows, unique.apiKeys⟩) loadedRefs settled
  obtain ⟨attempts, owners, rfl⟩ := updateAttemptCost_ok cost
  cases markSettled_ok marked
  refine ⟨_, attempts, rfl, rfl, rfl, rfl, rfl, fresh, evidence, owners, ?_⟩
  simp only [rowsOnWindow_perm perm, rowsOnKey_perm perm, closeRows_heldRows ids perm]

theorem releaseTarget_ok {r : Reservation} (unique : db.KeysUnique) (refs : targetRefsOk r = true)
    (ran : (releaseTarget requestId r).eval db = .ok ((), db')) :
    ∃ holds, holds.length = db.walletHolds.length ∧ db' = { db with
      windows := shiftWindows (onRow r.windowId (-r.amount)) (fun _ => 0) db.windows
      apiKeys := shiftKeys (onRow r.apiKeyId (-r.amount)) db.apiKeys
      walletHolds := holds } := by
  unfold releaseTarget at ran
  unfold targetRefsOk at refs
  split at ran
  · rename_i kind
    simp only [kind, Bool.and_eq_true, Option.isNone_iff_eq_none] at refs
    split at ran
    · simp at ran
    · rename_i keyId key
      rw [updateRow_ok] at ran
      cases ran.2
      have shift := updateWhere_eq_shiftKeys unique.apiKeys keyId (by simp +contextual) ran.1 (-r.amount)
      simp only [← Int.sub_eq_add_neg] at shift
      rw [shift]
      exact ⟨db.walletHolds, rfl, by simp [refs.1, key]⟩
  · rename_i kind
    simp only [kind, Bool.and_eq_true, Option.isNone_iff_eq_none] at refs
    rw [releaseWalletLocked, Txn.eval_exec_ok] at ran
    obtain ⟨_, _, same⟩ := ran
    cases same
    rw [refs.1, refs.2, onRow_none, shiftWindows_zero, shiftKeys_zero]
    exact ⟨_, List.length_map _, rfl⟩
  · rename_i isKey isWallet
    split at ran
    · simp at ran
    · rename_i windowId window
      have noKey : r.apiKeyId = none := by
        cases k : r.targetKind <;> simp_all
      rw [updateRow_ok] at ran
      cases ran.2
      have shift := updateWhere_eq_shiftWindows unique.windows windowId (by simp +contextual) ran.1 (-r.amount) 0
      simp only [← Int.sub_eq_add_neg, Int.add_zero, onRow_zero] at shift
      rw [shift]
      exact ⟨db.walletHolds, rfl, by simp [noKey, window]⟩

theorem releaseRows_ok {five : Option Uuid} {five' : Option Uuid} (unique : db.KeysUnique)
    (refs : ∀ r ∈ rows, targetRefsOk r = true)
    (ran : (releaseRows requestId rows five).eval db = .ok (five', db')) :
    ∃ holds, holds.length = db.walletHolds.length ∧ db' = { db with
      windows := shiftWindows (rowsOnWindow rows (fun r => -r.amount)) (fun _ => 0) db.windows
      apiKeys := shiftKeys (rowsOnKey rows (fun r => -r.amount)) db.apiKeys
      reservations := closeRows (rows.map (·.id)) .released db.reservations
      walletHolds := holds } := by
  induction rows generalizing db five with
  | nil =>
    cases ran
    exact ⟨db'.walletHolds, rfl, by simp⟩
  | cons r rows ih =>
    simp only [releaseRows, Txn.eval_bind_ok] at ran
    obtain ⟨_, db₁, target, _, db₂, moved, rest⟩ := ran
    obtain ⟨holds, count, rfl⟩ := releaseTarget_ok unique (refs r List.mem_cons_self) target
    cases moveReservation_ok moved
    obtain ⟨holds', count', rfl⟩ := ih (unique.shift (onRow r.windowId (-r.amount)) (fun _ => 0)
      (onRow r.apiKeyId (-r.amount)) rfl rfl) (fun x hx => refs x (List.mem_cons_of_mem r hx)) rest
    refine ⟨holds', count'.trans count, ?_⟩
    simp only [shiftWindows_shiftWindows, shiftKeys_shiftKeys, rowsOnWindow_cons, rowsOnKey_cons,
      List.map_cons, closeRows_cons (show ReservationState.released ≠ .held by decide),
      Int.add_zero]

def Unused (reservations : List Reservation) (w : QuotaWindow) : Prop :=
  w.used = 0 ∧ ∀ r ∈ reservations, r.windowId = some w.id → r.state ≠ .held

def Db.Voids (db db' : Db) : Prop :=
  ∃ p : QuotaWindow → Bool, (∀ w ∈ db.windows, p w = true → Unused db.reservations w) ∧ db' = { db with
    windows := updateWhere p (fun w => { w with voided := true }) db.windows }

theorem Db.Voids.refl (db : Db) : db.Voids db :=
  ⟨fun _ => false, by simp, by rw [updateWhere_eq_self (by simp)]⟩

theorem voidUnusedFiveHourWindow_ok {windowId : Uuid}
    (ran : (voidUnusedFiveHourWindow windowId).eval db = .ok ((), db')) : db.Voids db' := by
  simp only [voidUnusedFiveHourWindow, Txn.eval_bind_ok, selectOne_ok] at ran
  obtain ⟨w, _, ⟨_, _, same⟩, ran⟩ := ran
  cases same
  split_ifs at ran
  · cases ran
    exact .refl db
  · rw [Txn.eval_query_bind] at ran
    split_ifs at ran with held
    · cases ran
      exact .refl db
    · simp only [Txn.eval_bind_ok, tryUpdate_ok] at ran
      obtain ⟨_, _, same, done⟩ := ran
      cases same
      cases done
      refine ⟨_, fun w _ hit => ?_, rfl⟩
      simp only [Bool.and_eq_true, decide_eq_true_eq] at hit
      refine ⟨hit.1.2, fun r mem bound isHeld => held ?_⟩
      have counted : r ∈ db.reservations.filter
          (fun r => r.windowId = some windowId && r.state = .held) := by
        simp [mem, bound, isHeld, hit.1.1.1]
      exact Nat.ne_of_gt (List.length_pos_of_mem counted)

theorem voidReleased_ok {windowId : Option Uuid}
    (ran : (voidReleased windowId).eval db = .ok ((), db')) : db.Voids db' := by
  cases windowId with
  | some id => exact voidUnusedFiveHourWindow_ok ran
  | none =>
    cases ran
    exact .refl db

variable {which : ReconciliationJob → Bool}

theorem resolveJobs_ok (ran : (resolveJobs op requestId which).eval db = .ok ((), db')) :
    ∃ jobs, db' = { db with jobs := jobs } := by
  simp only [resolveJobs, Txn.eval_bind_ok, tryUpdate_ok] at ran
  obtain ⟨_, _, same, done⟩ := ran
  cases same
  cases done
  exact ⟨_, rfl⟩

theorem when_resolveJobs_ok {c : Bool}
    (ran : (Txn.when c (resolveJobs op requestId which)).eval db = .ok ((), db')) :
    ∃ jobs, db' = { db with jobs := jobs } := by
  cases c with
  | true => exact resolveJobs_ok ran
  | false =>
    cases ran
    exact ⟨_, rfl⟩

theorem releaseLocked_ok {fromReconciliation : Bool}
    (unique : db.KeysUnique) (ids : (db.reservations.map (·.id)).Nodup)
    (refs : ∀ r ∈ db.reservations, targetRefsOk r = true)
    (ran : (releaseLocked requestId fromReconciliation).eval db = .ok ((), db')) :
    ∃ q p holds jobs, db.findRequest requestId = some q ∧ q.status ≠ .settled ∧
      q.status ≠ .released ∧ holds.length = db.walletHolds.length ∧
      (∀ w ∈ shiftWindows (rowsOnWindow (db.heldRows requestId) (fun r => -r.amount)) (fun _ => 0)
        db.windows, p w = true → Unused (closeHeld requestId .released db.reservations) w) ∧
      db' = { db with
        windows := updateWhere p (fun w => { w with voided := true })
          (shiftWindows (rowsOnWindow (db.heldRows requestId) (fun r => -r.amount)) (fun _ => 0)
            db.windows)
        apiKeys := shiftKeys (rowsOnKey (db.heldRows requestId) (fun r => -r.amount)) db.apiKeys
        requests := updateWhere (·.id = requestId)
          (fun q => { q with status := .released, lastError := "" }) db.requests
        reservations := closeHeld requestId .released db.reservations
        walletHolds := holds
        jobs := jobs } := by
  simp only [releaseLocked, Txn.eval_bind_ok, selectOne_ok, lockAccountTx_ok, selectForUpdate_ok,
    Txn.eval_require_ok, loadHeldReservations, Txn.eval_query, updateRequestStatus,
    updateRow_ok] at ran
  obtain ⟨_, _, ⟨_, _, same⟩, _, _, ⟨_, same₁⟩, q, _, ⟨_, found, same₂⟩, _, _, ⟨live, same₃⟩, _, _,
    ⟨_, same₄⟩, rows, _, loaded, _, _, ⟨_, same₅⟩, five, db₁, released, _, db₂, voided, _, db₃,
    resolved, _, done⟩ := ran
  cases same
  cases same₁
  cases same₂
  cases same₃
  cases same₄
  cases loaded
  cases same₅
  cases done
  have perm := List.perm_insertionSort (fun a b : Reservation =>
    windowOrderKey a.targetKind ≤ windowOrderKey b.targetKind) (db.heldRows requestId)
  obtain ⟨holds, count, rfl⟩ := releaseRows_ok unique
    (fun r mem => refs r (List.mem_filter.mp (perm.mem_iff.mp mem)).1) released
  obtain ⟨p, unused, rfl⟩ := voidReleased_ok voided
  obtain ⟨jobs, rfl⟩ := when_resolveJobs_ok resolved
  have live : q.status ≠ .settled ∧ q.status ≠ .released := by simpa using live
  simp only [rowsOnWindow_perm perm, closeRows_heldRows ids perm] at unused
  refine ⟨q, p, holds, jobs, found, live.1, live.2, count, unused, ?_⟩
  simp only [rowsOnWindow_perm perm, rowsOnKey_perm perm, closeRows_heldRows ids perm]

theorem insertAttemptTx_ok {a : Attempt} (ran : (insertAttemptTx a).eval db = .ok ((), db')) :
    (∀ x ∈ db.attempts, x.id ≠ a.id) ∧
      db' = { db with attempts := db.attempts ++ [{ a with errorKind := "" }] } := by
  simp only [insertAttemptTx, insertRow_ok] at ran
  obtain ⟨fresh, same⟩ := ran
  cases same
  refine ⟨?_, rfl⟩
  unfold attemptViolation at fresh
  split_ifs at fresh with _ id
  simp only [List.any_eq_true, decide_eq_true_eq] at id
  exact fun x mem same => id ⟨x, mem, same⟩

theorem resolveWalletCharge_ok {m : Money}
    (ran : (resolveWalletCharge cmd).eval db = .ok (m, db')) : db' = db := by
  unfold resolveWalletCharge at ran
  split at ran
  · cases ran
    rfl
  · simp only [Txn.eval_bind_ok, selectOne_ok, check_ok] at ran
    obtain ⟨_, _, ⟨_, _, same⟩, _, _, same'⟩ := ran
    cases same
    cases same'
    rfl

theorem settleWallet_error {now : Int} {q : Request}
    (none : db.walletHolds = []) : (settleWallet cmd now q).eval db ≠ .ok ((), db') := by
  intro ran
  simp only [settleWallet, Txn.eval_bind_ok, Txn.eval_require_ok, insertLedgerEntry,
    insertRow_ok, settleWalletLocked, Txn.eval_queryLocking, Txn.eval_orThrow_ok] at ran
  obtain ⟨_, _, ⟨_, same⟩, _, _, used, charge, _, resolved, _, _, ⟨_, same₁⟩, _, _, ⟨_, same₂⟩,
    _, _, ⟨row, _, locked, _, _, ⟨_, found, _⟩, _⟩, _⟩ := ran
  cases same
  obtain ⟨_, rfl⟩ := insertUsageRecord_ok used
  cases resolveWalletCharge_ok resolved
  cases same₁
  cases same₂
  cases locked
  simp [none] at found

theorem settle_ok {now : Int} (none : db.walletHolds = [])
    (ran : (settle cmd now).eval db = .ok ((), db')) :
    ∃ q, db.findRequest cmd.requestId = some q ∧ q.status ≠ .settled ∧ q.status ≠ .released ∧
      q.chargeSource = .plan ∧ 0 ≤ cmd.chargeMicros ∧
      (settlePlan cmd q).eval db = .ok ((), db') := by
  simp only [settle, Txn.eval_bind_ok, Txn.eval_require_ok, selectForUpdate_ok] at ran
  obtain ⟨_, _, ⟨charge, same⟩, q, _, ⟨_, found, same₁⟩, _, _, ⟨live, same₂⟩, rest⟩ := ran
  cases same
  cases same₁
  cases same₂
  split at rest
  · exact absurd rest (settleWallet_error none)
  · rename_i plan
    simp only [Bool.and_eq_true, decide_eq_true_eq] at live
    exact ⟨q, found, by simpa using live.1, by simpa using live.2, plan, by simpa using charge,
      rest⟩

end YunhouUsers.Inference.Postgres
