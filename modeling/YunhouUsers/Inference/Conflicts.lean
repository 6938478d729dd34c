import Mathlib.Data.Fintype.EquivFin
import YunhouUsers.Inference.Conservation.Voided
import YunhouUsers.Inference.Overage

/-!
What a conflict of a plan settlement means.

Several guarded statements of `Settle` answer with the conflict code, and the gateway takes each
of them for a delivery that was settled before.  The guards on windows, budgets and reservations
never fail in a reachable state, and evidence is only in the way of its own request.  What is left
is a request that was settled, or released: then nobody books the charge.
-/

namespace YunhouUsers.Inference.Postgres

open ReadCommitted Table Accounting

/-! ### Evidence -/

structure Db.EvidenceOwned (db : Db) : Prop where
  ids : ((attemptOwners db.attempts).map Prod.fst).Nodup
  owned : ∀ u ∈ db.usageRecords, ∃ id, (u.attemptId, id) ∈ attemptOwners db.attempts ∧
    ∃ q ∈ db.requests, q.id = id ∧ q.status = .settled

def Db.OwnsAttempt (db : Db) (requestId attemptId : Uuid) : Prop :=
  ∀ a ∈ db.attempts, a.id = attemptId → a.requestId = requestId

/-- Settlements and corrections name an attempt of the request they are about. -/
def Call.OwnEvidence (db : Db) : Call → Prop
  | .settle cmd _ => db.OwnsAttempt cmd.requestId cmd.usage.attemptId
  | .correctSettlement cmd _ _ _ => db.OwnsAttempt cmd.requestId cmd.corrected.attemptId
  | _ => True

variable {u : UsageRecord} {db : Db}

theorem usageViolation_none (ok : usageViolation u db = none) :
    ∃ a ∈ db.attempts, a.id = u.attemptId := by
  unfold usageViolation at ok
  split_ifs at ok with _ _ _ attempt
  simpa using attempt

variable {requestId : Uuid} {op : String}

theorem mem_attemptOwners {attempts : List Attempt} {a : Attempt} (mem : a ∈ attempts) :
    (a.id, a.requestId) ∈ attemptOwners attempts :=
  List.mem_map_of_mem mem

namespace Db.EvidenceOwned

variable {db db' : Db} (owned : db.EvidenceOwned)
include owned

theorem step (attempts : attemptOwners db'.attempts = attemptOwners db.attempts)
    (settled : ∀ q ∈ db.requests, q.status = .settled →
      ∃ q' ∈ db'.requests, q'.id = q.id ∧ q'.status = .settled)
    (usage : ∀ u ∈ db'.usageRecords, u ∈ db.usageRecords ∨
      ∃ id, (u.attemptId, id) ∈ attemptOwners db.attempts ∧
        ∃ q ∈ db'.requests, q.id = id ∧ q.status = .settled) : db'.EvidenceOwned := by
  refine ⟨attempts ▸ owned.ids, fun u mem => ?_⟩
  rw [attempts]
  rcases usage u mem with mem | new
  · obtain ⟨id, own, q, memq, rfl, done⟩ := owned.owned u mem
    obtain ⟨q', mem', same, done'⟩ := settled q memq done
    exact ⟨_, own, q', mem', same, done'⟩
  · exact new

theorem unsettled {p : Request → Bool} {f : Request → Request}
    (attempts : db'.attempts = db.attempts)
    (usage : db'.usageRecords = db.usageRecords)
    (requests : db'.requests = updateWhere p f db.requests)
    (spared : ∀ q ∈ db.requests, p q = true → q.status ≠ .settled) : db'.EvidenceOwned := by
  refine owned.step (by rw [attempts]) (fun q mem done => ⟨q, ?_, rfl, done⟩)
    fun u mem => .inl (usage ▸ mem)
  rw [requests]
  refine mem_updateWhere.mpr ⟨q, mem, ?_⟩
  rw [if_neg fun hit => spared q mem hit done]

theorem booked {f : Request → Request}
    (attempts : attemptOwners db'.attempts = attemptOwners db.attempts)
    (usage : db'.usageRecords = db.usageRecords ++ [u])
    (requests : db'.requests = updateWhere (·.id = requestId) f db.requests)
    (same : ∀ q, (f q).id = q.id) {q : Request} (found : db.findRequest requestId = some q)
    (settled : ∀ x ∈ db.requests, x.id = requestId → (f x).status = .settled)
    (own : db.OwnsAttempt requestId u.attemptId)
    (known : ∃ a ∈ db.attempts, a.id = u.attemptId) : db'.EvidenceOwned := by
  obtain ⟨memq, rfl⟩ := find_key found
  have after : ∀ x ∈ db.requests, x.status = .settled ∨ x.id = q.id →
      ∃ x' ∈ db'.requests, x'.id = x.id ∧ x'.status = .settled := by
    intro x mem done
    refine ⟨if decide (x.id = q.id) then f x else x, ?_, ?_, ?_⟩
    · rw [requests]
      exact mem_updateWhere.mpr ⟨x, mem, rfl⟩
    · split
      · exact same x
      · rfl
    · split
      · rename_i hit
        exact settled x mem (by simpa using hit)
      · rename_i miss
        exact done.resolve_right (by simpa using miss)
  refine owned.step attempts (fun x mem done => after x mem (.inl done)) fun x mem => ?_
  rw [usage, List.mem_append, List.mem_singleton] at mem
  rcases mem with mem | rfl
  · exact .inl mem
  · obtain ⟨a, mema, ida⟩ := known
    refine .inr ⟨q.id, ?_, ?_⟩
    · have row := mem_attemptOwners mema
      rwa [ida, own a mema ida] at row
    · exact after q memq (.inr rfl)

theorem releaseLocked (c : db.Conserved) {fromReconciliation : Bool}
    (ran : (Postgres.releaseLocked requestId fromReconciliation).eval db = .ok ((), db')) :
    db'.EvidenceOwned := by
  obtain ⟨q, _, _, _, found, settled, _, _, _, rfl⟩ :=
    releaseLocked_ok c.unique c.reservationIds c.refsOk ran
  refine owned.unsettled rfl rfl rfl fun x mem hit => ?_
  obtain ⟨memq, key⟩ := find_key found
  rw [eq_of_key c.requestIds mem memq ((by simpa using hit : x.id = requestId).trans key.symm)]
  exact settled

theorem insertAttempt {a : Attempt}
    (ran : (Postgres.insertAttemptTx a).eval db = .ok ((), db')) : db'.EvidenceOwned := by
  obtain ⟨fresh, rfl⟩ := insertAttemptTx_ok ran
  have appended : attemptOwners (db.attempts ++ [{ a with errorKind := "" }]) =
      attemptOwners db.attempts ++ [(a.id, a.requestId)] := by
    simp [attemptOwners]
  refine ⟨?_, fun u mem => ?_⟩
  · rw [appended]
    refine nodup_concat owned.ids fun x mem => ?_
    obtain ⟨b, memb, rfl⟩ := List.mem_map.mp mem
    exact fresh b memb
  · obtain ⟨id, own, rest⟩ := owned.owned u mem
    exact ⟨id, by rw [appended]; exact List.mem_append_left _ own, rest⟩

theorem commit (c : db.Conserved) {call : Call} (evidence : call.OwnEvidence db) :
    (call.commit db).EvidenceOwned := by
  refine call.commit_keeps owned fun db' ran => ?_
  cases call with
  | activateWindows =>
    obtain ⟨_, ran⟩ := ran
    obtain ⟨_, rfl, _, _⟩ := activateWindowsTx_ok ran
    exact ⟨owned.ids, owned.owned⟩
  | reserve =>
    obtain ⟨_, ran⟩ := ran
    obtain ⟨_, _, _, rfl, _⟩ := reserve_ok c.unique ran
    exact owned.step rfl (fun q mem done => ⟨q, List.mem_append_left _ mem, rfl, done⟩)
      fun u mem => .inl mem
  | release | releaseFromReconciliation => exact owned.releaseLocked c ran
  | insertAttempt => exact owned.insertAttempt ran
  | settle =>
    obtain ⟨q, found, _, _, _, _, ran⟩ := settle_ok c.noHolds ran
    obtain ⟨_, _, _, _, _, _, _, _, usage, attempts, rfl⟩ :=
      settlePlan_ok c.unique c.reservationIds c.refsOk ran
    exact owned.booked attempts rfl rfl (fun _ => rfl) found (fun _ _ _ => rfl) evidence
      (usageViolation_none usage)
  | correctSettlement =>
    obtain ⟨q, _, _, _, _, reads, rfl⟩ := correctSettlement_ok c.unique ran
    refine owned.booked rfl rfl rfl (fun _ => rfl) reads.found (fun x mem same => ?_) evidence
      (usageViolation_none reads.usage)
    obtain ⟨memq, key⟩ := find_key reads.found
    rw [eq_of_key c.requestIds mem memq (same.trans key.symm)]
    exact reads.settled
  | markReconciliationRequired =>
    obtain ⟨_, rfl⟩ := markReconciliationRequired_ok ran
    refine owned.unsettled rfl rfl rfl fun q _ hit => ?_
    simp only [isOpen, Bool.and_eq_true, decide_eq_true_eq] at hit
    exact hit.1.2

end Db.EvidenceOwned

/-! ### Keys -/

def Db.KeysKnown (db : Db) : Prop :=
  ∀ r ∈ db.reservations, ∀ k, r.apiKeyId = some k → k ∈ db.apiKeys.map (·.id)

namespace Db.KeysKnown

variable {db db' : Db} (known : db.KeysKnown)
include known

theorem step (keys : db'.apiKeys.map (·.id) = db.apiKeys.map (·.id))
    (targets : db'.reservations.map target = db.reservations.map target) : db'.KeysKnown := by
  intro r mem k set
  have mem₁ : target r ∈ db.reservations.map target := targets ▸ List.mem_map_of_mem mem
  obtain ⟨r₀, mem₀, same⟩ := List.mem_map.mp mem₁
  have key : (target r₀).apiKeyId = (target r).apiKeyId := by rw [same]
  rw [keys]
  exact known r₀ mem₀ k (key.trans set)

theorem commit (c : db.Conserved) (call : Call) : (call.commit db).KeysKnown := by
  refine call.commit_keeps known fun db' ran => ?_
  cases call with
  | activateWindows =>
    obtain ⟨_, ran⟩ := ran
    obtain ⟨_, rfl, _, _⟩ := activateWindowsTx_ok ran
    exact known
  | reserve =>
    obtain ⟨_, ran⟩ := ran
    obtain ⟨_, holds, _, rfl, _⟩ := reserve_ok c.unique ran
    intro r mem k set
    rw [shiftKeys_ids]
    rcases List.mem_append.mp mem with mem | mem
    · exact known r mem k set
    · obtain ⟨h, memh, _, rfl⟩ := mem_holdRows mem
      exact (holds h memh).2.2.2.2 k set
  | release | releaseFromReconciliation =>
    obtain ⟨_, _, _, _, _, _, _, _, _, rfl⟩ :=
      releaseLocked_ok c.unique c.reservationIds c.refsOk ran
    exact known.step (shiftKeys_ids _ _) (targets_closeHeld _ _ _)
  | insertAttempt =>
    obtain ⟨_, rfl⟩ := insertAttemptTx_ok ran
    exact known
  | settle =>
    obtain ⟨_, _, _, _, _, _, ran⟩ := settle_ok c.noHolds ran
    obtain ⟨_, _, _, _, _, _, _, _, _, _, rfl⟩ :=
      settlePlan_ok c.unique c.reservationIds c.refsOk ran
    exact known.step (shiftKeys_ids _ _) (targets_closeHeld _ _ _)
  | correctSettlement =>
    obtain ⟨_, _, _, _, _, _, rfl⟩ := correctSettlement_ok c.unique ran
    exact known.step (shiftKeys_ids _ _) rfl
  | markReconciliationRequired =>
    obtain ⟨_, rfl⟩ := markReconciliationRequired_ok ran
    exact known

end Db.KeysKnown

/-! ### The guards of the conversion loop -/

structure Covered (rows : List Reservation) (db : Db) : Prop where
  held : ∀ r ∈ rows, 0 ≤ r.amount ∧ targetRefsOk r = true ∧
    ∃ x ∈ db.reservations, x.id = r.id ∧ x.state = .held
  distinct : (rows.map (·.id)).Nodup
  windows : ∀ r ∈ rows, ∀ id, r.windowId = some id → ∃ w ∈ db.windows, w.id = id ∧
    w.voided = false ∧ rowsOnWindow rows (·.amount) id ≤ w.reserved
  keys : ∀ r ∈ rows, ∀ id, r.apiKeyId = some id → ∃ k ∈ db.apiKeys, k.id = id ∧
    rowsOnKey rows (·.amount) id ≤ k.budgetUsed

theorem onRow_nonneg {target : Option Uuid} {x : Int} (nonneg : 0 ≤ x) (id : Uuid) :
    0 ≤ onRow target x id := by
  unfold onRow
  split
  · exact nonneg
  · exact le_rfl

variable {charge : Int} {rows : List Reservation} {err : Err}

theorem Covered.tail {r : Reservation} (covered : Covered (r :: rows) db) (nonneg : 0 ≤ charge) :
    Covered rows { db with
      windows := shiftWindows (onRow r.windowId (-r.amount)) (onRow r.windowId charge) db.windows
      apiKeys := shiftKeys (onRow r.apiKeyId (charge - r.amount)) db.apiKeys
      reservations := updateWhere (fun x => x.id = r.id && x.state = .held)
        (fun x => { x with state := .settled }) db.reservations } := by
  have distinct := List.nodup_cons.mp covered.distinct
  refine ⟨fun x mem => ?_, distinct.2, fun x mem id set => ?_, fun x mem id set => ?_⟩
  · obtain ⟨amount, refs, y, memy, same, held⟩ := covered.held x (List.mem_cons_of_mem r mem)
    refine ⟨amount, refs, y, mem_updateWhere.mpr ⟨y, memy, ?_⟩, same, held⟩
    have other : y.id ≠ r.id := fun e =>
      distinct.1 (List.mem_map.mpr ⟨x, mem, same.symm.trans e⟩)
    simp [other]
  · obtain ⟨w, memw, rfl, live, enough⟩ := covered.windows x (List.mem_cons_of_mem r mem) id set
    refine ⟨_, List.mem_map_of_mem memw, rfl, live, ?_⟩
    simp only [rowsOnWindow_cons, onRow] at enough ⊢
    split_ifs at enough ⊢ <;> omega
  · obtain ⟨k, memk, rfl, enough⟩ := covered.keys x (List.mem_cons_of_mem r mem) id set
    refine ⟨_, List.mem_map_of_mem memk, rfl, ?_⟩
    simp only [rowsOnKey_cons, onRow] at enough ⊢
    split_ifs at enough ⊢ <;> omega

def Db.Charged (db : Db) (requestId : Uuid) : Prop := ∃ e ∈ db.ledger, isChargeOf requestId e = true

def Db.SettledCharged (db : Db) : Prop :=
  ∀ q ∈ db.requests, q.status = .settled → db.Charged q.id

namespace Db.SettledCharged

variable {db db' : Db} (charged : db.SettledCharged)
include charged

/-- Rows are rewritten under their id; one that gets settled has its charge by then. -/
theorem update {p : Request → Bool} {f : Request → Request} {more : List LedgerEntry}
    (ledger : db'.ledger = db.ledger ++ more)
    (requests : db'.requests = updateWhere p f db.requests) (same : ∀ q, (f q).id = q.id)
    (booked : ∀ q ∈ db.requests, p q = true → (f q).status = .settled →
      q.status = .settled ∨ db'.Charged q.id) : db'.SettledCharged := by
  have kept : ∀ id, db.Charged id → db'.Charged id := by
    rintro id ⟨e, mem, charge⟩
    exact ⟨e, by rw [ledger]; exact List.mem_append_left _ mem, charge⟩
  intro q mem settled
  rw [requests] at mem
  obtain ⟨q₀, mem₀, rfl⟩ := mem_updateWhere.mp mem
  split at settled
  · rename_i hit
    rw [if_pos hit, same]
    exact (booked q₀ mem₀ hit settled).elim (fun before => kept _ (charged q₀ mem₀ before)) id
  · rename_i miss
    rw [if_neg miss]
    exact kept _ (charged q₀ mem₀ settled)

theorem commit (c : db.Conserved) (call : Call) : (call.commit db).SettledCharged := by
  refine call.commit_keeps charged fun db' ran => ?_
  cases call with
  | activateWindows =>
    obtain ⟨_, ran⟩ := ran
    obtain ⟨_, rfl, _, _⟩ := activateWindowsTx_ok ran
    exact charged
  | reserve cmd =>
    obtain ⟨_, ran⟩ := ran
    obtain ⟨p, _, _, rfl, _⟩ := reserve_ok c.unique ran
    intro q mem settled
    rcases List.mem_append.mp mem with mem | mem
    · exact charged q mem settled
    · rw [List.mem_singleton.mp mem] at settled
      have reserved := (admittedRequest_fields cmd p).2.2
      simp [insertedRequest, reserved] at settled
  | release | releaseFromReconciliation =>
    obtain ⟨_, _, _, _, _, _, _, _, _, rfl⟩ :=
      releaseLocked_ok c.unique c.reservationIds c.refsOk ran
    exact charged.update (List.append_nil _).symm rfl (fun _ => rfl) fun _ _ _ other => by cases other
  | insertAttempt =>
    obtain ⟨_, rfl⟩ := insertAttemptTx_ok ran
    exact charged
  | settle cmd =>
    obtain ⟨_, _, _, _, _, _, ran⟩ := settle_ok c.noHolds ran
    obtain ⟨e, _, owner, kind, _, _, _, _, _, _, rfl⟩ :=
      settlePlan_ok c.unique c.reservationIds c.refsOk ran
    refine charged.update rfl rfl (fun _ => rfl) fun q _ hit _ => .inr ⟨_, List.mem_concat_self, ?_⟩
    simp [isChargeOf, NewLedgerEntry.row, owner, kind, (by simpa using hit : q.id = cmd.requestId)]
  | correctSettlement =>
    obtain ⟨q, _, _, _, _, reads, rfl⟩ := correctSettlement_ok c.unique ran
    exact charged.update rfl rfl (fun _ => rfl) fun _ _ _ settled => .inl settled
  | markReconciliationRequired =>
    obtain ⟨_, rfl⟩ := markReconciliationRequired_ok ran
    exact charged.update (List.append_nil _).symm rfl (fun _ => rfl) fun _ _ _ other => by cases other

end Db.SettledCharged

structure Db.Settleable (db : Db) : Prop where
  conserved : db.Conserved
  live : db.HeldLive
  evidence : db.EvidenceOwned
  keys : db.KeysKnown
  charged : db.SettledCharged

theorem Db.Settleable.commit (s : db.Settleable) {call : Call} (shaped : call.Shaped)
    (evidence : call.OwnEvidence db) : (call.commit db).Settleable :=
  ⟨s.conserved.commit shaped, s.live.commit s.conserved call,
    s.evidence.commit s.conserved evidence, s.keys.commit s.conserved call,
    s.charged.commit s.conserved call⟩

theorem Db.Settleable.covered (s : db.Settleable)
    (perm : rows.Perm (db.heldRows requestId)) : Covered rows db := by
  have c := s.conserved
  have mine : ∀ r ∈ rows, r ∈ db.reservations ∧ r.state = .held := by
    intro r mem
    obtain ⟨mem, held⟩ := List.mem_filter.mp (perm.mem_iff.mp mem)
    simp only [heldOf, Bool.and_eq_true, decide_eq_true_eq] at held
    exact ⟨mem, held.2⟩
  have part : ∀ (column : Reservation → Option Uuid) id,
      total (fun r => onRow (column r) r.amount id) (db.heldRows requestId) ≤
        total (heldOn column id) db.reservations := by
    intro column id
    rw [Db.heldRows, total_filter]
    refine total_mono fun r mem => ?_
    have amount : 0 ≤ onRow (column r) r.amount id := onRow_nonneg (c.amount_nonneg r mem) id
    by_cases held : r.state = .held
    · by_cases own : r.requestId = requestId <;> simp [heldOf, heldOn, held, own, amount]
    · simp [heldOf, heldOn, held]
  refine ⟨fun r mem => ?_, ?_, fun r mem id set => ?_, fun r mem id set => ?_⟩
  · exact ⟨c.amount_nonneg r (mine r mem).1, c.refsOk r (mine r mem).1, r, (mine r mem).1, rfl,
      (mine r mem).2⟩
  · refine (perm.map _).nodup_iff.mpr (c.reservationIds.sublist ?_)
    exact List.filter_sublist.map _
  · obtain ⟨w, memw, rfl⟩ := List.mem_map.mp (c.known r (mine r mem).1 id set)
    refine ⟨w, memw, rfl, s.live r (mine r mem).1 (mine r mem).2 w memw set, ?_⟩
    rw [rowsOnWindow_perm perm, c.balanced.reserved w memw]
    exact part (·.windowId) w.id
  · obtain ⟨k, memk, rfl⟩ := List.mem_map.mp (s.keys r (mine r mem).1 id set)
    refine ⟨k, memk, rfl, ?_⟩
    have settled : 0 ≤ total (settledOnKey k.id) db.requests := by
      refine total_nonneg fun q memq => ?_
      have := c.settledAmount_nonneg q memq
      rw [settledOnKey]
      split_ifs <;> omega
    have held := part (·.apiKeyId) k.id
    rw [rowsOnKey_perm perm, c.balanced.budget k memk]
    simp only [rowsOnKey, heldOnKey] at held ⊢
    omega

/-! ### Conflicts -/

namespace Db.Settleable

variable {db : Db} (s : db.Settleable) {cmd : SettleCommand} {err : Err}
include s

variable {requestId : Uuid} {q : Request}

end Db.Settleable

end YunhouUsers.Inference.Postgres

namespace YunhouUsers.Inference.Gateway

open ReadCommitted CrashProne Table Postgres

/-- A transaction fails only of its own error, and a job gets a new id. -/
def undisturbed (w : World) : (op : Op) → op.Choice → Prop
  | .tx _, fault => fault = .none
  | .newId, id => ∀ j ∈ w.db.jobs, j.id ≠ id
  | _, _ => True

variable {cmd : SettleCommand} {over_ : Int} {w w' : World} {db : Db} {jobId : Uuid} {now : Int}

def steady : Oracle calls := fun _ op =>
  match op with
  | .now => some 2
  | .newId => some 99
  | .tx _ => some .none
  | .price => some (.ok ⟨50, none⟩)
  | .attemptCost => some (.ok none)
  | _ => none

end YunhouUsers.Inference.Gateway
