import YunhouUsers.Inference.Conservation.Runs
import YunhouUsers.Inference.Gateway.Dispatch
import YunhouUsers.Inference.Postgres.Books

/-!
Charges above the hold: the settlement of a request with its overage job, and the corrections
that may follow.
-/

namespace YunhouUsers.Inference.Gateway

open ReadCommitted Table Accounting Postgres

structure Correction where
  cmd : CorrectionCommand
  adjId : Uuid
  jobId : Uuid
  now : Int

def Correction.commit (c : Correction) (db : Db) : Db :=
  (correctSettlement c.cmd c.adjId c.jobId c.now).apply db

def correctAll (db : Db) (cs : List Correction) : Db := cs.foldl (fun db c => c.commit db) db

def showsOverage (id : Uuid) (j : ReconciliationJob) : Bool :=
  j.requestId = id && j.reason = .settlementOverage && j.status ≠ .resolved

def netSettled (id : Uuid) (db : Db) : Int :=
  total (fun e => if e.requestId = some id then db.signedAmount e else 0) db.ledger

def OverageShown (id : Uuid) (db : Db) : Prop :=
  ∀ q ∈ db.findRequest id, q.status = .settled → ∀ hold ∈ q.reservedMicros,
    hold < netSettled id db → db.jobs.any (showsOverage id) = true

instance (id : Uuid) (db : Db) : Decidable (OverageShown id db) :=
  inferInstanceAs (Decidable (∀ q ∈ db.findRequest id, q.status = .settled →
    ∀ hold ∈ q.reservedMicros, hold < netSettled id db → db.jobs.any (showsOverage id) = true))

/-- What `EnqueueReconciliationJobTx` makes visible: a job row of the request that is neither a
closed overage job nor open for a reason outside `closing`, the reasons the call itself closes
first. -/
def CanShow (closing : JobReason → Bool) (id : Uuid) (db : Db) : Prop :=
  ∀ j ∈ db.jobs, j.requestId = id →
    (j.reason = .settlementOverage → j.status ≠ .resolved) ∧
    (j.status = .pending ∨ j.status = .running →
      j.reason = .settlementOverage ∨ closing j.reason = true)

instance (closing : JobReason → Bool) (id : Uuid) (db : Db) : Decidable (CanShow closing id db) :=
  inferInstanceAs (Decidable (∀ j ∈ db.jobs, j.requestId = id →
    (j.reason = .settlementOverage → j.status ≠ .resolved) ∧
    (j.status = .pending ∨ j.status = .running →
      j.reason = .settlementOverage ∨ closing j.reason = true)))

def isEvidenceReason (r : JobReason) : Bool := r = .crashRecovery || r = .unknownUsage

def Correction.Raises (c : Correction) (db : Db) : Prop :=
  ∃ q hold, db.findRequest c.cmd.requestId = some q ∧ q.reservedMicros = some hold ∧
    hold < c.cmd.correctedMicros

def Shows (id : Uuid) : Db → List Correction → Prop :=
  History.Along (fun db c => c.commit db) fun db c => c.Raises db → CanShow isEvidenceReason id db

variable {id : Uuid} {db db' : Db}

theorem enqueue_shows {jobId : Uuid} {deadline : Int} (can : CanShow (fun _ => false) id db)
    (ran : (enqueueReconciliationJobTx jobId id .settlementOverage deadline).eval db =
      .ok ((), db')) : db'.jobs.any (showsOverage id) = true := by
  simp only [enqueueReconciliationJobTx, insertRow_ok] at ran
  obtain ⟨_, same⟩ := ran
  obtain ⟨_, rfl⟩ := Prod.mk.inj same
  split_ifs with known
  · obtain ⟨j, mem, ofRequest⟩ := List.any_eq_true.mp known
    have ofRequest : j.requestId = id := by simpa using ofRequest
    obtain ⟨unresolved, reason⟩ := can j mem ofRequest
    rw [List.any_eq_true]
    refine ⟨_, mem_updateWhere.mpr ⟨j, mem, rfl⟩, ?_⟩
    simp only [ofRequest, decide_true, if_true, showsOverage, ReconciliationJob.merge]
    -- open rows already carry the reason, closed ones of another reason are reopened under it
    cases status : j.status <;> by_cases over_ : j.reason = .settlementOverage <;> simp_all
  · simp [showsOverage]

theorem canShow_resolved {op : String} (can : CanShow isEvidenceReason id db)
    (ran : (resolveJobs op id (fun j => j.reason = .crashRecovery || j.reason = .unknownUsage)).eval
      db = .ok ((), db')) : CanShow (fun _ => false) id db' := by
  simp only [resolveJobs, Txn.eval_bind_ok, tryUpdate_ok] at ran
  obtain ⟨_, _, same, done⟩ := ran
  cases same
  cases done
  intro j mem ofRequest
  obtain ⟨j₀, mem₀, rfl⟩ := mem_updateWhere.mp mem
  by_cases hit : (ReconciliationJob.isOpen id j₀ &&
      (decide (j₀.reason = .crashRecovery) || decide (j₀.reason = .unknownUsage))) = true
  · rw [if_pos hit]
    simp only [Bool.and_eq_true, Bool.or_eq_true, decide_eq_true_eq] at hit
    refine ⟨fun over_ => ?_, by simp⟩
    rcases hit.2 with reason | reason <;> simp [reason] at over_
  · rw [if_neg hit] at ofRequest ⊢
    obtain ⟨unresolved, reason⟩ := can j₀ mem₀ ofRequest
    refine ⟨unresolved, fun isOpen => ?_⟩
    rcases reason isOpen with over_ | evidence
    · exact .inl over_
    · exact absurd (by simp [ReconciliationJob.isOpen, ofRequest, isOpen,
        show (j₀.reason = .crashRecovery ∨ j₀.reason = .unknownUsage) by
          simpa [isEvidenceReason] using evidence]) hit

variable {cmd : SettleCommand}

structure Accounted (id : Uuid) (db : Db) : Prop where
  adjusted : ∀ e ∈ db.ledger, ∀ a, e.adjustmentId = some a → ∃ x ∈ db.adjustments, x.id = a
  net : ∀ q, db.findRequest id = some q → q.status = .settled →
    q.settledMicros = some (netSettled id db)

theorem Accounted.book {q : Request} {e : LedgerEntry} {extra : List Adjustment}
    (adjusted : ∀ e ∈ db.ledger, ∀ a, e.adjustmentId = some a → ∃ x ∈ db.adjustments, x.id = a)
    (ledger : db'.ledger = db.ledger ++ [e])
    (adjustments : db'.adjustments = db.adjustments ++ extra) (owner : e.requestId = some id)
    (referenced : ∀ a, e.adjustmentId = some a → ∃ x ∈ db'.adjustments, x.id = a)
    (row : db'.findRequest id = some q)
    (amount : q.settledMicros = some (netSettled id db + db'.signedAmount e)) :
    Accounted id db' := by
  have net : netSettled id db' = netSettled id db + db'.signedAmount e := by
    simp only [netSettled, ledger, total_append, total_cons, total_nil, owner, if_true,
      Int.add_zero]
    congr 1
    apply total_congr
    intro x mem
    rw [signedAmount_append adjusted adjustments x mem]
  refine ⟨fun x mem a set => ?_, fun x found _ => ?_⟩
  · rw [ledger, List.mem_append, List.mem_singleton] at mem
    rcases mem with mem | rfl
    · obtain ⟨y, memy, same⟩ := adjusted x mem a set
      exact ⟨y, by rw [adjustments]; exact List.mem_append_left _ memy, same⟩
    · exact referenced a set
  · cases row.symm.trans found
    rw [net]
    exact amount

structure Unbooked (id : Uuid) (hold : Int) (db : Db) : Prop where
  hold : ∀ q, db.findRequest id = some q → q.reservedMicros = some hold
  adjusted : ∀ e ∈ db.ledger, ∀ a, e.adjustmentId = some a → ∃ x ∈ db.adjustments, x.id = a
  none : ∀ e ∈ db.ledger, e.requestId ≠ some id

theorem Decision.over_iff {d : Decision} {source : ChargeSource} {settledAt : Int}
    {cost : Option (Money × CostBasis)} (command : d.command source settledAt cost = some cmd)
    (unit : source = .plan → d.charge.money = none) :
    0 < d.overageMicros ↔ d.reservedMicros < cmd.chargeMicros := by
  cases source with
  | plan =>
    cases command
    simp only [Decision.overageMicros, unit rfl]
    split <;> omega
  | wallet =>
    obtain ⟨m, money, rfl⟩ := Option.map_eq_some_iff.mp command
    simp only [Decision.overageMicros, money]
    split <;> omega

theorem OverageShown.of_row {q : Request} {m : Int}
    (account : Accounted id db) (row : db.findRequest id = some q) (amount : q.settledMicros = some m)
    (shows : ∀ hold, q.reservedMicros = some hold → hold < m →
      db.jobs.any (showsOverage id) = true) : OverageShown id db := by
  intro x found settled hold held above
  have same : x = q := Option.some.inj (found.symm.trans row)
  rw [same] at settled held
  have net : m = netSettled id db := Option.some.inj (amount.symm.trans (account.net q row settled))
  exact shows hold held (net ▸ above)

theorem settlementTx_shown {over_ hold : Int} {jobId : Uuid} {now : Int}
    (unbooked : Unbooked cmd.requestId hold db) (agrees : 0 < over_ ↔ hold < cmd.chargeMicros)
    (can : hold < cmd.chargeMicros → CanShow (fun _ => false) cmd.requestId db)
    (ran : (settlementTx cmd over_ jobId now).eval db = .ok ((), db')) :
    Accounted cmd.requestId db' ∧ OverageShown cmd.requestId db' := by
  simp only [settlementTx, Txn.eval_bind_ok] at ran
  obtain ⟨_, db₁, settled, enqueued⟩ := ran
  obtain ⟨q, e, found, -, charges⟩ := settle_charges settled
  have kept : ∃ jobs', db' = { db₁ with jobs := jobs' } := by
    unfold Txn.when at enqueued
    split at enqueued
    · exact enqueueReconciliationJobTx_ok enqueued
    · cases enqueued
      exact ⟨_, rfl⟩
  obtain ⟨jobs', rfl⟩ := kept
  have row : ({ db₁ with jobs := jobs' } : Db).findRequest cmd.requestId =
      some (settledRequest cmd q) := findRequest_update (fun _ => rfl) charges.requests found
  have account : Accounted cmd.requestId { db₁ with jobs := jobs' } := by
    refine .book unbooked.adjusted charges.ledger
      (charges.adjustments.trans (List.append_nil _).symm) charges.owner
      (by simp [charges.unadjusted]) row ?_
    have zero : netSettled cmd.requestId db = 0 :=
      total_eq_zero fun x mem => by simp [unbooked.none x mem]
    simp [settledRequest, zero, Db.signedAmount, charges.type, charges.amount]
  refine ⟨account, .of_row account row rfl fun h held above => ?_⟩
  have same : h = hold := Option.some.inj (held.symm.trans (unbooked.hold q found))
  subst same
  rw [Txn.when, if_pos (by simpa using agrees.mpr above)] at enqueued
  refine enqueue_shows (fun j mem => ?_) enqueued
  rw [charges.jobs] at mem
  exact can above j mem

theorem Correction.commit_shown {c : Correction} (account : Accounted c.cmd.requestId db)
    (shown : OverageShown c.cmd.requestId db)
    (can : c.Raises db → CanShow isEvidenceReason c.cmd.requestId db) :
    Accounted c.cmd.requestId (c.commit db) ∧ OverageShown c.cmd.requestId (c.commit db) := by
  refine Txn.apply_preserves _ (fun db => Accounted c.cmd.requestId db ∧
    OverageShown c.cmd.requestId db) db ⟨account, shown⟩ ?_
  intro _ db' ran
  obtain ⟨q, base, d, chargeId, shifted, reads, moved, checked⟩ := correctSettlement_parts ran
  have effect := (correctTargets_keeps books_beside _ _).eval moved
  simp only [books, correctionBooked, Prod.mk.injEq] at effect
  obtain ⟨requests, ledger, adjustments, jobs, -⟩ := effect
  obtain ⟨jobs', same⟩ := recheckJobs_ok checked
  subst same
  obtain ⟨owner, _, _⟩ := correctionEntry_fields c.cmd q.billingAccountId base d chargeId
    db.ledger.length c.adjId
  have based : base = netSettled c.cmd.requestId db :=
    Option.some.inj (reads.based.symm.trans (account.net q reads.found reads.settled))
  have row : ({ shifted with
      requests := updateWhere (·.id = c.cmd.requestId) (correctedRequest c.cmd)
        shifted.requests
      jobs := jobs' } : Db).findRequest c.cmd.requestId = some (correctedRequest c.cmd q) :=
    findRequest_update (fun _ => rfl) (by rw [requests]) reads.found
  have kept : Accounted c.cmd.requestId { shifted with
      requests := updateWhere (·.id = c.cmd.requestId) (correctedRequest c.cmd)
        shifted.requests
      jobs := jobs' } := by
    refine .book account.adjusted ledger adjustments owner (fun a set => ?_) row ?_
    · rw [adjustments]
      exact (ledgerViolation_none reads.entry).2.2 a set
    · rw [correctionEntry_signed reads (by exact adjustments), ← based]
      simp [correctedRequest]
  refine ⟨kept, .of_row kept row rfl fun hold held above => ?_⟩
  have held : q.reservedMicros = some hold := held
  simp only [recheckJobs, Txn.eval_bind_ok, held] at checked
  obtain ⟨_, db₁, resolved, raised⟩ := checked
  rw [if_pos above] at raised
  refine enqueue_shows (canShow_resolved (fun j mem => ?_) resolved) raised
  simp only [jobs] at mem
  exact can ⟨q, hold, reads.found, held, above⟩ j mem

theorem correctAll_shown {cs : List Correction}
    (of : ∀ c ∈ cs, c.cmd.requestId = id) (account : Accounted id db) (shown : OverageShown id db)
    (shows : Shows id db cs) : OverageShown id (correctAll db cs) := by
  have kept : Accounted id (correctAll db cs) ∧ OverageShown id (correctAll db cs) := by
    refine History.foldl_keeps (I := fun db => Accounted id db ∧ OverageShown id db) ?_
      ⟨account, shown⟩ (shows.and (History.along_of_forall of))
    rintro db c ⟨account, shown⟩ ⟨can, rfl⟩
    exact Correction.commit_shown account shown can
  exact kept.2

/-- In a history of a settlement and corrections whose jobs can show what they raise, no
overage is hidden after any call. -/
theorem overage_shown (db : Db) (d : Decision) (source : ChargeSource) (settledAt : Int)
    (cost : Option (Money × CostBasis)) (cmd : SettleCommand)
    (command : d.command source settledAt cost = some cmd)
    (unit : source = .plan → d.charge.money = none)
    (unbooked : Unbooked cmd.requestId d.reservedMicros db) (jobId : Uuid) (now : Int)
    (settled : ((settlementTx cmd d.overageMicros jobId now).eval db).isOk = true)
    (can : d.reservedMicros < cmd.chargeMicros → CanShow (fun _ => false) cmd.requestId db)
    (cs : List Correction) (of : ∀ c ∈ cs, c.cmd.requestId = cmd.requestId)
    (shows : Shows cmd.requestId ((settlementTx cmd d.overageMicros jobId now).apply db) cs) :
    ∀ done, done <+: cs → OverageShown cmd.requestId
      (correctAll ((settlementTx cmd d.overageMicros jobId now).apply db) done) := by
  intro done initial
  cases ran : (settlementTx cmd d.overageMicros jobId now).eval db with
  | error e => simp [ran, Except.isOk, Except.toBool] at settled
  | ok r =>
    obtain ⟨_, db₀⟩ := r
    obtain ⟨account, shown⟩ :=
      settlementTx_shown unbooked (Decision.over_iff command unit) can ran
    rw [Txn.apply_of_ok ran] at shows ⊢
    exact correctAll_shown (fun c mem => of c (initial.subset mem)) account shown
      (shows.initial initial)

def overageDb : Db := runCalls auditDb ((auditCalls auditCommand).take 3)

def overageDecision : Decision := ⟨⟨3, 30, .reported, 0⟩, ⟨50, none⟩, 40⟩

def overageCommand : SettleCommand :=
  { requestId := 3, usage := ⟨3, 30, .reported, 0⟩, chargeMicros := 50, walletCharge := none
    attemptId := none, attemptCost := none, costBasis := none, settledAt := 1 }

def overageCorrection (n : Nat) (micros : Int) : Correction :=
  ⟨⟨3, ⟨3, 30, .reported, 0⟩, micros, "late usage report", "ops", "key " ++ toString n, some 2⟩,
    100 + n, 200 + n, 2⟩

theorem overage_shown_above :
    40 < netSettled 3 (correctAll ((settlementTx overageCommand overageDecision.overageMicros 99
      1).apply overageDb) [overageCorrection 0 60]) ∧
    ∀ done, done <+: [overageCorrection 0 60] → OverageShown 3 (correctAll
      ((settlementTx overageCommand overageDecision.overageMicros 99 1).apply overageDb) done) := by
  refine ⟨by decide, overage_shown overageDb overageDecision .plan 1 none overageCommand rfl
    (fun _ => rfl) ⟨?_, ?_, ?_⟩ 99 1 (by decide) (fun _ => by decide) _ (by decide)
    ⟨fun _ => by decide, trivial⟩⟩
  · decide
  · decide
  · decide

/-- Over the hold, back within it, and over it again: the job closed on the way down stays
closed, and nothing says that the request is above its hold. -/
theorem overage_hidden :
    ¬ OverageShown 3 (correctAll ((settlementTx overageCommand overageDecision.overageMicros 99
      1).apply overageDb) [overageCorrection 0 30, overageCorrection 1 60]) := by
  decide

end YunhouUsers.Inference.Gateway
