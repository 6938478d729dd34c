import YunhouUsers.Inference.Postgres.Effects.Settlement
import YunhouUsers.Inference.Postgres.Frames

/-!
What a settlement does to the requests, the ledger, the jobs and the facts about the attempts,
whichever purse is charged.
-/

namespace YunhouUsers.Inference.Postgres

open ReadCommitted Table Accounting

/-- What the attempt rows say, without their costs. -/
def facts (db : Db) : List Attempt := db.attempts.map fun a => { a with cost := none }

theorem facts_costs (db : Db) (p : Attempt → Bool) (cost : Option (Money × CostBasis)) :
    facts { db with attempts := updateWhere p (fun a => { a with cost := cost }) db.attempts } =
      facts db :=
  map_updateWhere _ _ _ (by intro; rfl) _

def books (db : Db) :
    List Request × List LedgerEntry × List Adjustment × List ReconciliationJob × List Attempt :=
  (db.requests, db.ledger, db.adjustments, db.jobs, facts db)

theorem books_beside : Beside books where
  costs db p cost := by simp only [books, facts_costs]

variable {cmd : SettleCommand} {db db' : Db}

/-- The settlement of `cmd` books `e` and finalizes the request. -/
structure Charges (cmd : SettleCommand) (e : LedgerEntry) (db db' : Db) : Prop where
  owner : e.requestId = some cmd.requestId
  type : e.entryType = .charge
  amount : e.amount = cmd.chargeMicros
  unadjusted : e.adjustmentId = none
  requests : db'.requests = updateWhere (·.id = cmd.requestId) (settledRequest cmd) db.requests
  ledger : db'.ledger = db.ledger ++ [e]
  adjustments : db'.adjustments = db.adjustments
  jobs : db'.jobs = db.jobs
  attempts : facts db' = facts db

theorem charges_of_books {e : NewLedgerEntry} {db₁ db₂ : Db} {op : String}
    (before : books db₁ = books db)
    (after : books db₂ = books { db₁ with ledger := db₁.ledger ++ [e.row db₁.ledger.length] })
    (marked : (markSettled op cmd cmd.chargeMicros).eval db₂ = .ok ((), db'))
    (owner : e.requestId = cmd.requestId) (type : e.entryType = .charge)
    (amount : e.amount = cmd.chargeMicros) (unadjusted : e.adjustmentId = none) :
    ∃ e, Charges cmd e db db' := by
  cases markSettled_ok marked
  simp only [books, Prod.mk.injEq] at before after
  obtain ⟨requests, ledger, adjustments, jobs, attempts⟩ := before
  obtain ⟨requests', ledger', adjustments', jobs', attempts'⟩ := after
  exact ⟨e.row db₁.ledger.length, congrArg some owner, type, amount, unadjusted,
    congrArg (updateWhere _ _) (requests'.trans requests), ledger'.trans (congrArg (· ++ _) ledger),
    adjustments'.trans adjustments, jobs'.trans jobs, attempts'.trans attempts⟩

variable {q : Request}

theorem settleWallet_charges {now : Int} (ran : (settleWallet cmd now q).eval db = .ok ((), db')) :
    ∃ e, Charges cmd e db db' := by
  simp only [settleWallet, Txn.eval_bind_ok, Txn.eval_require_ok, insertLedgerEntry,
    insertRow_ok] at ran
  obtain ⟨_, _, ⟨_, same⟩, _, db₁, used, charge, db₂, resolved, _, _, ⟨agree, same₁⟩, _, _,
    ⟨_, same₂⟩, _, db₃, held, _, db₄, moved, _, db₅, cost, marked⟩ := ran
  cases same
  cases same₁
  cases same₂
  have before : books db₂ = books db :=
    ((resolveWalletCharge_keeps cmd).eval resolved).trans
      ((insertUsageRecord_keeps books_beside _).eval used)
  have kept : books db₃ = books _ :=
    (settleWalletLocked_keeps (fun _ _ => rfl) (fun _ _ => rfl) _ _ _).eval held
  rw [Txn.eval_exec_ok] at moved
  obtain ⟨_, _, same⟩ := moved
  cases same
  have after := ((updateAttemptCost_keeps books_beside _ cmd).eval cost).trans kept
  have amount : charge.micros = cmd.chargeMicros := by simpa using agree
  rw [amount] at marked
  exact charges_of_books before after marked rfl rfl amount rfl

theorem settlePlan_charges (ran : (settlePlan cmd q).eval db = .ok ((), db')) :
    ∃ e, Charges cmd e db db' := by
  simp only [settlePlan, Txn.eval_bind_ok, insertLedgerEntry, insertRow_ok, loadHeldReservations,
    Txn.eval_query, Txn.eval_require_ok] at ran
  obtain ⟨_, db₁, used, _, _, ⟨_, same⟩, rows, _, loaded, _, _, ⟨_, same₁⟩, _, db₂, settled, _,
    db₃, cost, marked⟩ := ran
  cases same
  cases loaded
  cases same₁
  have before : books db₁ = books db := (insertUsageRecord_keeps books_beside _).eval used
  have after := ((updateAttemptCost_keeps books_beside _ cmd).eval cost).trans
    ((settleRows_keeps books_beside _ _).eval settled)
  exact charges_of_books before after marked rfl rfl rfl rfl

theorem settle_charges {now : Int} (ran : (settle cmd now).eval db = .ok ((), db')) :
    ∃ q e, db.findRequest cmd.requestId = some q ∧
      (q.status ≠ .settled && q.status ≠ .released) = true ∧ Charges cmd e db db' := by
  simp only [settle, Txn.eval_bind_ok, Txn.eval_require_ok, selectForUpdate_ok] at ran
  obtain ⟨_, _, ⟨_, same⟩, q, _, ⟨_, found, same₁⟩, _, _, ⟨live, same₂⟩, rest⟩ := ran
  cases same
  cases same₁
  cases same₂
  split at rest
  · obtain ⟨e, charges⟩ := settleWallet_charges rest
    exact ⟨q, e, found, live, charges⟩
  · obtain ⟨e, charges⟩ := settlePlan_charges rest
    exact ⟨q, e, found, live, charges⟩

end YunhouUsers.Inference.Postgres
