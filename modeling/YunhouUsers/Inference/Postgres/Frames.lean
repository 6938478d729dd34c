import YunhouUsers.ReadCommitted.Steps
import YunhouUsers.Inference.Postgres.Reconciliation

/-!
The rules of `ReadCommitted.Steps` for the statements of the store, and what its
transactions leave alone.
-/

namespace YunhouUsers.Inference.Postgres

variable {op : String} {locks : List (LockKey × LockMode)} {violation : Db → Option PgError}
  {write : Db → Db} {hit : Db → Bool}

open ReadCommitted Table Accounting

section Rules

variable {D : Discipline Db LockKey} {K : Db → Prop} {held : List (LockKey × LockMode)}
  {pending : Db → Db} {α : Type} {post : Post Db LockKey α}

theorem orThrow_runs (held : Option α → List (LockKey × LockMode)) {row : Option α} {e : Err}
    {db : Db} (h : ∀ a, row = some a →
      ∃ K', K' db ∧ D.Stable (held (some a)) K' ∧ post a K' (held (some a)) pending) :
    ∃ K', K' db ∧ D.Stable (held row) K' ∧
      (Txn.orThrow row e : Tx α).Runs D K' (held row) pending post := by
  cases row with
  | none => exact ⟨fun _ => True, trivial, D.stable_true _, .orThrow (by simp)⟩
  | some a =>
    obtain ⟨K', k, stable, rest⟩ := h a rfl
    refine ⟨K', k, stable, .orThrow ?_⟩
    intro b same
    cases same
    exact rest

theorem selectForUpdate_runs {key : LockKey} {read : Db → Option α}
    (h : ∀ db a, D.inv db → K db → read (pending db) = some a →
      ∃ K', K' db ∧ D.Stable ((key, .update) :: held) K' ∧
        post a K' ((key, .update) :: held) pending) :
    (selectForUpdate op key read).Runs D K held pending post :=
  .bind (.queryLocking fun db inv known =>
    orThrow_runs (fun row => (if row.isSome then _ else []) ++ held) fun a => h db a inv known)

theorem selectOne_runs {read : Db → Option α}
    (h : ∀ db a, D.inv db → K db → read (pending db) = some a →
      ∃ K', K' db ∧ D.Stable held K' ∧ post a K' held pending) :
    (selectOne op read).Runs D K held pending post :=
  .bind (.query fun db inv known => orThrow_runs (fun _ => held) fun a => h db a inv known)

theorem check_runs {r : Except Err α}
    (h : ∀ a, r = .ok a → post a K held pending) : (check r).Runs D K held pending post := by
  cases r with
  | ok a => exact .pure (h a rfl)
  | error e => exact .throw e

variable {post : Post Db LockKey Unit}

theorem insertRow_runs
    (h : ∀ db, D.inv db → K db → violation (pending db) = none →
      ∃ K', K' db ∧ D.Stable (locks ++ held) K' ∧
        post () K' (locks ++ held) (fun d => write (pending d))) :
    (insertRow op locks violation write).Runs D K held pending post := by
  refine Txn.Runs.exec fun db _ inv known outcome => ?_
  cases ok : violation (pending db) with
  | some v => simp [ok] at outcome
  | none => exact h db inv known ok

theorem updateRow_runs {miss : Err}
    (h : ∀ db, D.inv db → K db → hit (pending db) = true →
      ∃ K', K' db ∧ D.Stable (locks ++ held) K' ∧
        post () K' (locks ++ held) (fun d => write (pending d))) :
    (updateRow op locks hit write miss).Runs D K held pending post := by
  refine Txn.Runs.exec fun db _ inv known outcome => ?_
  cases ok : hit (pending db) with
  | false => simp [ok] at outcome
  | true => simpa [ok] using h db inv known ok

theorem lockAccountTx_runs {accountId : Uuid} (stable : D.Stable held K)
    (h : D.Stable ((.account accountId, .update) :: held) K →
      post () K ((.account accountId, .update) :: held) pending) :
    (lockAccountTx accountId).Runs D K held pending post := by
  refine Txn.Runs.bind (selectForUpdate_runs fun db a _ known _ => ?_)
  have more := stable.append [(.account accountId, .update)]
  exact ⟨K, known, more, .require fun _ => h more⟩

end Rules

section Keeping

variable {π : Type} {part : Db → π}

theorem selectForUpdate_keeps {α : Type} (op : String) (key : LockKey) (read : Db → Option α) :
    (selectForUpdate op key read).Keeps part :=
  .bind (.queryLocking _ _ _) fun _ => .orThrow _ _

theorem selectOne_keeps {α : Type} (op : String) (read : Db → Option α) :
    (selectOne op read).Keeps part :=
  .bind (.query _ _) fun _ => .orThrow _ _

theorem insertRow_keeps (h : ∀ db, part (write db) = part db) :
    (insertRow op locks violation write).Keeps part :=
  .exec fun _ => h

theorem updateRow_keeps {miss : Err} (h : ∀ db, part (write db) = part db) :
    (updateRow op locks hit write miss).Keeps part :=
  .exec fun _ => h

theorem tryUpdate_keeps (h : ∀ db, part (write db) = part db) :
    (tryUpdate op locks hit write).Keeps part :=
  .exec fun _ => h

theorem check_keeps {α : Type} (r : Except Err α) : (check r).Keeps part := by
  cases r
  · exact .throw _
  · exact .pure _

theorem lockAccountTx_keeps (accountId : Uuid) : (lockAccountTx accountId).Keeps part :=
  .bind (selectForUpdate_keeps _ _ _) fun _ => .require _ _

end Keeping

structure Beside {π : Type} (part : Db → π) : Prop where
  windows : ∀ db rows, part { db with windows := rows } = part db := by intros; rfl
  apiKeys : ∀ db rows, part { db with apiKeys := rows } = part db := by intros; rfl
  reservations : ∀ db rows, part { db with reservations := rows } = part db := by intros; rfl
  usageRecords : ∀ db rows, part { db with usageRecords := rows } = part db := by intros; rfl
  costs : ∀ db p cost, part { db with
    attempts := updateWhere p (fun a => { a with cost := cost }) db.attempts } = part db

section Beside

variable {π : Type} {part : Db → π} (beside : Beside part)
include beside

theorem insertUsageRecord_keeps (u : UsageRecord) : (insertUsageRecord u).Keeps part :=
  insertRow_keeps fun _ => beside.usageRecords _ _

theorem insertReservation_keeps (op : String) (r : Reservation) :
    (insertReservation op r).Keeps part :=
  insertRow_keeps fun _ => beside.reservations _ _

theorem moveReservation_keeps (op : String) (id : Uuid) (state : ReservationState)
    (miss : String) : (moveReservation op id state miss).Keeps part :=
  updateRow_keeps fun _ => beside.reservations _ _

theorem settleTarget_keeps (charge : Int) (r : Reservation) :
    (settleTarget charge r).Keeps part := by
  unfold settleTarget
  split
  · split
    · exact .throw _
    · exact updateRow_keeps fun _ => beside.apiKeys _ _
  · split
    · exact .throw _
    · exact updateRow_keeps fun _ => beside.windows _ _

theorem settleRows_keeps (charge : Int) (rows : List Reservation) :
    (settleRows charge rows).Keeps part := by
  induction rows with
  | nil => exact .pure _
  | cons r rows ih =>
    exact .bind (settleTarget_keeps beside _ _) fun _ =>
      .bind (moveReservation_keeps beside _ _ _ _) fun _ => ih

theorem updateAttemptCost_keeps (op : String) (cmd : SettleCommand) :
    (updateAttemptCost op cmd).Keeps part := by
  unfold updateAttemptCost
  split
  · exact .bind (tryUpdate_keeps fun _ => beside.costs _ _ _) fun _ => .pure _
  · exact .pure _

theorem correctWindow_keeps (signed : Int) (windowId : Option Uuid) :
    (correctWindow signed windowId).Keeps part := by
  cases windowId with
  | none => exact .pure _
  | some id => exact updateRow_keeps fun _ => beside.windows _ _

theorem correctKey_keeps (signed : Int) (keyId : Option Uuid) :
    (correctKey signed keyId).Keeps part := by
  cases keyId with
  | none => exact .pure _
  | some id => exact updateRow_keeps fun _ => beside.apiKeys _ _

theorem correctTargets_keeps (signed : Int) (q : Request) : (correctTargets signed q).Keeps part :=
  .bind (correctWindow_keeps beside _ _) fun _ => .bind (correctWindow_keeps beside _ _) fun _ =>
    .bind (correctWindow_keeps beside _ _) fun _ => correctKey_keeps beside _ _

theorem voidReleased_keeps (fiveHourWindow : Option Uuid) :
    (voidReleased fiveHourWindow).Keeps part := by
  cases fiveHourWindow with
  | none => exact .pure _
  | some windowId =>
    refine .bind (selectOne_keeps _ _) fun w => ?_
    split
    · exact .pure _
    · refine .bind (.query _ _) fun held => ?_
      split
      · exact .pure _
      · exact .bind (tryUpdate_keeps fun _ => beside.windows _ _) fun _ => .pure _

omit beside in
theorem resolveWalletCharge_keeps (cmd : SettleCommand) : (resolveWalletCharge cmd).Keeps part := by
  unfold resolveWalletCharge
  split
  · exact .pure _
  · exact .bind (selectOne_keeps _ _) fun _ => check_keeps _

section Wallets

variable (walletHolds : ∀ db rows, part { db with walletHolds := rows } = part db)
  (walletEntries : ∀ db rows, part { db with walletEntries := rows } = part db)

omit beside in
include walletEntries in
theorem writeConsume_keeps (hold : WalletHold) (currency : String) (source : WalletSource)
    (micros now : Int) : (writeConsume hold currency source micros now).Keeps part := by
  unfold writeConsume
  split
  · exact .pure _
  · exact .bind (check_keeps _) fun _ => insertRow_keeps fun _ => walletEntries _ _

omit beside in
include walletHolds walletEntries in
theorem settleWalletLocked_keeps (requestId : Uuid) (charge : Money) (now : Int) :
    (settleWalletLocked requestId charge now).Keeps part :=
  .bind (.queryLocking _ _ _) fun _ => .bind (.orThrow _ _) fun _ => .bind (.require _ _) fun _ =>
    .bind (check_keeps _) fun _ => .bind (writeConsume_keeps walletEntries _ _ _ _ _) fun _ =>
      .bind (writeConsume_keeps walletEntries _ _ _ _ _) fun _ =>
        updateRow_keeps fun _ => walletHolds _ _

include walletHolds in
theorem releaseTarget_keeps (requestId : Uuid) (r : Reservation) :
    (releaseTarget requestId r).Keeps part := by
  unfold releaseTarget
  split
  · split
    · exact .throw _
    · exact updateRow_keeps fun _ => beside.apiKeys _ _
  · exact .exec fun _ _ => walletHolds _ _
  · split
    · exact .throw _
    · exact updateRow_keeps fun _ => beside.windows _ _

include walletHolds in
theorem releaseRows_keeps (requestId : Uuid) (rows : List Reservation) (five : Option Uuid) :
    (releaseRows requestId rows five).Keeps part := by
  induction rows generalizing five with
  | nil => exact .pure _
  | cons r rows ih =>
    exact .bind (releaseTarget_keeps beside walletHolds _ _) fun _ =>
      .bind (moveReservation_keeps beside _ _ _ _) fun _ => ih _

end Wallets

end Beside

structure Aside {π : Type} (part : Db → π) : Prop extends Beside part where
  ledger : ∀ db rows, part { db with ledger := rows } = part db := by intros; rfl
  jobs : ∀ db rows, part { db with jobs := rows } = part db := by intros; rfl
  requests : ∀ db p f, (∀ q, (f q).id = q.id ∧ (f q).billingAccountId = q.billingAccountId) →
    part { db with requests := updateWhere p f db.requests } = part db

section Aside

variable {π : Type} {part : Db → π} (aside : Aside part)
include aside

theorem insertLedgerEntry_keeps (op : String) (e : NewLedgerEntry) :
    (insertLedgerEntry op e).Keeps part :=
  insertRow_keeps fun _ => aside.ledger _ _

theorem markSettled_keeps (op : String) (cmd : SettleCommand) (settled : Int) :
    (markSettled op cmd settled).Keeps part :=
  .bind (tryUpdate_keeps fun db => aside.requests db _ _ fun _ => ⟨rfl, rfl⟩) fun _ => .pure _

theorem settlePlan_keeps (cmd : SettleCommand) (q : Request) : (settlePlan cmd q).Keeps part :=
  .bind (insertUsageRecord_keeps aside.toBeside _) fun _ =>
    .bind (insertLedgerEntry_keeps aside _ _) fun _ =>
      .bind (.query _ _) fun _ => .bind (.require _ _) fun _ =>
        .bind (settleRows_keeps aside.toBeside _ _) fun _ =>
          .bind (updateAttemptCost_keeps aside.toBeside _ _) fun _ => markSettled_keeps aside _ _ _

theorem resolveJobs_keeps (op : String) (requestId : Uuid) (which : ReconciliationJob → Bool) :
    (resolveJobs op requestId which).Keeps part :=
  .bind (tryUpdate_keeps fun _ => aside.jobs _ _) fun _ => .pure _

theorem updateRequestStatus_keeps (id : Uuid) (status : RequestStatus) (lastErr : String) :
    (updateRequestStatus id status lastErr).Keeps part :=
  updateRow_keeps fun db => aside.requests db _ _ fun _ => ⟨rfl, rfl⟩

theorem enqueueReconciliationJobTx_keeps (jobId requestId : Uuid) (reason : JobReason)
    (deadline : Int) : (enqueueReconciliationJobTx jobId requestId reason deadline).Keeps part :=
  insertRow_keeps fun db => by split <;> exact aside.jobs db _

theorem markReconciliationRequired_keeps (requestId : Uuid) (reason : JobReason) (deadline : Int)
    (jobId : Uuid) : (markReconciliationRequired requestId reason deadline jobId).Keeps part := by
  refine .bind (tryUpdate_keeps fun db => aside.requests db _ _ fun _ => ⟨rfl, rfl⟩) fun hit => ?_
  split
  · exact enqueueReconciliationJobTx_keeps aside _ _ _ _
  · exact .bind (.query _ _) fun _ => .require _ _

end Aside

structure Apart {π : Type} (part : Db → π) : Prop extends Aside part where
  walletHolds : ∀ db rows, part { db with walletHolds := rows } = part db := by intros; rfl
  walletEntries : ∀ db rows, part { db with walletEntries := rows } = part db := by intros; rfl

section Apart

variable {π : Type} {part : Db → π} (apart : Apart part)
include apart

theorem settleWallet_keeps (cmd : SettleCommand) (now : Int) (q : Request) :
    (settleWallet cmd now q).Keeps part :=
  .bind (.require _ _) fun _ => .bind (insertUsageRecord_keeps apart.toBeside _) fun _ =>
    .bind (resolveWalletCharge_keeps _) fun _ => .bind (.require _ _) fun _ =>
      .bind (insertLedgerEntry_keeps apart.toAside _ _) fun _ =>
        .bind (settleWalletLocked_keeps apart.walletHolds apart.walletEntries _ _ _) fun _ =>
          .bind (.exec fun _ _ => apart.reservations _ _) fun _ =>
            .bind (updateAttemptCost_keeps apart.toBeside _ _) fun _ =>
              markSettled_keeps apart.toAside _ _ _

theorem settle_keeps (cmd : SettleCommand) (now : Int) : (settle cmd now).Keeps part := by
  refine .bind (.require _ _) fun _ => .bind (selectForUpdate_keeps _ _ _) fun q =>
    .bind (.require _ _) fun _ => ?_
  split
  · exact settleWallet_keeps apart _ _ _
  · exact settlePlan_keeps apart.toAside _ _

theorem releaseLocked_keeps (requestId : Uuid) (fromReconciliation : Bool) :
    (releaseLocked requestId fromReconciliation).Keeps part :=
  .bind (selectOne_keeps _ _) fun _ => .bind (lockAccountTx_keeps _) fun _ =>
    .bind (selectForUpdate_keeps _ _ _) fun _ => .bind (.require _ _) fun _ =>
      .bind (.require _ _) fun _ => .bind (.query _ _) fun _ => .bind (.require _ _) fun _ =>
        .bind (releaseRows_keeps apart.toBeside apart.walletHolds _ _ _) fun _ =>
          .bind (voidReleased_keeps apart.toBeside _) fun _ =>
            .bind (.when (resolveJobs_keeps apart.toAside _ _ _)) fun _ =>
              updateRequestStatus_keeps apart.toAside _ _ _

end Apart

/-- The wallet tables, and who owns each request: all that wallet balances depend on. -/
structure WalletBook where
  wallets : List Wallet
  holds : List WalletHold
  entries : List WalletEntry
  /-- `(request, billing account)`. -/
  owners : List (Uuid × Uuid)
deriving DecidableEq

def Db.book (db : Db) : WalletBook :=
  ⟨db.wallets, db.walletHolds, db.walletEntries,
    db.requests.map (fun q => (q.id, q.billingAccountId))⟩

theorem book_aside : Aside Db.book where
  costs _ _ _ := rfl
  requests db p f same := by
    simp only [Db.book, WalletBook.mk.injEq, true_and]
    exact map_updateWhere _ _ _ (fun q => by rw [(same q).1, (same q).2]) _

end YunhouUsers.Inference.Postgres
