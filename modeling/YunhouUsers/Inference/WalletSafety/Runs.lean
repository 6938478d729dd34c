import YunhouUsers.Inference.WalletSafety.Sessions

/-!
No interleaving of wallet transactions freezes more than a wallet holds.
-/

namespace YunhouUsers.Inference.Postgres

open ReadCommitted Table Accounting

inductive WalletCall where
  | reserve (cmd : ReserveWalletCommand) (holdId reservationId : Uuid)
  | settle (cmd : SettleCommand) (now : Int)
  | release (requestId : Uuid) (fromReconciliation : Bool)

def WalletCall.proc : WalletCall → Proc Db LockKey String Unit
  | .reserve cmd holdId reservationId =>
    (reserveWallet cmd holdId reservationId).inTx (fun _ => .done ())
  | .settle cmd now => (Postgres.settle cmd now).inTx (fun _ => .done ())
  | .release requestId fromReconciliation =>
    (releaseLocked requestId fromReconciliation).inTx (fun _ => .done ())

variable {ι : Type}

def Settles (calls : ι → WalletCall) (requestId : Uuid) (charge : Int) : Prop :=
  ∃ i cmd now, calls i = .settle cmd now ∧ cmd.requestId = requestId ∧ cmd.chargeMicros = charge

/-- No charge exceeds the hold it is settled against, be it stored already or taken by one of
the sessions. -/
structure ChargesWithinHolds (db : Db) (calls : ι → WalletCall) : Prop where
  stored : ∀ h ∈ db.walletHolds, ∀ c, Settles calls h.requestId c → c ≤ h.amount
  taken : ∀ i cmd holdId reservationId, calls i = .reserve cmd holdId reservationId →
    ∀ c, Settles calls cmd.request.id c → c ≤ cmd.holdMicros

/-- The keys and checks of migrations 026 and 030, and that a hold freezes a wallet of the
account its request belongs to. -/
structure Db.WalletsWellFormed (db : Db) : Prop where
  walletIds : (db.wallets.map (·.id)).Nodup
  currencies : ∀ w ∈ db.wallets, validCurrency w.currency = true
  holdIds : (db.walletHolds.map (·.id)).Nodup
  holdRequests : (db.walletHolds.map (·.requestId)).Nodup
  parts : ∀ h ∈ db.walletHolds, 0 ≤ h.cash ∧ 0 ≤ h.bonus ∧ h.cash + h.bonus = h.amount
  known : ∀ h ∈ db.walletHolds, ∃ q ∈ db.requests, q.id = h.requestId
  owner : ∀ h ∈ db.walletHolds, ∀ q ∈ db.requests, q.id = h.requestId → ∀ w ∈ db.wallets,
    w.id = h.walletId → w.billingAccountId = q.billingAccountId

def Db.Solvent (db : Db) : Prop :=
  ∀ w ∈ db.wallets, ∃ bal, deriveWalletBalance w.currency (db.book.sums w.id) = .ok bal ∧
    0 ≤ bal.cashAvailable ∧ 0 ≤ bal.bonusAvailable

variable {charges : Uuid → Int → Prop}

theorem Db.WalletsWellFormed.covered {db : Db} (wf : db.WalletsWellFormed) (solvent : db.Solvent)
    (charged : ∀ h ∈ db.walletHolds, ∀ c, charges h.requestId c → c ≤ h.amount) :
    db.book.Covered charges := by
  refine ⟨wf.walletIds, wf.currencies, wf.holdIds, wf.holdRequests, wf.parts, ?_, ?_, charged, ?_⟩
  · intro h mem
    obtain ⟨q, memq, same⟩ := wf.known h mem
    exact ⟨_, List.mem_map.mpr ⟨q, memq, rfl⟩, same⟩
  · intro h mem q memq same w memw
    obtain ⟨x, memx, rfl⟩ := List.mem_map.mp memq
    exact wf.owner h mem x memx same w memw
  · intro w mem
    obtain ⟨bal, derived, cash, bonus⟩ := solvent w mem
    obtain ⟨_, cashAvailable, bonusAvailable⟩ := deriveWalletBalance_ok derived
    exact ⟨by omega, by omega⟩

theorem WalletBook.Covered.solvent {db : Db} (c : db.book.Covered charges) : db.Solvent := by
  intro w mem
  obtain ⟨cash, bonus⟩ := c.covers w mem
  have valid := c.currencies w mem
  refine ⟨_, by simp only [deriveWalletBalance, newMoney, valid]; rfl, ?_, ?_⟩
  · dsimp only
    omega
  · dsimp only
    omega

theorem WalletCall.safe {db : Db} {calls : ι → WalletCall} (within : ChargesWithinHolds db calls)
    (i : ι) : (calls i).proc.Meets (walletDiscipline (Settles calls)).contract noTerms (fun _ => True) []
      id := by
  cases call : calls i with
  | reserve cmd holdId reservationId =>
    exact Txn.Runs.inTx (reserveWallet cmd holdId reservationId) (fun _ => .done ())
      (fun _ => trivial) (reserveWallet_runs (within.taken i cmd holdId reservationId call))
  | settle cmd now =>
    exact Txn.Runs.inTx (Postgres.settle cmd now) (fun _ => .done ()) (fun _ => trivial)
      (settle_runs ⟨i, cmd, now, call, rfl, rfl⟩)
  | release requestId fromReconciliation =>
    exact Txn.Runs.inTx (releaseLocked requestId fromReconciliation) (fun _ => .done ())
      (fun _ => trivial) releaseLocked_runs

/-- From a solvent state every schedule of wallet transactions, with any number of sessions and
any of them killed, leaves a solvent state after every step. -/
theorem wallet_never_overfrozen [DecidableEq ι] (db : Db) (calls : ι → WalletCall)
    (wellFormed : db.WalletsWellFormed) (within : ChargesWithinHolds db calls)
    (solvent : db.Solvent) (schedule : List (Action ι Empty)) (c : Config Db LockKey String Unit ι)
    (ran : (Config.start db (fun i => (calls i).proc)).run (·.elim) schedule = some c) :
    c.db.Solvent := by
  have covered := Config.inv_run (fun _ _ _ _ => trivial)
    (wellFormed.covered solvent within.stored) (·.elim) (WalletCall.safe within)
    ((Config.along_true schedule).mono fun c a _ => Discipline.ready _ c a) ran
  exact WalletBook.Covered.solvent covered

def frozenDb : Db :=
  { accounts := [⟨1, .active⟩], entitlementIds := [2], attempts := [⟨30, 9, 1, .completed, "", none⟩]
    wallets := [⟨4, 1, "CNY", true, some 1000⟩]
    walletEntries := [⟨0, 4, .topup, .credit, .cash, 100, "CNY", none, none, .topup 77, 0⟩]
    walletHolds := [⟨50, 4, 9, 40, 40, 0, .held⟩]
    reservations := [⟨60, 9, .wallet, none, none, 40, .held⟩]
    requests := [frozenRequest 9] }
where
  frozenRequest (id : Uuid) : Request :=
    { id := id, billingAccountId := 1, apiKeyId := none, entitlementId := 2, policyVersionId := 5
      priceVersionId := some 6, status := .reserved, admittedAt := none, windowFiveHourId := none
      windowWeeklyId := none, windowMonthlyId := none, reservedMicros := some 40
      settledMicros := none, chargeSource := .wallet, usageStatus := .pending, lastError := ""
      completedAt := none }

def frozenCalls : Bool → WalletCall
  | true => .reserve
      { request := frozenDb.frozenRequest 3, walletId := 4, holdMicros := 60
        priceVersionId := some 6, admittedAt := 1, monthStart := 0, monthEnd := 10 } 51 61
  | false => .settle
      { requestId := 9, usage := ⟨9, 30, .reported, 1⟩, chargeMicros := 30
        walletCharge := some ⟨30, "CNY"⟩, attemptId := none, attemptCost := none
        costBasis := none, settledAt := 2 } 2

def frozenSchedule : List (Action Bool Empty) :=
  List.replicate 2 (.step false) ++ List.replicate 9 (.step true) ++
    List.replicate 7 (.step false)

theorem wallet_never_overfrozen_interleaved :
    ((Config.start frozenDb (fun i => (frozenCalls i).proc)).run (·.elim)
      frozenSchedule).map (fun c => c.db.book.sums 4) = some ⟨100, 30, 0, 0, 60, 0⟩ ∧
    ∀ c, (Config.start frozenDb (fun i => (frozenCalls i).proc)).run (·.elim)
      frozenSchedule = some c → c.db.Solvent := by
  refine ⟨by decide, fun c => wallet_never_overfrozen frozenDb frozenCalls ?_ ?_ ?_ _ c⟩
  · refine ⟨by decide, by decide, by decide, by decide, by decide, by decide, by decide⟩
  · refine ⟨?_, ?_⟩
    · rintro h mem charge ⟨i, cmd, now, call, _, rfl⟩
      cases List.mem_singleton.mp mem
      cases i <;> cases call
      decide
    · rintro i cmd holdId reservationId call charge ⟨j, settled, now, call', same, rfl⟩
      cases i <;> cases call
      cases j <;> cases call'
      cases same
  · intro w mem
    cases List.mem_singleton.mp mem
    exact ⟨_, rfl, by decide, by decide⟩

end YunhouUsers.Inference.Postgres
