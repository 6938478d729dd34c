import YunhouUsers.Inference.WalletSafety.Balance

/-!
The monthly spend gate of wallet admissions.
-/

namespace YunhouUsers.Inference.Postgres

open ReadCommitted Table Accounting

def Db.netSpend (db : Db) (w : Uuid) (start stop : Int) : Int :=
  total (spendOf db.walletEntries) (db.walletEntries.filter fun e =>
    e.walletId = w && start ≤ e.createdAt && e.createdAt < stop)

def Db.monthFigure (db : Db) (cmd : ReserveWalletCommand) : Int :=
  db.netSpend cmd.walletId cmd.monthStart cmd.monthEnd + db.heldCash cmd.walletId +
    db.heldBonus cmd.walletId

def Db.available (db : Db) (w : Uuid) : Int :=
  db.entrySum w .cash .credit - db.entrySum w .cash .debit - db.heldCash w +
    (db.entrySum w .bonus .credit - db.entrySum w .bonus .debit - db.heldBonus w)

/-- Nothing but the spend limit `limit` stands in the way of the hold. -/
structure Funded (db : Db) (cmd : ReserveWalletCommand) (holdId reservationId : Uuid) (limit : Int) :
    Prop where
  hold : 0 ≤ cmd.holdMicros
  account : ∃ a, db.findAccount cmd.request.billingAccountId = some a ∧ a.status = .active
  wallet : ∃ w, db.findWallet cmd.walletId = some w ∧
    w.billingAccountId = cmd.request.billingAccountId ∧ validCurrency w.currency = true ∧
    w.overageEnabled = true ∧ w.monthlySpendLimit = some limit
  limit : 0 ≤ limit
  balance : 0 < cmd.holdMicros → cmd.holdMicros ≤ db.available cmd.walletId
  /-- The sums are `int64` values. -/
  fits : db.available cmd.walletId < 2 ^ 63 ∧ db.monthFigure cmd + cmd.holdMicros < 2 ^ 63
  priced : cmd.priceVersionId.isSome = true
  request : requestViolation (walletRequest cmd) db = none
  holds : ∀ h ∈ db.walletHolds, h.id ≠ holdId ∧ h.requestId ≠ cmd.request.id
  reservations : ∀ r ∈ db.reservations, r.id ≠ reservationId ∧ r.requestId ≠ cmd.request.id

theorem checkWalletSpend_enabled {limit hold : Int} (nonneg : 0 ≤ limit) (positive : 0 ≤ hold)
    {spent : Int} (fits : spent + hold < 2 ^ 63) :
    checkWalletSpend ⟨true, some limit⟩ spent hold =
      if spent < 0 then .error (.domain .invalidInput "accounting: negative spend figure")
      else if spent + hold > limit then
        .error (.domain .quotaExceeded "accounting: monthly spend limit would be exceeded")
      else .ok () := by
  have valid : (OverageSettings.validate ⟨true, some limit⟩) = .ok () := by
    simp [OverageSettings.validate, Int.not_lt.mpr nonneg]
  unfold checkWalletSpend
  rw [valid]
  by_cases negative : spent < 0
  · simp [negative, Int.not_lt.mpr positive, bind, Except.bind]
  · have sum : (spent + hold).bmod 18446744073709551616 = spent + hold := bmod_fits (by omega) fits
    by_cases over_ : spent + hold > limit
    · simp [negative, sum, over_, Int.not_lt.mpr positive, bind, Except.bind]
    · simp [negative, sum, over_, Int.not_lt.mpr positive, bind, Except.bind, pure, Except.pure]

variable {db : Db} {cmd : ReserveWalletCommand} {holdId reservationId : Uuid} {limit : Int}

def insertFrozen (cmd : ReserveWalletCommand) (holdId reservationId : Uuid) (split : Int × Int) :
    Tx Uuid := do
  insertRequest (walletRequest cmd)
  insertWalletHold
    { id := holdId, walletId := cmd.walletId, requestId := cmd.request.id
      amount := cmd.holdMicros, cash := split.1, bonus := split.2, state := .held }
    cmd.priceVersionId
  insertReservation "reserve wallet: reservation"
    { id := reservationId, requestId := cmd.request.id, targetKind := .wallet, windowId := none
      apiKeyId := none, amount := cmd.holdMicros, state := .held }
  pure cmd.request.id

theorem Funded.insertFrozen_eval (funded : Funded db cmd holdId reservationId limit)
    {split : Int × Int} (cash : 0 ≤ split.1) (bonus : 0 ≤ split.2)
    (sum : split.1 + split.2 = cmd.holdMicros) :
    ∃ db', (insertFrozen cmd holdId reservationId split).eval db = .ok (cmd.request.id, db') := by
  obtain ⟨price, priced⟩ := Option.isSome_iff_exists.mp funded.priced
  obtain ⟨w, found, -⟩ := funded.wallet
  have amount := funded.hold
  let hold : WalletHold :=
    ⟨holdId, cmd.walletId, cmd.request.id, cmd.holdMicros, split.1, split.2, .held⟩
  let row : Reservation :=
    ⟨reservationId, cmd.request.id, .wallet, none, none, cmd.holdMicros, .held⟩
  let db₁ : Db := { db with requests := db.requests ++ [insertedRequest (walletRequest cmd)] }
  let db₂ : Db := { db₁ with walletHolds := db₁.walletHolds ++ [hold] }
  let db₃ : Db := { db₂ with reservations := db₂.reservations ++ [row] }
  have known : db₁.requests.any (·.id = cmd.request.id) = true := by
    simp [db₁, insertedRequest, walletRequest]
  have first : (insertRequest (walletRequest cmd)).eval db = .ok ((), db₁) :=
    insertRow_ok.mpr ⟨funded.request, rfl⟩
  have second : (insertWalletHold hold cmd.priceVersionId).eval db₁ = .ok ((), db₂) := by
    refine insertRow_ok.mpr ⟨?_, rfl⟩
    have ids : db₁.walletHolds.any (·.id = holdId) = false := by
      simpa using fun x mem => (funded.holds x mem).1
    have requests : db₁.walletHolds.any (·.requestId = cmd.request.id) = false := by
      simpa using fun x mem => (funded.holds x mem).2
    have wallets : db₁.wallets.any (·.id = cmd.walletId) = true :=
      List.any_eq_true.mpr ⟨w, (find_key found).1, by simpa using (find_key found).2⟩
    simp [holdViolation, priced, hold, Int.not_lt.mpr amount, Int.not_lt.mpr cash,
      Int.not_lt.mpr bonus, sum, ids, requests, wallets, known]
  have third : (insertReservation "reserve wallet: reservation" row).eval db₂ = .ok ((), db₃) := by
    refine insertRow_ok.mpr ⟨?_, rfl⟩
    have ids : db₂.reservations.any (·.id = reservationId) = false := by
      simpa using fun x mem => (funded.reservations x mem).1
    have requests : db₂.reservations.any (fun x =>
        x.requestId = cmd.request.id && x.targetKind = .wallet) = false := by
      rw [List.any_eq_false]
      intro x mem
      simp [(funded.reservations x mem).2]
    have known₂ : db₂.requests.any (·.id = cmd.request.id) = true := known
    simp [reservationViolation, targetRefsOk, missing, row, Int.not_lt.mpr amount, ids, requests,
      known₂]
  exact ⟨db₃, (Txn.eval_bind_of_ok first).trans
    ((Txn.eval_bind_of_ok second).trans (Txn.eval_bind_of_ok third))⟩

theorem Funded.gate_eval (funded : Funded db cmd holdId reservationId limit) :
    ∃ currency, validCurrency currency = true ∧
      (reserveWallet cmd holdId reservationId).eval db =
      (check (checkWalletSpend ⟨true, some limit⟩ (db.monthFigure cmd) cmd.holdMicros) >>=
        fun _ => check (deriveWalletBalance currency (db.book.sums cmd.walletId)) >>= fun bal =>
        check (if cmd.holdMicros > 0 then
          splitFreeze bal.bonusAvailable bal.cashAvailable cmd.holdMicros else .ok (0, 0)) >>=
        fun split => insertFrozen cmd holdId reservationId split).eval db := by
  obtain ⟨w, found, owner, valid, enabled, isLimit⟩ := funded.wallet
  have settings : Wallet.settings w = ⟨true, some limit⟩ := by
    simp [Wallet.settings, enabled, isLimit]
  have locked : (lockWalletTx cmd.walletId).eval db = .ok (w, db) :=
    selectForUpdate_ok.mpr ⟨w, found, rfl⟩
  refine ⟨w.currency, valid, ?_⟩
  unfold reserveWallet
  rw [Txn.eval_bind_of_ok ((Txn.eval_require_ok _ _ _ _).mpr ⟨by simpa using funded.hold, rfl⟩),
    Txn.eval_bind_of_ok (lockAccountTx_ok.mpr ⟨funded.account, rfl⟩), Txn.eval_bind_of_ok locked,
    Txn.eval_bind_of_ok ((Txn.eval_require_ok _ _ _ _).mpr ⟨by simpa using owner, rfl⟩),
    Txn.eval_bind_of_ok (walletSumsLocked_eval w.id db), monthSpendLocked, Txn.eval_query_bind,
    settings, (find_key found).2]
  rfl

theorem Funded.splits (funded : Funded db cmd holdId reservationId limit) {currency : String}
    (valid : validCurrency currency = true) :
    ∃ bal split, deriveWalletBalance currency (db.book.sums cmd.walletId) = .ok bal ∧
      (if cmd.holdMicros > 0 then
        splitFreeze bal.bonusAvailable bal.cashAvailable cmd.holdMicros else .ok (0, 0)) =
          .ok split ∧ 0 ≤ split.1 ∧ 0 ≤ split.2 ∧ split.1 + split.2 = cmd.holdMicros := by
  obtain ⟨bal, derived⟩ : ∃ bal,
      deriveWalletBalance currency (db.book.sums cmd.walletId) = .ok bal :=
    ⟨_, deriveWalletBalance_valid valid _⟩
  obtain ⟨-, cash, bonus⟩ := deriveWalletBalance_ok derived
  by_cases positive : cmd.holdMicros > 0
  · have enough := funded.balance positive
    have sum : bal.bonusAvailable + bal.cashAvailable = db.available cmd.walletId := by
      rw [bonus, cash, Int.add_comm]
      rfl
    have frozen : splitFreeze bal.bonusAvailable bal.cashAvailable cmd.holdMicros =
        .ok (cmd.holdMicros - min cmd.holdMicros (max bal.bonusAvailable 0),
          min cmd.holdMicros (max bal.bonusAvailable 0)) := by
      unfold splitFreeze
      rw [sum, bmod_fits (by omega) funded.fits.1, if_neg (by omega), if_neg (by omega)]
    obtain ⟨cash, bonus, sum, -⟩ := splitFreeze_parts (by omega) frozen
    exact ⟨bal, _, derived, (if_pos positive).trans frozen, cash, bonus, sum⟩
  · have zero : cmd.holdMicros = 0 := by
      have := funded.hold
      omega
    exact ⟨bal, (0, 0), derived, if_neg positive, le_refl 0, le_refl 0, zero.symm⟩

theorem Funded.reserve_eval (funded : Funded db cmd holdId reservationId limit) :
    (checkWalletSpend ⟨true, some limit⟩ (db.monthFigure cmd) cmd.holdMicros = .ok () →
      ∃ r, (reserveWallet cmd holdId reservationId).eval db = .ok r) ∧
    ∀ e, checkWalletSpend ⟨true, some limit⟩ (db.monthFigure cmd) cmd.holdMicros = .error e →
      (reserveWallet cmd holdId reservationId).eval db = .error e := by
  obtain ⟨currency, valid, gate⟩ := funded.gate_eval
  rw [gate]
  constructor
  · intro passed
    obtain ⟨bal, split, derived, frozen, cash, bonus, sum⟩ := funded.splits valid
    obtain ⟨db', inserted⟩ := funded.insertFrozen_eval cash bonus sum
    refine ⟨(cmd.request.id, db'), ?_⟩
    rw [passed, Txn.eval_bind_of_ok rfl, derived, Txn.eval_bind_of_ok rfl, frozen, Txn.eval_bind_of_ok rfl]
    exact inserted
  · intro e failed
    rw [failed]
    rfl

/-- The limit decides alone, and no hold is called malformed, exactly when the month's figure is
not negative. -/
theorem spend_gate_total_iff (funded : Funded db cmd holdId reservationId limit) :
    (((∃ r, (reserveWallet cmd holdId reservationId).eval db = .ok r) ↔
        db.monthFigure cmd + cmd.holdMicros ≤ limit) ∧
      ∀ message, (reserveWallet cmd holdId reservationId).eval db ≠
        .error (.domain .invalidInput message)) ↔
      0 ≤ db.monthFigure cmd := by
  obtain ⟨passes, fails⟩ := funded.reserve_eval
  rw [checkWalletSpend_enabled funded.limit funded.hold funded.fits.2] at passes fails
  constructor
  · rintro ⟨-, never⟩
    by_contra negative
    exact never _ (fails _ (if_pos (Int.not_le.mp negative)))
  · intro nonneg
    have notNegative : ¬ db.monthFigure cmd < 0 := Int.not_lt.mpr nonneg
    rw [if_neg notNegative] at passes fails
    by_cases over_ : db.monthFigure cmd + cmd.holdMicros > limit
    · have failed := fails _ (if_pos over_)
      rw [failed]
      refine ⟨⟨?_, fun within => absurd over_ (Int.not_lt.mpr within)⟩, by simp⟩
      rintro ⟨r, ok⟩
      cases ok
    · obtain ⟨r, ok⟩ := passes (if_neg over_)
      rw [ok]
      exact ⟨⟨fun _ => Int.not_lt.mp over_, fun _ => ⟨r, rfl⟩⟩, by simp⟩

def emptyWalletDb : Db :=
  { accounts := [⟨1, .active⟩], entitlementIds := [2], wallets := [⟨4, 1, "CNY", true, some 1000⟩] }

def firstMonth : List WalletOp :=
  [.topup ⟨1, "CNY", 100, 77⟩ 5 0, .hold (.freeze (freezeIn 0 7) 57 67),
    .hold (.settle 7 ⟨40, "CNY"⟩ 2)]

theorem spend_gate_second_hold :
    ((∃ r, (reserveWallet (freezeIn 0 8) 58 68).eval (playOps firstMonth emptyWalletDb) = .ok r) ↔
        (playOps firstMonth emptyWalletDb).monthFigure (freezeIn 0 8) + 40 ≤ 1000) ∧
      ∀ message, (reserveWallet (freezeIn 0 8) 58 68).eval (playOps firstMonth emptyWalletDb) ≠
        .error (.domain .invalidInput message) := by
  refine (spend_gate_total_iff ⟨?_, ?_, ?_, ?_, ?_, ?_, ?_, ?_, ?_, ?_⟩).mpr (by decide +kernel)
  · decide
  · exact ⟨⟨1, .active⟩, by decide +kernel, rfl⟩
  · exact ⟨⟨4, 1, "CNY", true, some 1000⟩, by decide +kernel, rfl, by decide +kernel, rfl, rfl⟩
  · decide
  · exact fun _ => by decide +kernel
  · decide +kernel
  · rfl
  · decide +kernel
  · decide +kernel
  · decide +kernel

/-- The consumption is reversed in the second month, whose figure is then -40: a hold of 40 that
the balance of 100 covers is refused as malformed. -/
theorem spend_gate_negative_month :
    let db := playOps (firstMonth ++ [.reverse 1 1 12]) emptyWalletDb
    db.monthFigure (freezeIn 10 8) = -40 ∧ db.monthFigure (freezeIn 10 8) + 40 ≤ 1000 ∧
      deriveWalletBalance "CNY" (db.book.sums 4) = .ok ⟨"CNY", 100, 0, 0, 0⟩ ∧
      (reserveWallet (freezeIn 10 8) 58 68).eval db =
        .error (.domain .invalidInput "accounting: negative spend figure") := by
  decide +kernel

end YunhouUsers.Inference.Postgres
