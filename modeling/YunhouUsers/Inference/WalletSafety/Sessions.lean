import YunhouUsers.Inference.WalletSafety.Book

/-!
Wallet admissions, settlements and releases, statement by statement.

An admission holds the account row `FOR UPDATE` from before its two sums to its commit.  A
release takes the same lock; a settlement takes only the `KEY SHARE` of its ledger entry's
foreign key, and that is enough to keep its commit out of the middle of an admission.
-/

namespace YunhouUsers.Inference.Postgres

open ReadCommitted Table Accounting

variable {requestId : Uuid}

def walletDiscipline (charges : Uuid → Int → Prop) : Discipline Db LockKey where
  inv db := db.book.Covered charges
  guarantee held db db' := WalletBook.Moves held db.book db'.book
  idle held db := .refl held db.book

section Stability

variable {charges : Uuid → Int → Prop} {held : List (LockKey × LockMode)}

theorem stable_wallet (w : Wallet) :
    (walletDiscipline charges).Stable held (fun db => w ∈ db.book.wallets) := by
  intro other db db' _ _ _ moves mem
  rw [moves.wallets]
  exact mem

theorem stable_owner (q : Uuid × Uuid) :
    (walletDiscipline charges).Stable held (fun db => q ∈ db.book.owners) :=
  fun _ _ _ _ _ _ moves mem => moves.owners q mem

theorem stable_sums {w : Wallet} (locked : (.account w.billingAccountId, .update) ∈ held)
    (s : WalletSums) :
    (walletDiscipline charges).Stable held
      (fun db => w ∈ db.book.wallets ∧ db.book.sums w.id = s) := by
  intro other db db' compatible _ _ moves ⟨mem, same⟩
  refine ⟨moves.wallets ▸ mem, ?_⟩
  rw [moves.sums w mem fun m => compatible.not_mem locked (by simp)]
  exact same

theorem stable_freshOwner {id : Uuid}
    (locked : (.index "inference_requests_pkey" [id], .update) ∈ held) :
    (walletDiscipline charges).Stable held (fun db => ∀ q ∈ db.book.owners, q.1 ≠ id) := by
  intro other db db' compatible _ _ moves fresh q mem same
  rcases moves.newOwners q mem with old | new
  · exact fresh q old same
  · rw [same] at new
    exact compatible.not_mem locked (by simp) new

theorem stable_freshHold {id : Uuid}
    (lockedId : (.index "inference_wallet_holds_pkey" [id], .update) ∈ held)
    (lockedRequest : (.index "inference_wallet_holds_request_id_key" [requestId], .update) ∈ held) :
    (walletDiscipline charges).Stable held
      (fun db => ∀ h ∈ db.book.holds, h.id ≠ id ∧ h.requestId ≠ requestId) := by
  intro other db db' compatible _ _ moves fresh h mem
  rcases moves.newHolds h mem with ⟨h₀, mem₀, sameId, sameRequest⟩ | ⟨newId, newRequest⟩
  · rw [← sameId, ← sameRequest]
    exact fresh h₀ mem₀
  · refine ⟨fun same => ?_, fun same => ?_⟩
    · rw [same] at newId
      exact compatible.not_mem lockedId (by simp) newId
    · rw [same] at newRequest
      exact compatible.not_mem lockedRequest (by simp) newRequest

theorem stable_hold {h : WalletHold} {m : LockMode} (locked : (.walletHold h.id, m) ∈ held)
    (strong : m.conflicts .noKeyUpdate = true) :
    (walletDiscipline charges).Stable held (fun db => h ∈ db.book.holds) :=
  fun _ _ _ compatible _ _ moves mem => moves.holds h mem (compatible.not_mem locked strong)

end Stability

section Reserve

variable {charges : Uuid → Int → Prop} {held : List (LockKey × LockMode)}

theorem stable_admission {w : Wallet} {s : WalletSums} {holdId : Uuid}
    (account : (.account w.billingAccountId, .update) ∈ held)
    (request : (.index "inference_requests_pkey" [requestId], .update) ∈ held)
    (hold : (.index "inference_wallet_holds_pkey" [holdId], .update) ∈ held)
    (holdRequest : (.index "inference_wallet_holds_request_id_key" [requestId], .update) ∈ held) :
    (walletDiscipline charges).Stable held (fun db =>
      ((w ∈ db.book.wallets ∧ db.book.sums w.id = s) ∧ ∀ q ∈ db.book.owners, q.1 ≠ requestId) ∧
        ∀ h ∈ db.book.holds, h.id ≠ holdId ∧ h.requestId ≠ requestId) :=
  ((stable_sums account s).and (stable_freshOwner request)).and (stable_freshHold hold holdRequest)

theorem walletSumsLocked_runs {w : Wallet}
    (locked : (.account w.billingAccountId, .update) ∈ held)
    {post : Post Db LockKey WalletSums}
    (h : ∀ s, post s (fun db => w ∈ db.book.wallets ∧ db.book.sums w.id = s) held id) :
    (walletSumsLocked w.id).Runs (walletDiscipline charges) (fun db => w ∈ db.book.wallets) held
      id post := by
  refine .bind (.query fun db _ mem => ⟨_, ⟨mem, rfl⟩, stable_sums locked _, ?_⟩)
  refine .bind (.query fun db' _ known => ⟨_, known, stable_sums locked _, ?_⟩)
  have heldCash : db'.heldCash w.id = db.heldCash w.id :=
    congrArg WalletSums.heldCash known.2
  have heldBonus : db'.heldBonus w.id = db.heldBonus w.id :=
    congrArg WalletSums.heldBonus known.2
  simp only [id_eq, heldCash, heldBonus]
  exact .pure (h (db.book.sums w.id))

theorem holdViolation_none {h : WalletHold} {db : Db} (ok : holdViolation h db = none) :
    (0 ≤ h.cash ∧ 0 ≤ h.bonus ∧ h.cash + h.bonus = h.amount) ∧
      ∀ x ∈ db.walletHolds, x.id ≠ h.id ∧ x.requestId ≠ h.requestId := by
  unfold holdViolation at ok
  split_ifs at ok with _ cash bonus sum id request
  simp only [List.any_eq_true, decide_eq_true_eq] at id request
  exact ⟨⟨by omega, by omega, by omega⟩,
    fun x mem => ⟨fun same => id ⟨x, mem, same⟩, fun same => request ⟨x, mem, same⟩⟩⟩

theorem frozen_within {currency : String} {s : WalletSums} {bal : WalletBalance} {amount : Int}
    {split : Int × Int} (derived : deriveWalletBalance currency s = .ok bal)
    (frozen : (if amount > 0 then splitFreeze bal.bonusAvailable bal.cashAvailable amount
      else .ok (0, 0)) = .ok split) (covers : WalletBook.Covers s) :
    s.heldCash + split.1 ≤ s.cashCredit - s.cashDebit ∧
      s.heldBonus + split.2 ≤ s.bonusCredit - s.bonusDebit := by
  obtain ⟨_, cashAvailable, bonusAvailable⟩ := deriveWalletBalance_ok derived
  obtain ⟨cash, bonus⟩ := covers
  split_ifs at frozen
  · have := splitFreeze_within frozen (by omega) (by omega)
    omega
  · cases frozen
    simpa using ⟨cash, bonus⟩

theorem reserveWallet_runs {cmd : ReserveWalletCommand} {holdId reservationId : Uuid}
    (charged : ∀ c, charges cmd.request.id c → c ≤ cmd.holdMicros) :
    (reserveWallet cmd holdId reservationId).Runs (walletDiscipline charges) (fun _ => True) [] id
      (fun _ K held pending => ∀ db, (walletDiscipline charges).inv db → K db →
        (walletDiscipline charges).inv (pending db) ∧
          (walletDiscipline charges).guarantee held db (pending db)) := by
  refine .bind (.require fun _ => .bind (lockAccountTx_runs (Discipline.stable_true _ _)
    fun _ => .bind (selectForUpdate_runs fun db wallet _ _ found => ?_)))
  obtain ⟨mem, ofWallet⟩ := find_key found
  refine ⟨_, mem, stable_wallet wallet, .bind (.require fun ofAccount => ?_)⟩
  rw [decide_eq_true_eq] at ofAccount
  refine .bind (walletSumsLocked_runs (by simp [ofAccount]) fun s => ?_)
  refine .bind (.query fun _ _ known => ⟨_, known, stable_sums (by simp [ofAccount]) s, ?_⟩)
  refine .bind (check_runs fun _ _ => .bind (check_runs fun bal derived =>
    .bind (check_runs fun split frozen => ?_)))
  -- the request takes its slot in the primary key, the hold its slots in both unique keys
  refine .bind (insertRow_runs fun db _ known ok => ?_)
  have freshOwner : ∀ q ∈ db.book.owners, q.1 ≠ cmd.request.id := by
    intro q mem
    obtain ⟨x, memx, rfl⟩ := List.mem_map.mp mem
    exact requestViolation_none ok x memx
  refine ⟨_, ⟨known, freshOwner⟩, (stable_sums (by simp [ofAccount]) s).and
    (stable_freshOwner (by simp [walletRequest])), ?_⟩
  refine .bind (insertRow_runs fun db _ known ok => ?_)
  split_ifs at ok
  obtain ⟨parts, freshHold⟩ := holdViolation_none ok
  refine ⟨_, ⟨known, freshHold⟩, stable_admission (by simp [ofAccount]) (by simp [walletRequest])
    (by simp) (by simp), ?_⟩
  refine .bind ((insertReservation_keeps book_aside.toBeside _ _).runs (stable_admission
    (by simp [ofAccount]) (by simp [walletRequest]) (by simp) (by simp))
    fun _ held pending more _ same => .pure ?_)
  intro db inv ⟨⟨⟨mem, sums⟩, freshOwner⟩, freshHold⟩
  have effect : (pending db).book = db.book.admitHold (cmd.request.id, cmd.request.billingAccountId)
      { id := holdId, walletId := wallet.id, requestId := cmd.request.id
        amount := cmd.holdMicros, cash := split.1, bonus := split.2, state := .held } := by
    rw [same db]
    simp [Db.book, WalletBook.admitHold, insertedRequest, walletRequest]
  have within := frozen_within derived frozen (sums ▸ inv.covers wallet mem)
  rw [← sums] at within
  refine ⟨?_, ?_⟩
  · show (pending db).book.Covered charges
    rw [effect]
    exact inv.admitHold mem rfl rfl ofAccount freshOwner (fun x hx => (freshHold x hx).1)
      (fun x hx => (freshHold x hx).2) parts charged within
  · show WalletBook.Moves held db.book (pending db).book
    rw [effect]
    exact .admitHold mem rfl inv ofAccount ⟨.update, more (by simp)⟩ (more (by simp [walletRequest]))
      (more (by simp)) (more (by simp))

variable {post : Post Db LockKey Unit}

end Reserve

section Release

def heldHold (requestId : Uuid) (h : WalletHold) : Bool :=
  h.requestId = requestId && h.state = .held

structure Releasing (charges : Uuid → Int → Prop) (requestId account : Uuid) (K : Db → Prop)
    (held : List (LockKey × LockMode)) (pending : Db → Db) : Prop where
  locked : (.account account, .update) ∈ held
  stable : (walletDiscipline charges).Stable held K
  owner : ∀ db, K db → (requestId, account) ∈ db.book.owners
  effect : (∀ db, (pending db).book = db.book) ∨
    (∀ db, (pending db).book = db.book.close (heldHold requestId) .released []) ∧
      ∃ h : WalletHold, h.requestId = requestId ∧ (.walletHold h.id, .noKeyUpdate) ∈ held ∧
        ∀ db, K db → h ∈ db.book.holds

variable {charges : Uuid → Int → Prop} {requestId account : Uuid} {K : Db → Prop}
  {held : List (LockKey × LockMode)} {pending : Db → Db}

theorem Releasing.frame {α : Type} {t : Tx α}
    {post : Post Db LockKey α}
    (r : Releasing charges requestId account K held pending) (keeps : t.Keeps Db.book)
    (h : ∀ a held pending, Releasing charges requestId account K held pending →
      post a K held pending) : t.Runs (walletDiscipline charges) K held pending post := by
  refine keeps.runs r.stable fun a held' pending' more stable same => h a held' pending' ?_
  refine ⟨more r.locked, stable, r.owner, ?_⟩
  rcases r.effect with none | ⟨closed, x, request, lock, known⟩
  · exact .inl fun db => (same db).trans (none db)
  · exact .inr ⟨fun db => (same db).trans (closed db), x, request, more lock, known⟩

theorem releaseWalletLocked_runs (r : Releasing charges requestId account K held pending)
    (h : ∀ K held pending, Releasing charges requestId account K held pending →
      post () K held pending) :
    (releaseWalletLocked requestId).Runs (walletDiscipline charges) K held pending post := by
  refine .exec fun db _ _ known outcome => ?_
  split_ifs at outcome with hit
  obtain ⟨x, mem, isHeld⟩ := List.any_eq_true.mp hit
  rcases r.effect with none | ⟨closed, _⟩
  · have mem₀ : x ∈ db.book.holds := by
      have : x ∈ (pending db).book.holds := mem
      rwa [none db] at this
    have lock : (LockKey.walletHold x.id, LockMode.noKeyUpdate) ∈
        ((pending db).walletHolds.filter (heldHold requestId)).map
          (fun h => (LockKey.walletHold h.id, LockMode.noKeyUpdate)) ++ held :=
      List.mem_append_left _ (List.mem_map.mpr ⟨x, List.mem_filter.mpr ⟨mem, isHeld⟩, rfl⟩)
    have locked : (walletDiscipline charges).Stable _ (fun db => x ∈ db.book.holds) :=
      stable_hold lock rfl
    have stable := (r.stable.append _).and locked
    refine ⟨_, ⟨known, mem₀⟩, stable, h _ _ _
      ⟨List.mem_append_right _ r.locked, stable, fun db k => r.owner db k.1, .inr ⟨?_, x, ?_, lock,
        fun db k => k.2⟩⟩⟩
    · intro db
      rw [← none db]
      simp [Db.book, WalletBook.close]
      rfl
    · simp only [Bool.and_eq_true, decide_eq_true_eq] at isHeld
      exact isHeld.1
  · -- a closed hold is no longer held, so a second pass would have failed
    have mem₀ : x ∈ (db.book.close (heldHold requestId) .released []).holds := by
      rw [← closed db]
      exact mem
    obtain ⟨y, _, rfl⟩ := mem_updateWhere.mp mem₀
    split at isHeld
    · simp at isHeld
    · rename_i open_
      exact absurd isHeld open_

theorem releaseTarget_runs {row : Reservation}
    (r : Releasing charges requestId account K held pending)
    (h : ∀ K held pending, Releasing charges requestId account K held pending →
      post () K held pending) :
    (releaseTarget requestId row).Runs (walletDiscipline charges) K held pending post := by
  unfold releaseTarget
  split
  · split
    · exact .throw _
    · exact r.frame (updateRow_keeps fun _ => rfl) fun _ held pending r => h K held pending r
  · exact releaseWalletLocked_runs r h
  · split
    · exact .throw _
    · exact r.frame (updateRow_keeps fun _ => rfl) fun _ held pending r => h K held pending r

theorem releaseRows_runs {rows : List Reservation} {five : Option Uuid}
    {post : Post Db LockKey (Option Uuid)}
    (r : Releasing charges requestId account K held pending)
    (h : ∀ five K held pending, Releasing charges requestId account K held pending →
      post five K held pending) :
    (releaseRows requestId rows five).Runs (walletDiscipline charges) K held pending post := by
  induction rows generalizing K held pending five with
  | nil => exact .pure (h five K held pending r)
  | cons row rows ih =>
    refine .bind (releaseTarget_runs r fun K held pending r => ?_)
    exact .bind (r.frame (moveReservation_keeps book_aside.toBeside _ _ _ _) fun _ held pending r => ih r)

theorem Releasing.commit (r : Releasing charges requestId account K held pending) (db : Db)
    (inv : db.book.Covered charges) (known : K db) :
    (pending db).book.Covered charges ∧ WalletBook.Moves held db.book (pending db).book := by
  rcases r.effect with none | ⟨closed, h, request, lock, holds⟩
  · rw [none db]
    exact ⟨inv, .refl held db.book⟩
  · rw [closed db]
    refine ⟨inv.release (by decide), .close ?_ ?_ (by simp)⟩
    · intro x mem hit
      simp only [heldHold, Bool.and_eq_true, decide_eq_true_eq] at hit
      rw [eq_of_key inv.holdRequests mem (holds db known) (hit.1.trans request.symm)]
      exact lock
    · intro x mem hit w memw ofx
      simp only [heldHold, Bool.and_eq_true, decide_eq_true_eq] at hit
      rw [inv.owner x mem _ (r.owner db known) hit.1.symm w memw ofx]
      exact ⟨.update, r.locked⟩

theorem releaseLocked_runs {fromReconciliation : Bool} :
    (releaseLocked requestId fromReconciliation).Runs (walletDiscipline charges) (fun _ => True) []
      id (fun _ K held pending => ∀ db, (walletDiscipline charges).inv db → K db →
        (walletDiscipline charges).inv (pending db) ∧
          (walletDiscipline charges).guarantee held db (pending db)) := by
  refine .bind (selectOne_runs fun db q _ _ found => ?_)
  obtain ⟨mem, same⟩ := find_key found
  have owner : (requestId, q.billingAccountId) ∈ db.book.owners :=
    List.mem_map.mpr ⟨q, mem, by rw [same]⟩
  refine ⟨_, owner, stable_owner _, .bind (lockAccountTx_runs (stable_owner _) fun stable => ?_)⟩
  have r : Releasing charges requestId q.billingAccountId
      (fun db => (requestId, q.billingAccountId) ∈ db.book.owners)
      [(.account q.billingAccountId, .update)] id :=
    ⟨by simp, stable, fun _ k => k, .inl fun _ => rfl⟩
  refine .bind (r.frame (selectForUpdate_keeps _ _ _) fun _ _ _ r => ?_)
  refine .bind (.require fun _ => .bind (.require fun _ => ?_))
  refine .bind (r.frame (.query _ _) fun rows _ _ r => .bind (.require fun _ => ?_))
  refine .bind (releaseRows_runs r fun five _ _ _ r => ?_)
  refine .bind (r.frame (voidReleased_keeps book_aside.toBeside five) fun _ _ _ r => ?_)
  refine .bind (r.frame (.when (resolveJobs_keeps book_aside _ _ _)) fun _ _ _ r => ?_)
  exact r.frame (updateRequestStatus_keeps book_aside _ _ _) fun _ _ _ r => r.commit

end Release

section Settle

structure Debits (w : Uuid) (cash bonus : Int) (es : List WalletEntry) : Prop where
  wallet : ∀ e ∈ es, e.walletId = w
  credits : ∀ x source, total (WalletEntry.part x source .credit) es = 0
  debits : ∀ x, total (WalletEntry.part x .cash .debit) es = (if w = x then cash else 0) ∧
    total (WalletEntry.part x .bonus .debit) es = if w = x then bonus else 0

theorem Debits.nil (w : Uuid) : Debits w 0 0 [] := ⟨by simp, by simp, by simp⟩

variable {cash bonus : Int}

theorem Debits.concat {w : Uuid} {es : List WalletEntry}
    (d : Debits w cash bonus es) {e : WalletEntry} (wallet : e.walletId = w)
    (debit : e.direction = .debit) :
    Debits w (cash + if e.source = .cash then e.amount else 0)
      (bonus + if e.source = .bonus then e.amount else 0) (es ++ [e]) := by
  refine ⟨?_, ?_, ?_⟩
  · intro x mem
    rcases List.mem_append.mp mem with mem | mem
    · exact d.wallet x mem
    · exact List.mem_singleton.mp mem ▸ wallet
  · intro x source
    simp [d.credits, WalletEntry.part, debit]
  · intro x
    obtain ⟨cashDebit, bonusDebit⟩ := d.debits x
    simp only [total_append, total_cons, total_nil, cashDebit, bonusDebit, WalletEntry.part, wallet,
      debit, and_true]
    by_cases same : w = x <;> simp [same]

/-- The body has written the debits `cash` and `bonus` of `hold`, and what `write` says. -/
structure Paying (write : WalletBook → List WalletEntry → WalletBook)
    (charges : Uuid → Int → Prop) (hold : WalletHold) (account : Uuid) (cash bonus : Int)
    (K : Db → Prop) (held : List (LockKey × LockMode)) (pending : Db → Db) : Prop where
  locked : ∃ m, (.account account, m) ∈ held
  stable : (walletDiscipline charges).Stable held K
  owner : ∀ db, K db → (hold.requestId, account) ∈ db.book.owners
  known : ∀ db, K db → hold ∈ db.book.holds
  effect : ∀ db, ∃ es, Debits hold.walletId cash bonus es ∧ (pending db).book = write db.book es

abbrev Settling := Paying fun book es => { book with entries := book.entries ++ es }

variable {charges : Uuid → Int → Prop} {hold : WalletHold} {account : Uuid} {K : Db → Prop}
  {held : List (LockKey × LockMode)} {pending : Db → Db}

theorem writeConsume_runs {micros now : Int} {currency : String} {source : WalletSource}
    (s : Settling charges hold account cash bonus K held pending)
    (h : ∀ held pending, Settling charges hold account
      (cash + if source = .cash then micros else 0) (bonus + if source = .bonus then micros else 0)
      K held pending → post () K held pending) :
    (writeConsume hold currency source micros now).Runs (walletDiscipline charges) K held pending
      post := by
  unfold writeConsume
  split_ifs with zero
  · subst zero
    exact .pure (h held pending (by simpa using s))
  · refine .bind (check_runs fun m money => insertRow_runs fun db _ known _ => ?_)
    have paid : m.micros = micros := by
      unfold newMoney at money
      split_ifs at money
      cases money
      rfl
    refine ⟨K, known, s.stable.append _, h _ _ ⟨?_, s.stable.append _, s.owner, s.known, ?_⟩⟩
    · obtain ⟨m, lock⟩ := s.locked
      exact ⟨m, List.mem_append_right _ lock⟩
    · intro d
      obtain ⟨es, debits, effect⟩ := s.effect d
      have more := debits.concat (e := consumeEntry hold source m now (pending d)) rfl rfl
      refine ⟨es ++ [consumeEntry hold source m now (pending d)],
        by simpa only [consumeEntry, paid] using more, ?_⟩
      rw [← List.append_assoc]
      simp only [Db.book, WalletBook.mk.injEq] at effect ⊢
      refine ⟨effect.1, effect.2.1, ?_, effect.2.2.2⟩
      rw [effect.2.2.1]

structure Settled (charges : Uuid → Int → Prop) (hold : WalletHold) (account : Uuid)
    (cash bonus : Int) (K : Db → Prop) (held : List (LockKey × LockMode)) (pending : Db → Db) : Prop
    extends Paying (·.close (fun h => h.id = hold.id && h.state = .held) .settled) charges hold
      account cash bonus K held pending where
  row : (.walletHold hold.id, .noKeyUpdate) ∈ held
  isHeld : hold.state = .held

theorem settleHold_runs (s : Settling charges hold account cash bonus K held pending)
    (h : ∀ held pending, Settled charges hold account cash bonus K held pending →
      post () K held pending) :
    (settleHold hold).Runs (walletDiscipline charges) K held pending post := by
  refine updateRow_runs fun db inv known hit => ?_
  obtain ⟨x, mem, same⟩ := List.any_eq_true.mp hit
  simp only [Bool.and_eq_true, decide_eq_true_eq] at same
  have mem₀ : x ∈ db.book.holds := by
    obtain ⟨es, _, effect⟩ := s.effect db
    have : x ∈ (pending db).book.holds := mem
    rwa [effect] at this
  have isHeld : hold.state = .held :=
    eq_of_key inv.holdIds mem₀ (s.known db known) same.1 ▸ same.2
  refine ⟨K, known, s.stable.append _, h _ _
    ⟨⟨?_, s.stable.append _, s.owner, s.known, fun d => ?_⟩, by simp, isHeld⟩⟩
  · obtain ⟨m, lock⟩ := s.locked
    exact ⟨m, List.mem_append_right _ lock⟩
  · obtain ⟨es, debits, effect⟩ := s.effect d
    refine ⟨es, debits, ?_⟩
    simp only [Db.book, WalletBook.close, WalletBook.mk.injEq] at effect ⊢
    refine ⟨effect.1, ?_, effect.2.2⟩
    rw [effect.2.1]

theorem Settled.frame {α : Type} {t : Tx α} {post : Post Db LockKey α}
    (s : Settled charges hold account cash bonus K held pending) (keeps : t.Keeps Db.book)
    (h : ∀ a held pending, Settled charges hold account cash bonus K held pending →
      post a K held pending) : t.Runs (walletDiscipline charges) K held pending post := by
  refine keeps.runs s.stable fun a held' pending' more stable same => h a held' pending' ?_
  obtain ⟨m, lock⟩ := s.locked
  refine ⟨⟨⟨m, more lock⟩, stable, s.owner, s.known, fun db => ?_⟩, more s.row, s.isHeld⟩
  obtain ⟨es, debits, effect⟩ := s.effect db
  exact ⟨es, debits, (same db).trans effect⟩

theorem Settled.commit
    (s : Settled charges hold account cash bonus K held pending) (cashWithin : cash ≤ hold.cash)
    (bonusWithin : bonus ≤ hold.bonus) (db : Db) (inv : db.book.Covered charges) (known : K db) :
    (pending db).book.Covered charges ∧ WalletBook.Moves held db.book (pending db).book := by
  obtain ⟨es, debits, effect⟩ := s.effect db
  have mem := s.known db known
  have locked : ∀ w ∈ db.book.wallets, w.id = hold.walletId →
      ∃ m, (LockKey.account w.billingAccountId, m) ∈ held := by
    intro w memw ofHold
    rw [inv.owner hold mem _ (s.owner db known) rfl w memw ofHold]
    exact s.locked
  rw [effect]
  refine ⟨inv.consume mem s.isHeld cashWithin bonusWithin debits.credits debits.debits,
    .close ?_ ?_ ?_⟩
  · intro x _ hit
    simp only [Bool.and_eq_true, decide_eq_true_eq] at hit
    exact hit.1 ▸ s.row
  · intro x memx hit w memw ofx
    simp only [Bool.and_eq_true, decide_eq_true_eq] at hit
    rw [eq_of_key inv.holdIds memx mem hit.1] at ofx
    exact locked w memw ofx
  · intro e meme w memw ofe
    exact locked w memw (ofe.trans (debits.wallet e meme))

theorem settleWalletLocked_runs {charge : Money} {now : Int}
    (within : charges requestId charge.micros) (locked : ∃ m, (.account account, m) ∈ held)
    (stable : (walletDiscipline charges).Stable held K)
    (owner : ∀ db, K db → (requestId, account) ∈ db.book.owners)
    (untouched : ∀ db, (pending db).book = db.book)
    (h : ∀ hold cash bonus K held pending, cash ≤ hold.cash → bonus ≤ hold.bonus →
      Settled charges hold account cash bonus K held pending → post () K held pending) :
    (settleWalletLocked requestId charge now).Runs (walletDiscipline charges) K held pending
      post := by
  refine .bind (.queryLocking fun db inv known => ?_)
  -- without a hold the statement errs, and there is nothing to know
  cases found : (pending db).walletHolds.find? (·.requestId = requestId) with
  | none =>
    exact ⟨fun _ => True, trivial, Discipline.stable_true _ _, .bind (.orThrow (by simp))⟩
  | some hold =>
    obtain ⟨mem, request⟩ := find_key found
    have mem₀ : hold ∈ db.book.holds := by
      have : hold ∈ (pending db).book.holds := mem
      rwa [untouched db] at this
    have lock : (LockKey.walletHold hold.id, LockMode.update) ∈
        ((pending db).walletHolds.filter (·.requestId = requestId)).map
          (fun h => (LockKey.walletHold h.id, LockMode.update)) ++ held :=
      List.mem_append_left _ (List.mem_map.mpr
        ⟨hold, List.mem_filter.mpr ⟨mem, by simpa using request⟩, rfl⟩)
    have kept : (walletDiscipline charges).Stable _ (fun db => hold ∈ db.book.holds) :=
      stable_hold lock rfl
    have stable' := (stable.append _).and kept
    refine ⟨_, ⟨known, mem₀⟩, stable', .bind (.orThrow fun row same => ?_)⟩
    simp only [Option.bind_some, Option.map_eq_some_iff] at same
    obtain ⟨w, _, rfl⟩ := same
    refine .bind (.require fun _ => .bind (check_runs fun split consumed => ?_))
    obtain ⟨cash, bonus, sum⟩ := inv.parts hold mem₀
    have charged := inv.charged hold mem₀ charge.micros (request.symm ▸ within)
    have parts := splitConsume_within consumed cash bonus (by omega)
    have start : Settling charges hold account 0 0 _ _ pending :=
      ⟨by
        obtain ⟨m, account⟩ := locked
        exact ⟨m, List.mem_append_right _ account⟩, stable',
        fun db k => request.symm ▸ owner db k.1, fun db k => k.2,
        fun db => ⟨[], .nil _, by simp [untouched db]⟩⟩
    refine .bind (writeConsume_runs start fun _ _ s => ?_)
    refine .bind (writeConsume_runs s fun _ _ s => ?_)
    refine settleHold_runs s fun _ _ s => h hold _ _ _ _ _ ?_ ?_ s
    · simp
      omega
    · simp
      omega

theorem settle_runs {cmd : SettleCommand} {now : Int}
    (within : charges cmd.requestId cmd.chargeMicros) :
    (settle cmd now).Runs (walletDiscipline charges) (fun _ => True) [] id
      (fun _ K held pending => ∀ db, (walletDiscipline charges).inv db → K db →
        (walletDiscipline charges).inv (pending db) ∧
          (walletDiscipline charges).guarantee held db (pending db)) := by
  refine .bind (.require fun _ => .bind (selectForUpdate_runs fun db q _ _ found => ?_))
  obtain ⟨mem, same⟩ := find_key found
  have owner : (cmd.requestId, q.billingAccountId) ∈ db.book.owners :=
    List.mem_map.mpr ⟨q, mem, by rw [same]⟩
  refine ⟨_, owner, stable_owner _, .bind (.require fun _ => ?_)⟩
  split
  · refine .bind (.require fun _ => ?_)
    refine .bind ((insertUsageRecord_keeps book_aside.toBeside _).runs (stable_owner _)
      fun _ _ _ _ stable same₁ => ?_)
    have priced : (resolveWalletCharge cmd).Keeps Db.book := resolveWalletCharge_keeps cmd
    refine .bind (priced.runs stable fun charge held pending _ stable same₂ => ?_)
    refine .bind (.require fun paid => ?_)
    rw [decide_eq_true_eq] at paid
    -- the foreign key of the ledger entry locks the account against admissions
    refine .bind (insertRow_runs fun db _ known _ => ⟨_, known, stable.append _, ?_⟩)
    refine .bind (settleWalletLocked_runs (paid ▸ within) ⟨.keyShare, ?_⟩ (stable.append _)
      (fun _ k => k) (fun db => ?_) fun hold cash bonus _ _ _ cashWithin bonusWithin s => ?_)
    · simp [references]
    · exact (same₂ db).trans (same₁ db)
    · refine .bind (s.frame (.exec fun _ _ => rfl) fun _ _ _ s => ?_)
      refine .bind (s.frame (updateAttemptCost_keeps book_aside.toBeside _ _) fun _ _ _ s => ?_)
      exact s.frame (markSettled_keeps book_aside _ _ _) fun _ _ _ s =>
        s.commit cashWithin bonusWithin
  · refine (settlePlan_keeps book_aside cmd q).runs (stable_owner _)
      fun _ held pending _ _ same db inv _ => ?_
    show (pending db).book.Covered charges ∧ WalletBook.Moves held db.book (pending db).book
    rw [same db]
    exact ⟨inv, .refl _ _⟩

end Settle

end YunhouUsers.Inference.Postgres
