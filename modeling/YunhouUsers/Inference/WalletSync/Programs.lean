import YunhouUsers.Inference.WalletSync.Discipline

/-!
The programs of the wallet sync worker keep to their terms.

The only error with the code of a conflict is the duplicate business key of the entry, and whoever
meets it has seen the entry committed.
-/

namespace YunhouUsers.Inference.WalletSync

open ReadCommitted Table Postgres Accounting
open Gateway (codeOf)

variable {o : Origin} {held : List (SyncKey × LockMode)} {K : SyncDb → Prop}
  {pending : SyncDb → SyncDb} {cfg : SyncConfig} {w : Weather} {next : SyncProc}

abbrev Safe (o : Origin) (p : SyncProc) (K : SyncDb → Prop := fun _ => True) : Prop :=
  p.Meets (syncTerms o) noTerms K [] id

def Ends (o : Origin) (m : WalletSyncMessage) (r : Except Err Unit) (K : SyncDb → Prop)
    (held : List (SyncKey × LockMode)) (pending : SyncDb → SyncDb) : Prop :=
  match r with
  | .ok () => ∀ db, Consistent o db → K db →
      Consistent o (pending db) ∧ Moves o held db (pending db)
        ∧ ∃ k, m.key = some k ∧ k ∈ keysOf (pending db)
  | .error e => codeOf e = .conflict →
      ∃ k, m.key = some k ∧ ∀ db, Consistent o db → K db → k ∈ keysOf db

theorem failing_follows {α : Type} {t : SyncTx α} {post : Post SyncDb SyncKey (Except Err α)}
    (h : t.Steps (syncTerms o) K held pending post)
    (failed : ∀ e, codeOf e ≠ .conflict → ∀ K held pending, post (.error e) K held pending)
    (fault : Option (Nat × Transient)) :
    (failing fault t).Steps (syncTerms o) K held pending post := by
  cases fault with
  | none => exact h
  | some fault => exact h.failAt (failed _ fault.2.unknown) fault.1

/-! ### Delivery marks -/

variable {op : String}

theorem updateOutbox_follows {id : Nat} {write : List OutboxRow → List OutboxRow}
    {post : Post SyncDb SyncKey (Except Err Unit)} (stable : (syncTerms o).Stable held K)
    (done : ∀ more, post (.ok ()) K (more ++ held) fun db =>
      { pending db with outbox := write (pending db).outbox }) :
    (updateOutbox op id write).Steps (syncTerms o) K held pending post :=
  .exec fun _ _ known _ => ⟨K, known, stable.append _, done _⟩

variable {msg : OutboxRow}

theorem reschedule_follows (rest : Safe o next) : Safe o (reschedule cfg msg w next) := by
  apply Txn.Steps.inTx (fun _ _ _ _ => trivial) (Discipline.stable_true _ _)
  apply failing_follows
  · apply updateOutbox_follows (Discipline.stable_true _ _)
    intro more stable
    apply Proc.Meets.commit ⟨stable.at _, _⟩ (fun _ _ _ => trivial) rest
    intro db consistent _
    refine ⟨consistent.updateOutbox (fun _ => rfl) fun r mem _ topic => ?_, Moves.outbox o _ db _⟩
    exact ⟨consistent.unfailed r mem topic, consistent.delivered r mem topic⟩
  · intro e _ K held pending
    exact .rollback rest

variable {db : SyncDb}

theorem Consistent.payload_of (consistent : Consistent o db)
    (listed : msg.identity ∈ o.rows) {r : OutboxRow} (mem : r ∈ db.outbox) (same : r.id = msg.id) :
    r.payload = msg.payload := by
  have known : r.identity ∈ o.rows := consistent.rows ▸ List.mem_map_of_mem mem
  have equal := List.inj_on_of_nodup_map o.distinct known listed same
  simp only [OutboxRow.identity, Prod.mk.injEq] at equal
  exact equal.2.2

variable {m : WalletSyncMessage} {k : BusinessKey}

theorem Consistent.deliver (consistent : Consistent o db)
    (listed : msg.identity ∈ o.rows) (payload : msg.payload = some m)
    (key : m.key = some k) (booked : k ∈ keysOf db) :
    Consistent o
      { db with
        outbox := updateWhere (·.id = msg.id) (fun r => { r with status := .delivered })
          db.outbox } := by
  refine consistent.updateOutbox (fun _ => rfl) fun r mem same _ => ?_
  refine ⟨nofun, fun _ => ⟨m, k, ?_, key, booked⟩⟩
  rw [consistent.payload_of listed mem same, payload]

theorem commit_follows {K : SyncDb → Prop} {fate : Fate} {ok failed : SyncProc}
    (committed : (Proc.commit ok).Meets (syncTerms o) noTerms K held pending)
    (again : Safe o failed) :
    (fate.commit ok failed).Meets (syncTerms o) noTerms K held pending := by
  cases fate with
  | done => exact committed
  | undone => exact .rollback again
  | unseen =>
    obtain ⟨stable, may, -⟩ := committed
    exact .commit ⟨stable, fun db inv known => (may db inv known).1⟩ (fun _ _ _ => trivial) again

theorem markDeliveredAfterReplay_follows (listed : msg.identity ∈ o.rows)
    (payload : msg.payload = some m) (key : m.key = some k) (rest : Safe o next) :
    Safe o (markDeliveredAfterReplay cfg msg w next) fun db => k ∈ keysOf db := by
  have again : Safe o (reschedule cfg msg w next) := reschedule_follows rest
  unfold markDeliveredAfterReplay
  split
  · exact again.weaken (stable_key k) fun _ _ => trivial
  · apply Txn.Steps.andThen (fun _ _ _ _ => trivial) (stable_key k)
    apply failing_follows
    · apply updateOutbox_follows (stable_key k)
      intro more stable
      apply commit_follows (.commit ⟨(stable _ rfl).at _, _⟩ (fun _ _ _ => trivial) rest) again
      intro db consistent booked
      exact ⟨consistent.deliver listed payload key booked, Moves.outbox o _ db _⟩
    · intro e _ K held pending _
      exact .rollback again

/-! ### Accounts -/

variable {userId : Uuid}

theorem getBillingAccountByUser_follows {next : Except Err Uuid → SyncProc}
    (found : ∀ a, Safe o (next (.ok a)) fun db => (userId, a) ∈ db.owners)
    (failed : ∀ e, Safe o (next (.error e))) :
    Safe o ((SyncStore.getBillingAccountByUser (M := Statements) fun next =>
      (failing w.ownerFault (selectAccount userId)).inTx next) next) := by
  change Safe o ((failing w.ownerFault (selectAccount userId)).inTx fun row =>
    ExceptT.bindCont (m := ContT SyncProc Id) _ row next)
  apply Txn.Steps.inTx (fun _ _ _ _ => trivial) (Discipline.stable_true _ _)
  apply failing_follows
  · apply Txn.Steps.query
    intro db _ _
    cases row : db.owners.find? (fun x => x.1 = userId) with
    | none =>
      refine ⟨fun _ => True, trivial, Discipline.stable_true _ _, fun stable => ?_⟩
      simp only [id, row, Option.map_none]
      exact .commit ⟨stable.at _, fun db consistent _ => ⟨consistent, Moves.refl o _ db⟩⟩
        (fun _ _ _ => trivial) (failed _)
    | some x =>
      obtain rfl : x.1 = userId := by simpa using List.find?_some row
      refine ⟨fun db => x ∈ db.owners, List.mem_of_find?_eq_some row, stable_owner x,
        fun stable => ?_⟩
      simp only [id, row, Option.map_some]
      exact ⟨stable.at _, fun db consistent _ => ⟨⟨consistent, Moves.refl o _ db⟩, trivial⟩, _,
        stable_owner x, fun _ _ mem => mem, found x.2⟩
  · intro e _ K held pending
    exact .rollback (failed e)

theorem any_owner_eq_false :
    ¬ db.owners.any (fun x => decide (x.1 = userId)) = true ↔ ∀ x ∈ db.owners, x.1 ≠ userId := by
  rw [List.any_eq_true]
  simp only [decide_eq_true_eq, not_exists, not_and, ne_eq]

theorem ensureBillingAccount_follows {next : Except Err Uuid → SyncProc}
    (found : ∀ a, Safe o (next (.ok a)) fun db => (userId, a) ∈ db.owners)
    (failed : ∀ e, Safe o (next (.error e))) : Safe o (ensureBillingAccount userId w next) := by
  apply Txn.Steps.andThen (fun _ _ _ _ => trivial) (Discipline.stable_true _ _)
  apply failing_follows
  · apply Txn.Steps.exec
    intro db consistent _ unused
    by_cases taken : db.owners.any (fun x => decide (x.1 = userId)) = true
    · -- The row of the user stays, so the insert does nothing at the commit either.
      obtain ⟨x, mem, same⟩ := List.any_eq_true.mp taken
      refine ⟨fun db => x ∈ db.owners, mem, stable_owner x, ?_⟩
      simp only [id, taken, if_true]
      intro stable
      refine commit_follows (.commit ⟨(stable _ rfl).at _, ?_⟩ (fun _ _ _ => trivial)
        (getBillingAccountByUser_follows (w := w) found failed)) (failed _)
      intro db consistent mem
      beta_reduce
      rw [if_pos (List.any_eq_true.mpr ⟨x, mem, same⟩)]
      exact ⟨consistent, Moves.refl o _ db⟩
    · refine ⟨_, ⟨any_owner_eq_false.mp taken, unused⟩, stable_ownerless (by simp) (by simp), ?_⟩
      simp only [id, taken]
      intro stable
      apply commit_follows _ (failed _)
      refine ⟨(stable _ rfl).at _, fun db consistent known => ⟨?_, trivial⟩, _,
        stable_owner (userId, w.accountId), ?_, found _⟩
      · beta_reduce
        rw [if_neg (any_owner_eq_false.mpr known.1)]
        exact ⟨consistent.addAccount known.1 known.2, Moves.addAccount (by simp) (by simp)⟩
      · intro db consistent known
        beta_reduce
        rw [if_neg (any_owner_eq_false.mpr known.1)]
        simp
  · intro e _ K held pending _
    exact .rollback (failed e)

variable {paymentId : Uuid}

/-! ### The movement -/

section Movement

variable {m : WalletSyncMessage} {name : String → Label} {userId a : Uuid} {W : Wallet}

theorem Ends.error {e : Err} (other : codeOf e ≠ .conflict) : Ends o m (.error e) K held pending :=
  fun conflict => absurd conflict other

theorem check_follows {α : Type} {r : Except Err α}
    {post : Post SyncDb SyncKey (Except Err α)}
    (ok : ∀ x, r = .ok x → post (.ok x) K held pending)
    (failed : ∀ e, r = .error e → post (.error e) K held pending) :
    (inStore name (check r)).Steps (syncTerms o) K held pending post := by
  cases r with
  | ok x => exact .pure (ok x rfl)
  | error e => exact .throw (failed e rfl)

variable {micros : Int} {currency : String}

theorem newMoney_error {e : Err}
    (failed : newMoney micros currency = .error e) : codeOf e ≠ .conflict := by
  unfold newMoney at failed
  grind [codeOf]

theorem validateWalletEntry_error {spec : WalletEntrySpec} {e : Err}
    (failed : validateWalletEntry spec = .error e) : codeOf e ≠ .conflict := by
  unfold validateWalletEntry at failed
  grind [codeOf]

theorem selectForUpdate_follows {α : Type} {key : LockKey} {read : Db → Option α}
    {post : Post SyncDb SyncKey (Except Err α)} (stable : (syncTerms o).Stable held K)
    (found : ∀ row, post (.ok row) K ((.store key, .update) :: held) pending)
    (missed : post (.error (mapError op .noRows)) K held pending) :
    (inStore name (selectForUpdate op key read)).Steps (syncTerms o) K held pending post := by
  unfold selectForUpdate inStore
  rw [Txn.zoom_bind, Txn.zoom_queryLocking fun _ => rfl]
  apply Txn.Steps.bind
  apply Txn.Steps.queryLocking
  intro db _ known
  refine ⟨K, known, stable.append _, ?_⟩
  cases row : read (pending db).store with
  | none => exact .throw missed
  | some x => exact .pure (found x)

theorem lockAccountTx_follows
    {post : Post SyncDb SyncKey (Except Err Unit)}
    (stable : (syncTerms o).Stable held K)
    (locked : post (.ok ()) K ((.store (.account a), .update) :: held) pending)
    (failed : ∀ e, codeOf e ≠ .conflict → ∀ K held pending, post (.error e) K held pending) :
    (inStore name (lockAccountTx a)).Steps (syncTerms o) K held pending post := by
  unfold lockAccountTx inStore
  rw [Txn.zoom_bind]
  apply Txn.Steps.bind
  apply selectForUpdate_follows stable
  · intro account
    dsimp only
    rw [Txn.zoom_require]
    apply Txn.Steps.require
    · exact fun _ => locked
    · exact fun _ => failed _ (by simp [codeOf]) _ _ _
  · exact failed _ (by simp [codeOf, mapError]) _ _ _

theorem walletEntryViolation_conflict {e : WalletEntry} {db : Db} {v : PgError}
    (violation : walletEntryViolation e db = some v) (conflict : codeOf (mapError op v) = .conflict) :
    e.businessKey ∈ db.walletEntries.map (·.businessKey) := by
  unfold walletEntryViolation at violation
  grind [codeOf, mapError]

theorem walletEntryViolation_none {e : WalletEntry} {db : Db}
    (clean : walletEntryViolation e db = none) :
    e.businessKey ∉ db.walletEntries.map (·.businessKey) := by
  unfold walletEntryViolation at clean
  grind

structure Prepared (o : Origin) (userId a : Uuid) (currency : String) (W : Wallet)
    (K : SyncDb → Prop) (held : List (SyncKey × LockMode)) (pending : SyncDb → SyncDb) : Prop where
  locked : (.store (.account a), .update) ∈ held
  stable : (syncTerms o).Stable held K
  account : W.billingAccountId = a
  currency : W.currency = currency
  consistent : ∀ db, Consistent o db → K db → Consistent o (pending db)
  moves : ∀ db, Consistent o db → K db → Moves o held db (pending db)
  owner : ∀ db, K db → (userId, a) ∈ db.owners
  keys : ∀ db, keysOf (pending db) = keysOf db
  wallet : ∀ db, K db → W ∈ (pending db).store.wallets

theorem Prepared.append (p : Prepared o userId a currency W K held pending)
    (more : List (SyncKey × LockMode)) : Prepared o userId a currency W K (more ++ held) pending :=
  { p with
    locked := List.mem_append_right more p.locked
    stable := p.stable.append more
    moves := fun db consistent known => (p.moves db consistent known).append more }

theorem insertWalletEntry_follows (agrees : o.Agrees) (message : m ∈ o.messages)
    (key : m.key = some k) (user : m.userId = some userId)
    {spec : WalletEntrySpec} {now : Int} (amount : spec.amount.micros = m.amountMicros)
    (direction : spec.direction = m.direction) (source : spec.source = .cash)
    (p : Prepared o userId a m.currency W K held pending) :
    (inStore name (insertWalletEntry op W.id spec none k now walletEntryViolation)).Steps
      (syncTerms o) K held pending (Ends o m) := by
  unfold insertWalletEntry insertRow inStore
  rw [Txn.zoom_exec]
  apply Txn.Steps.exec
  intro db consistent known _
  dsimp only
  split
  · -- Only the business key can be the cause of a conflict.
    rename_i v violation
    by_cases conflict : codeOf (mapError op v) = .conflict
    · have booked : k ∈ keysOf (pending db) := walletEntryViolation_conflict violation conflict
      rw [p.keys] at booked
      exact ⟨fun db => k ∈ keysOf db, booked, stable_key k,
        fun _ => ⟨k, key, fun _ _ booked => booked⟩⟩
    · exact ⟨K, known, p.stable.append _, Ends.error conflict⟩
  · rename_i clean
    have unbooked : k ∉ keysOf (pending db) := walletEntryViolation_none clean
    rw [p.keys] at unbooked
    have locked := (p.append ((references [some (.wallet W.id)]).map
      fun x => (SyncKey.store x.1, x.2))).locked
    have stable := (p.stable.append _).and (stable_unbooked agrees message key user locked)
    refine ⟨_, ⟨known, p.owner db known, unbooked⟩, stable, fun db consistent known => ?_⟩
    have moves := p.moves db consistent known.1
    have unbooked : k ∉ keysOf (pending db) := p.keys db ▸ known.2.2
    have owner := moves.owners _ known.2.1
    refine ⟨(p.consistent db consistent known.1).book message ⟨key, amount, direction, source,
      userId, W, user, ⟨p.wallet db known.1, ?_⟩, rfl, p.currency⟩ unbooked, ?_, k, key, ?_⟩
    · rw [p.account]
      exact owner
    · exact (moves.append _).trans (Moves.book message key user owner locked)
    · show k ∈ keysOf ((pending db).book _)
      rw [keysOf_book]
      exact List.mem_append_right _ (List.mem_singleton_self _)

theorem Consistent.find_wallet (consistent : Consistent o db) (mem : W ∈ db.store.wallets) :
    db.store.wallets.find? (fun w => w.billingAccountId = W.billingAccountId
      && w.currency = W.currency) = some W := by
  cases row : db.store.wallets.find? (fun w => w.billingAccountId = W.billingAccountId
      && w.currency = W.currency) with
  | none => simpa using List.find?_eq_none.mp row W mem
  | some w =>
    have found := List.find?_some row
    simp only [Bool.and_eq_true, decide_eq_true_eq] at found
    rw [consistent.currencies w (List.mem_of_find?_eq_some row) W mem found.1 found.2]

theorem readWallet_follows {post : Post SyncDb SyncKey (Except Err Wallet)}
    (p : Prepared o userId a currency W K held pending) (found : post (.ok W) K held pending) :
    (inStore name (selectOne "read wallet" (fun db => db.wallets.find? (fun w =>
      w.billingAccountId = a && w.currency = currency)))).Steps (syncTerms o) K held pending
        post := by
  obtain rfl := p.account
  obtain rfl := p.currency
  unfold selectOne inStore
  rw [Txn.zoom_bind, Txn.zoom_query fun _ => rfl]
  apply Txn.Steps.bind
  apply Txn.Steps.query
  intro db consistent known
  refine ⟨K, known, p.stable, ?_⟩
  rw [(p.consistent db consistent known).find_wallet (p.wallet db known)]
  exact .pure found

def SyncDb.ensureWallet (a : Uuid) (currency : String) (newId : Uuid) (db : SyncDb) : SyncDb :=
  if db.store.wallets.any (fun w => w.billingAccountId = a && w.currency = currency) then db
  else db.addWallet ⟨newId, a, currency, false, none⟩

variable {newId : Uuid}

theorem SyncDb.ensureWallet_eq (db : SyncDb) :
    ({ store :=
          if db.store.wallets.any (fun w => w.billingAccountId = a && w.currency = currency) then
            db.store
          else { db.store with
            wallets := db.store.wallets ++ [⟨newId, a, currency, false, none⟩] }
       owners := db.owners
       outbox := db.outbox } : SyncDb) = db.ensureWallet a currency newId := by
  unfold SyncDb.ensureWallet
  split
  · rfl
  · rfl

theorem keysOf_ensureWallet (db : SyncDb) :
    keysOf (db.ensureWallet a currency newId) = keysOf db := by
  unfold SyncDb.ensureWallet
  split
  · rfl
  · rfl

theorem SyncDb.ensureWallet_of_mem (mem : W ∈ db.store.wallets) :
    db.ensureWallet W.billingAccountId W.currency newId = db := by
  unfold SyncDb.ensureWallet
  rw [if_pos (List.any_eq_true.mpr ⟨W, mem, by simp⟩)]

theorem SyncDb.ensureWallet_of_walletless
    (walletless : ∀ w ∈ db.store.wallets, w.billingAccountId = a → w.currency ≠ currency) :
    db.ensureWallet a currency newId = db.addWallet ⟨newId, a, currency, false, none⟩ := by
  unfold SyncDb.ensureWallet
  rw [if_neg]
  intro made
  obtain ⟨w, mem, same⟩ := List.any_eq_true.mp made
  simp only [Bool.and_eq_true, decide_eq_true_eq] at same
  exact walletless w mem same.1 same.2

theorem exists_prepared (o : Origin) (currency : String)
    (owner : (userId, a) ∈ db.owners) (unused : newId ∉ db.store.wallets.map (·.id))
    (locked : (.store (.account a), .update) ∈ held)
    (slot : (.store (.index "inference_wallets_pkey" [newId]), .update) ∈ held) :
    ∃ W K, K db ∧ Prepared o userId a currency W K held (·.ensureWallet a currency newId) := by
  by_cases made : ∃ W ∈ db.store.wallets, W.billingAccountId = a ∧ W.currency = currency
  · obtain ⟨W, mem, rfl, rfl⟩ := made
    refine ⟨W, fun db => (userId, W.billingAccountId) ∈ db.owners ∧ W ∈ db.store.wallets,
      ⟨owner, mem⟩, ?_⟩
    exact {
      locked, account := rfl, currency := rfl
      stable := (stable_owner _).and (stable_wallet W)
      consistent := fun db consistent known => by
        rw [SyncDb.ensureWallet_of_mem known.2]
        exact consistent
      moves := fun db _ known => by
        rw [SyncDb.ensureWallet_of_mem known.2]
        exact Moves.refl o held db
      owner := fun _ known => known.1
      keys := keysOf_ensureWallet
      wallet := fun db known => by
        rw [SyncDb.ensureWallet_of_mem known.2]
        exact known.2 }
  · have walletless : ∀ w ∈ db.store.wallets, w.billingAccountId = a → w.currency ≠ currency :=
      fun w mem account same => made ⟨w, mem, account, same⟩
    refine ⟨⟨newId, a, currency, false, none⟩, fun db => (userId, a) ∈ db.owners
      ∧ newId ∉ db.store.wallets.map (·.id)
      ∧ ∀ w ∈ db.store.wallets, w.billingAccountId = a → w.currency ≠ currency,
      ⟨owner, unused, walletless⟩, ?_⟩
    exact {
      locked, account := rfl, currency := rfl
      stable := (stable_owner _).and (stable_walletless locked slot)
      consistent := fun db consistent known => by
        rw [SyncDb.ensureWallet_of_walletless known.2.2]
        exact consistent.addWallet known.2.1 known.2.2 (consistent.accounts _ known.1)
      moves := fun db _ known => by
        rw [SyncDb.ensureWallet_of_walletless known.2.2]
        exact Moves.addWallet locked slot
      owner := fun _ known => known.1
      keys := keysOf_ensureWallet
      wallet := fun db known => by
        rw [SyncDb.ensureWallet_of_walletless known.2.2]
        simp [SyncDb.addWallet] }

theorem getOrCreateWalletLocked_follows {post : Post SyncDb SyncKey (Except Err Wallet)}
    (draws : name "create wallet" = .newWallet newId)
    (locked : (.store (.account a), .update) ∈ held)
    (prepared : ∀ W K held pending, Prepared o userId a currency W K held pending →
      post (.ok W) K held pending) :
    (inStore name (getOrCreateWalletLocked a currency newId)).Steps (syncTerms o)
      (fun db => (userId, a) ∈ db.owners) held id post := by
  unfold getOrCreateWalletLocked inStore
  rw [Txn.zoom_bind, Txn.zoom_exec, draws]
  apply Txn.Steps.bind
  apply Txn.Steps.exec
  intro db consistent owner unused
  have slot : (.store (.index "inference_wallets_pkey" [newId]), .update) ∈
      (references [some (.account a)] ++
        [(LockKey.index "inference_wallets_pkey" [newId], LockMode.update)]).map
        (fun k => (SyncKey.store k.1, k.2)) ++ held := by simp
  obtain ⟨W, K, known, p⟩ := exists_prepared o currency owner unused
    (List.mem_append_right _ locked) slot
  refine ⟨K, known, p.stable, ?_⟩
  simp only [id, SyncDb.ensureWallet_eq]
  exact readWallet_follows p (prepared _ _ _ _ p)

theorem newMoney_micros {money : Money}
    (made : newMoney micros currency = .ok money) : money.micros = micros := by
  unfold newMoney at made
  grind

theorem checkedMovement_follows {e : Err}
    {spec : Money → WalletEntrySpec} {body : Money → Tx Unit} (other : codeOf e ≠ .conflict)
    (stable : (syncTerms o).Stable [] K)
    (rest : ∀ money, newMoney micros currency = .ok money →
      (inStore name (body money)).Steps (syncTerms o) K [(.store (.account a), .update)] pending
        (Ends o m)) :
    (inStore name (do
      let money ← check (newMoney micros currency)
      Txn.require (0 < money.micros) e
      check (validateWalletEntry (spec money))
      lockAccountTx a
      body money)).Steps (syncTerms o) K [] pending (Ends o m) := by
  unfold inStore
  rw [Txn.zoom_bind]
  apply Txn.Steps.bind
  apply check_follows
  · intro money made
    dsimp only
    rw [Txn.zoom_bind, Txn.zoom_require]
    apply Txn.Steps.bind
    apply Txn.Steps.require
    · intro _
      dsimp only
      rw [Txn.zoom_bind]
      apply Txn.Steps.bind
      apply check_follows
      · intro _ _
        dsimp only
        rw [Txn.zoom_bind]
        apply Txn.Steps.bind
        apply lockAccountTx_follows stable
        · exact rest money made
        · exact fun _ other _ _ _ => Ends.error other
      · exact fun e invalid => Ends.error (validateWalletEntry_error invalid)
    · exact fun _ => Ends.error other
  · exact fun e invalid => Ends.error (newMoney_error invalid)

theorem creditTopupTx_follows (agrees : o.Agrees) (message : m ∈ o.messages) (topup : m.kind = .topup)
    (user : m.userId = some userId) (payment : m.paymentId = some paymentId)
    (draws : name "create wallet" = .newWallet newId) {now : Int} :
    (inStore name (creditTopupTx ⟨a, m.currency, m.amountMicros, paymentId⟩ newId now)).Steps
      (syncTerms o) (fun db => (userId, a) ∈ db.owners) [] id (Ends o m) := by
  have key : m.key = some (.topup paymentId) := by simp [WalletSyncMessage.key, topup, payment]
  have direction : m.direction = .credit := by simp [WalletSyncMessage.direction, topup]
  apply checkedMovement_follows (by simp [codeOf]) (stable_owner _)
  intro money made
  unfold inStore
  rw [Txn.zoom_bind]
  apply Txn.Steps.bind
  apply getOrCreateWalletLocked_follows draws (List.mem_cons_self ..)
  intro W K held pending p
  dsimp only
  rw [Txn.zoom_bind]
  apply Txn.Steps.bind
  apply selectForUpdate_follows p.stable
  · intro _
    exact insertWalletEntry_follows agrees message key user (newMoney_micros made)
      direction.symm rfl (p.append [_])
  · exact Ends.error (by simp [codeOf, mapError])

theorem refundWalletTx_follows (agrees : o.Agrees) (message : m ∈ o.messages)
    (refund : m.kind = .refund) (user : m.userId = some userId) {refundId : Uuid}
    (refunded : m.refundId = some refundId) {now : Int} :
    (inStore name (refundWalletTx ⟨a, m.currency, m.amountMicros, refundId⟩ now)).Steps
      (syncTerms o) (fun db => (userId, a) ∈ db.owners) [] id (Ends o m) := by
  have key : m.key = some (.refund refundId) := by simp [WalletSyncMessage.key, refund, refunded]
  have direction : m.direction = .debit := by simp [WalletSyncMessage.direction, refund]
  apply checkedMovement_follows (by simp [codeOf]) (stable_owner _)
  intro money made
  unfold inStore
  rw [Txn.zoom_bind, Txn.zoom_queryLocking fun _ => rfl]
  apply Txn.Steps.bind
  apply Txn.Steps.queryLocking
  intro db consistent owner
  cases row : db.store.wallets.find? (fun w =>
      w.billingAccountId = a && w.currency = m.currency) with
  | none =>
    refine ⟨_, owner, stable_owner _, ?_⟩
    dsimp only [id]
    rw [row, Txn.zoom_bind, Txn.zoom_orThrow]
    exact Txn.Steps.throw (Ends.error (by simp [codeOf, mapError]))
  | some W =>
    have found := List.find?_some row
    simp only [Bool.and_eq_true, decide_eq_true_eq] at found
    have stable : ∀ held, (syncTerms o).Stable held
        (fun db => (userId, a) ∈ db.owners ∧ W ∈ db.store.wallets) :=
      fun _ => (stable_owner _).and (stable_wallet W)
    refine ⟨_, ⟨owner, List.mem_of_find?_eq_some row⟩, stable _, ?_⟩
    dsimp only [id]
    rw [row, Txn.zoom_bind, Txn.zoom_orThrow]
    apply insertWalletEntry_follows agrees message key user (newMoney_micros made) direction.symm rfl
    exact {
      locked := List.mem_append_right _ (List.mem_singleton_self _)
      stable := stable _, account := found.1, currency := found.2
      consistent := fun _ consistent _ => consistent
      moves := fun db _ _ => Moves.refl o _ db
      owner := fun _ known => known.1
      keys := fun _ => rfl
      wallet := fun _ known => known.2 }

theorem applyMovement_follows (agrees : o.Agrees) (message : m ∈ o.messages)
    (user : m.userId = some userId) (payment : m.paymentId = some paymentId) :
    (applyMovement m a paymentId w).Steps (syncTerms o) (fun db => (userId, a) ∈ db.owners) [] id
      (Ends o m) := by
  unfold applyMovement
  cases kind : m.kind with
  | topup => exact creditTopupTx_follows agrees message kind user payment rfl
  | refund =>
    cases refunded : m.refundId with
    | none => exact .throw (Ends.error (by simp [codeOf]))
    | some refundId => exact refundWalletTx_follows agrees message kind user refunded
  | other text => exact .throw (Ends.error (by simp [codeOf]))

end Movement

/-! ### Messages and passes -/

theorem settleMessage_follows (agrees : o.Agrees) (listed : msg.identity ∈ o.rows)
    (payload : msg.payload = some m) (message : m ∈ o.messages)
    {a : Uuid} (user : m.userId = some userId) (payment : m.paymentId = some paymentId)
    (rest : Safe o next) :
    Safe o (settleMessage cfg msg m a paymentId w next) fun db => (userId, a) ∈ db.owners := by
  have again : Safe o (reschedule cfg msg w next) := reschedule_follows rest
  apply Txn.Steps.andThen (fun _ _ _ _ => trivial) (stable_owner _)
  apply (failing_follows (applyMovement_follows agrees message user payment)
    (fun _ other _ _ _ => Ends.error other) _).mono
  intro r K held pending ends stable
  cases r with
  | error e =>
    dsimp only
    split
    · rename_i conflict
      obtain ⟨k, key, booked⟩ := ends conflict
      exact ⟨_, stable_key k, booked, markDeliveredAfterReplay_follows listed payload key rest⟩
    · exact .rollback again
  | ok _ =>
    apply Txn.Steps.andThen (fun _ _ _ _ => trivial) (stable _ rfl)
    apply failing_follows
    · apply updateOutbox_follows (stable _ rfl)
      intro more stable
      apply commit_follows (.commit ⟨(stable _ rfl).at _, _⟩ (fun _ _ _ => trivial) rest) again
      intro db consistent known
      obtain ⟨consistent', moves, k, key, booked⟩ := ends db consistent known
      exact ⟨consistent'.deliver listed payload key booked,
        (moves.append more).trans (Moves.outbox o _ _ _)⟩
    · intro e _ K held pending _
      exact .rollback again

def Listed (o : Origin) (msg : OutboxRow) : Prop :=
  msg.identity ∈ o.rows ∧ msg.topic = topicWalletSync

theorem Listed.message (listed : Listed o msg)
    (payload : msg.payload = some m) : m ∈ o.messages := by
  apply List.mem_filterMap.mpr
  refine ⟨msg.identity, List.mem_filter.mpr ⟨listed.1, ?_⟩, payload⟩
  exact decide_eq_true listed.2

theorem processMessage_follows (agrees : o.Agrees) (listed : Listed o msg) (rest : Safe o next) :
    Safe o (processMessage cfg msg w next) := by
  have again : Safe o (reschedule cfg msg w next) := reschedule_follows rest
  unfold processMessage
  split
  · exact again
  · rename_i m payload
    split
    · rename_i userId paymentId user payment
      split
      · exact again
      · apply ensureBillingAccount_follows
        · intro a
          dsimp only
          split
          · exact again.weaken (stable_owner _) fun _ _ => trivial
          · exact settleMessage_follows agrees listed.1 payload (listed.message payload) user payment
              rest
        · exact fun _ => again
    · exact again

theorem processMessages_follows (agrees : o.Agrees) {weather : Nat → Weather}
    (rest : Safe o next) (msgs : List OutboxRow)
    (listed : ∀ msg ∈ msgs, Listed o msg) (i : Nat) :
    Safe o (processMessages cfg weather next i msgs) := by
  induction msgs generalizing i with
  | nil => exact rest
  | cons msg msgs ih =>
    apply processMessage_follows agrees (listed msg List.mem_cons_self)
    exact ih (fun msg mem => listed msg (List.mem_cons_of_mem _ mem)) (i + 1)

theorem runPass_follows (agrees : o.Agrees) {p : PassWeather}
    (rest : Safe o next) :
    Safe o (runPass cfg p next) := by
  apply Txn.Steps.inTx (fun _ _ _ _ => trivial) (Discipline.stable_true _ _)
  apply failing_follows
  · apply Txn.Steps.query
    intro db consistent _
    refine ⟨fun _ => True, trivial, Discipline.stable_true _ _, fun stable => ?_⟩
    apply Proc.Meets.commit
      ⟨stable.at _, fun db consistent _ => ⟨consistent, Moves.refl o _ db⟩⟩ (fun _ _ _ => trivial)
    apply processMessages_follows agrees rest
    intro msg mem
    obtain ⟨here, pending⟩ := List.mem_filter.mp (mem_sortStable.mp (List.mem_of_mem_take mem))
    simp only [Bool.and_eq_true, decide_eq_true_eq] at pending
    exact ⟨consistent.rows ▸ List.mem_map_of_mem here, pending.2⟩
  · intro e _ K held pending
    exact .rollback rest

theorem worker_follows (agrees : o.Agrees) (passes : List PassWeather) :
    Safe o (worker cfg passes) := by
  induction passes with
  | nil => trivial
  | cons p passes ih => exact runPass_follows agrees ih

end YunhouUsers.Inference.WalletSync
