import YunhouUsers.Inference.WalletSync.Worker

/-!
What every commit of a wallet sync worker keeps.

A movement is booked under the lock of its account, and messages with the same business key name
the same user, so the account lock stands guard over the key. That an entry is in the ledger holds
for good: a worker that found one may say so in a later transaction.
-/

namespace YunhouUsers.Inference.WalletSync

open ReadCommitted Table Postgres
open Gateway (codeOf)

def WalletSyncMessage.key (m : WalletSyncMessage) : Option BusinessKey :=
  match m.kind with
  | .topup => m.paymentId.map .topup
  | .refund => m.refundId.map .refund
  | .other _ => none

def WalletSyncMessage.direction (m : WalletSyncMessage) : Direction :=
  match m.kind with
  | .topup => .credit
  | _ => .debit

def OutboxRow.identity (r : OutboxRow) : Nat × String × Option WalletSyncMessage :=
  (r.id, r.topic, r.payload)

variable (db : SyncDb)

def keysOf : List BusinessKey := db.store.walletEntries.map (·.businessKey)

def SyncDb.Owns (userId : Uuid) (w : Wallet) : Prop :=
  w ∈ db.store.wallets ∧ (userId, w.billingAccountId) ∈ db.owners

structure Books (db : SyncDb) (m : WalletSyncMessage) (e : WalletEntry) : Prop where
  key : m.key = some e.businessKey
  amount : e.amount = m.amountMicros
  direction : e.direction = m.direction
  source : e.source = .cash
  wallet : ∃ userId w, m.userId = some userId ∧ db.Owns userId w ∧ w.id = e.walletId
    ∧ w.currency = m.currency

structure Origin where
  rows : List (Nat × String × Option WalletSyncMessage)
  distinct : (rows.map (·.1)).Nodup
  owners : List (Uuid × Uuid)
  wallets : List Wallet
  owned : ∀ w ∈ wallets, ∃ userId, (userId, w.billingAccountId) ∈ owners
  entries : List WalletEntry
  booked : ∀ e ∈ entries, ∃ w ∈ wallets, w.id = e.walletId

def Origin.messages (o : Origin) : List WalletSyncMessage :=
  (o.rows.filter fun r => r.2.1 = topicWalletSync).filterMap fun r => r.2.2

def Origin.Agrees (o : Origin) : Prop :=
  ∀ m ∈ o.messages, ∀ m' ∈ o.messages, ∀ k, m.key = some k → m'.key = some k → m = m'

structure Keyed (db : SyncDb) : Prop where
  users : ∀ x ∈ db.owners, ∀ y ∈ db.owners, x.1 = y.1 → x = y
  owned : ∀ x ∈ db.owners, ∀ y ∈ db.owners, x.2 = y.2 → x = y
  accounts : ∀ x ∈ db.owners, x.2 ∈ db.store.accounts.map (·.id)
  walletIds : (db.store.wallets.map (·.id)).Nodup
  walletAccounts : ∀ w ∈ db.store.wallets, w.billingAccountId ∈ db.store.accounts.map (·.id)
  currencies : ∀ w ∈ db.store.wallets, ∀ w' ∈ db.store.wallets,
    w.billingAccountId = w'.billingAccountId → w.currency = w'.currency → w = w'
  keys : (keysOf db).Nodup

structure Consistent (o : Origin) (db : SyncDb) : Prop extends Keyed db where
  rows : db.outbox.map OutboxRow.identity = o.rows
  oldOwners : ∀ x ∈ o.owners, x ∈ db.owners
  oldWallets : ∀ w ∈ o.wallets, w ∈ db.store.wallets
  grown : ∃ new, db.store.walletEntries = o.entries ++ new
    ∧ ∀ e ∈ new, ∃ m ∈ o.messages, Books db m e
  delivered : ∀ r ∈ db.outbox, r.topic = topicWalletSync → r.status = .delivered →
    ∃ m k, r.payload = some m ∧ m.key = some k ∧ k ∈ keysOf db
  unfailed : ∀ r ∈ db.outbox, r.topic = topicWalletSync → r.status ≠ .failed

structure Moves (o : Origin) (held : List (SyncKey × LockMode)) (db db' : SyncDb) : Prop where
  owners : ∀ x ∈ db.owners, x ∈ db'.owners
  newOwners : ∀ x ∈ db'.owners, x ∈ db.owners ∨ (.owner x.1, .update) ∈ held
  accounts : ∀ a ∈ db.store.accounts, ∃ a' ∈ db'.store.accounts, a'.id = a.id
  newAccounts : ∀ a ∈ db'.store.accounts, a.id ∈ db.store.accounts.map (·.id)
    ∨ (.store (.index "inference_billing_accounts_pkey" [a.id]), .update) ∈ held
  wallets : ∀ w ∈ db.store.wallets, w ∈ db'.store.wallets
  newWallets : ∀ w ∈ db'.store.wallets, w ∈ db.store.wallets
    ∨ (.store (.account w.billingAccountId), .update) ∈ held
      ∧ (.store (.index "inference_wallets_pkey" [w.id]), .update) ∈ held
  keys : ∀ k ∈ keysOf db, k ∈ keysOf db'
  newKeys : ∀ k ∈ keysOf db', k ∈ keysOf db
    ∨ ∃ m ∈ o.messages, ∃ userId a, m.key = some k ∧ m.userId = some userId
      ∧ (userId, a) ∈ db'.owners ∧ (.store (.account a), .update) ∈ held

theorem Moves.refl (o : Origin) (held : List (SyncKey × LockMode)) (db : SyncDb) :
    Moves o held db db where
  owners _ mem := mem
  newOwners _ mem := .inl mem
  accounts a mem := ⟨a, mem, rfl⟩
  newAccounts _ mem := .inl (List.mem_map_of_mem mem)
  wallets _ mem := mem
  newWallets _ mem := .inl mem
  keys _ mem := mem
  newKeys _ mem := .inl mem

variable {o : Origin} {held : List (SyncKey × LockMode)} {db db' db'' : SyncDb}

theorem Moves.trans (first : Moves o held db db') (second : Moves o held db' db'') :
    Moves o held db db'' where
  owners x mem := second.owners x (first.owners x mem)
  newOwners x mem := by
    rcases second.newOwners x mem with old | new
    · exact first.newOwners x old
    · exact .inr new
  accounts a mem := by
    obtain ⟨a', mem', same⟩ := first.accounts a mem
    obtain ⟨a'', mem'', same'⟩ := second.accounts a' mem'
    exact ⟨a'', mem'', same'.trans same⟩
  newAccounts a mem := by
    rcases second.newAccounts a mem with old | new
    · obtain ⟨a', mem', same⟩ := List.mem_map.mp old
      have earlier := first.newAccounts a' mem'
      rwa [same] at earlier
    · exact .inr new
  wallets w mem := second.wallets w (first.wallets w mem)
  newWallets w mem := by
    rcases second.newWallets w mem with old | new
    · exact first.newWallets w old
    · exact .inr new
  keys k mem := second.keys k (first.keys k mem)
  newKeys k mem := by
    rcases second.newKeys k mem with old | new
    · rcases first.newKeys k old with older | ⟨m, message, userId, a, key, user, owner, locked⟩
      · exact .inl older
      · exact .inr ⟨m, message, userId, a, key, user, second.owners _ owner, locked⟩
    · exact .inr new

theorem Moves.append (moves : Moves o held db db') (more : List (SyncKey × LockMode)) :
    Moves o (more ++ held) db db' := by
  refine { moves with newOwners := ?_, newAccounts := ?_, newWallets := ?_, newKeys := ?_ }
  · exact fun x mem => (moves.newOwners x mem).imp_right (List.mem_append_right more)
  · exact fun a mem => (moves.newAccounts a mem).imp_right (List.mem_append_right more)
  · exact fun w mem => (moves.newWallets w mem).imp_right fun locked =>
      ⟨List.mem_append_right more locked.1, List.mem_append_right more locked.2⟩
  · intro k mem
    rcases moves.newKeys k mem with old | ⟨m, message, userId, a, key, user, owner, locked⟩
    · exact .inl old
    · exact .inr ⟨m, message, userId, a, key, user, owner, List.mem_append_right more locked⟩

def Unused : Label → SyncDb → Prop
  | .op _, _ => True
  | .newAccount id, db => id ∉ db.store.accounts.map (·.id)
  | .newWallet id, db => id ∉ db.store.wallets.map (·.id)

instance Unused.decidable : (l : Label) → (db : SyncDb) → Decidable (Unused l db)
  | .op _, _ => .isTrue trivial
  | .newAccount id, db => inferInstanceAs (Decidable (id ∉ db.store.accounts.map (·.id)))
  | .newWallet id, db => inferInstanceAs (Decidable (id ∉ db.store.wallets.map (·.id)))

def syncTerms (o : Origin) : Contract SyncDb SyncKey Label where
  inv := Consistent o
  guarantee := Moves o
  idle := Moves.refl o
  ready := Unused

theorem stable_owner (x : Uuid × Uuid) : (syncTerms o).Stable held (fun db => x ∈ db.owners) :=
  fun _ _ _ _ _ _ moves mem => moves.owners x mem

theorem stable_key (k : BusinessKey) : (syncTerms o).Stable held (fun db => k ∈ keysOf db) :=
  fun _ _ _ _ _ _ moves mem => moves.keys k mem

theorem stable_wallet (w : Wallet) :
    (syncTerms o).Stable held (fun db => w ∈ db.store.wallets) :=
  fun _ _ _ _ _ _ moves mem => moves.wallets w mem

variable {m : WalletSyncMessage} {userId : Uuid}

theorem stable_unbooked (agrees : o.Agrees) (message : m ∈ o.messages)
    {k : BusinessKey} (key : m.key = some k) {a : Uuid} (user : m.userId = some userId)
    (locked : (.store (.account a), .update) ∈ held) :
    (syncTerms o).Stable held (fun db => (userId, a) ∈ db.owners ∧ k ∉ keysOf db) := by
  intro other db db' compatible _ consistent moves ⟨owner, unbooked⟩
  refine ⟨moves.owners _ owner, fun booked => ?_⟩
  rcases moves.newKeys k booked with old | ⟨m', message', userId', a', key', user', owner', theirs⟩
  · exact unbooked old
  · obtain rfl := agrees m message m' message' k key key'
    rw [user] at user'
    obtain rfl := Option.some.inj user'
    have same := consistent.users _ (moves.owners _ owner) _ owner' rfl
    rw [← (Prod.mk.inj same).2] at theirs
    exact compatible.not_mem locked rfl theirs

variable {id : Uuid}

theorem stable_walletless {a : Uuid} {currency : String}
    (locked : (.store (.account a), .update) ∈ held)
    (slot : (.store (.index "inference_wallets_pkey" [id]), .update) ∈ held) :
    (syncTerms o).Stable held (fun db => id ∉ db.store.wallets.map (·.id)
      ∧ ∀ w ∈ db.store.wallets, w.billingAccountId = a → w.currency ≠ currency) := by
  intro other db db' compatible _ _ moves ⟨unused, walletless⟩
  constructor
  · intro used
    obtain ⟨w, mem, rfl⟩ := List.mem_map.mp used
    rcases moves.newWallets w mem with old | ⟨-, theirs⟩
    · exact unused (List.mem_map_of_mem old)
    · exact compatible.not_mem slot rfl theirs
  · intro w mem account
    rcases moves.newWallets w mem with old | ⟨theirs, -⟩
    · exact walletless w old account
    · rw [account] at theirs
      exact absurd theirs (compatible.not_mem locked rfl)

theorem stable_ownerless (owner : (.owner userId, .update) ∈ held)
    (slot : (.store (.index "inference_billing_accounts_pkey" [id]), .update) ∈ held) :
    (syncTerms o).Stable held (fun db => (∀ x ∈ db.owners, x.1 ≠ userId)
      ∧ id ∉ db.store.accounts.map (·.id)) := by
  intro other db db' compatible _ _ moves ⟨ownerless, unused⟩
  constructor
  · rintro x mem rfl
    rcases moves.newOwners x mem with old | theirs
    · exact ownerless x old rfl
    · exact compatible.not_mem owner rfl theirs
  · intro used
    obtain ⟨a, mem, rfl⟩ := List.mem_map.mp used
    rcases moves.newAccounts a mem with old | theirs
    · exact unused old
    · exact compatible.not_mem slot rfl theirs

variable {e : WalletEntry}

theorem Books.mono (books : Books db m e) (owners : ∀ x ∈ db.owners, x ∈ db'.owners)
    (wallets : ∀ w ∈ db.store.wallets, w ∈ db'.store.wallets) : Books db' m e := by
  obtain ⟨userId, w, user, ⟨mem, owner⟩, same, currency⟩ := books.wallet
  exact ⟨books.key, books.amount, books.direction, books.source,
    userId, w, user, ⟨wallets w mem, owners _ owner⟩, same, currency⟩

theorem Consistent.grown_mono (consistent : Consistent o db)
    (entries : db'.store.walletEntries = db.store.walletEntries)
    (owners : ∀ x ∈ db.owners, x ∈ db'.owners)
    (wallets : ∀ w ∈ db.store.wallets, w ∈ db'.store.wallets) :
    ∃ new, db'.store.walletEntries = o.entries ++ new
      ∧ ∀ e ∈ new, ∃ m ∈ o.messages, Books db' m e := by
  obtain ⟨new, old, booked⟩ := consistent.grown
  refine ⟨new, entries.trans old, fun e mem => ?_⟩
  obtain ⟨m, message, books⟩ := booked e mem
  exact ⟨m, message, books.mono owners wallets⟩

theorem Consistent.updateOutbox (consistent : Consistent o db) {id : Nat}
    {f : OutboxRow → OutboxRow} (same : ∀ r, (f r).identity = r.identity)
    (marked : ∀ r ∈ db.outbox, r.id = id → r.topic = topicWalletSync → (f r).status ≠ .failed
      ∧ ((f r).status = .delivered →
        ∃ m k, r.payload = some m ∧ m.key = some k ∧ k ∈ keysOf db)) :
    Consistent o { db with outbox := updateWhere (·.id = id) f db.outbox } := by
  have rows : (updateWhere (fun r => decide (r.id = id)) f db.outbox).map OutboxRow.identity
      = o.rows := by
    rw [map_updateWhere _ _ _ same]
    exact consistent.rows
  have kept : ∀ r, (f r).topic = r.topic ∧ (f r).payload = r.payload := by
    intro r
    have parts := same r
    simp only [OutboxRow.identity, Prod.mk.injEq] at parts
    exact parts.2
  refine { consistent with rows, grown := ?_, delivered := ?_, unfailed := ?_ }
  · exact consistent.grown_mono rfl (fun _ mem => mem) fun _ mem => mem
  · intro r mem topic status
    obtain ⟨r₀, mem₀, rfl⟩ := mem_updateWhere.mp mem
    split at status
    · rename_i here
      rw [if_pos here] at topic ⊢
      rw [(kept r₀).1] at topic
      rw [(kept r₀).2]
      exact (marked r₀ mem₀ (by simpa using here) topic).2 status
    · rename_i elsewhere
      rw [if_neg elsewhere] at topic ⊢
      exact consistent.delivered r₀ mem₀ topic status
  · intro r mem topic
    obtain ⟨r₀, mem₀, rfl⟩ := mem_updateWhere.mp mem
    split at topic
    · rename_i here
      rw [(kept r₀).1] at topic
      rw [if_pos here]
      exact (marked r₀ mem₀ (by simpa using here) topic).1
    · rename_i elsewhere
      rw [if_neg elsewhere]
      exact consistent.unfailed r₀ mem₀ topic

theorem Moves.outbox (o : Origin) (held : List (SyncKey × LockMode)) (db : SyncDb)
    (outbox : List OutboxRow) : Moves o held db { db with outbox } :=
  ⟨fun _ mem => mem, fun _ mem => .inl mem, fun a mem => ⟨a, mem, rfl⟩,
    fun _ mem => .inl (List.mem_map_of_mem mem), fun _ mem => mem, fun _ mem => .inl mem,
    fun _ mem => mem, fun _ mem => .inl mem⟩

def SyncDb.book (e : WalletEntry) : SyncDb :=
  { db with store := { db.store with walletEntries := db.store.walletEntries ++ [e] } }

theorem keysOf_book (e : WalletEntry) : keysOf (db.book e) = keysOf db ++ [e.businessKey] := by
  simp [keysOf, SyncDb.book]

theorem Consistent.book (consistent : Consistent o db)
    (message : m ∈ o.messages) (books : Books db m e) (unbooked : e.businessKey ∉ keysOf db) :
    Consistent o (db.book e) := by
  refine { consistent with keys := ?_, grown := ?_, delivered := ?_ }
  · rw [keysOf_book]
    exact List.nodup_append.mpr ⟨consistent.keys, List.nodup_singleton _,
      fun k mem k' mem' same => unbooked (List.mem_singleton.mp mem' ▸ same ▸ mem)⟩
  · obtain ⟨new, entries, booked⟩ := consistent.grown
    refine ⟨new ++ [e], by simp [SyncDb.book, entries], fun e' mem => ?_⟩
    rcases List.mem_append.mp mem with old | last
    · obtain ⟨m', message', books'⟩ := booked e' old
      exact ⟨m', message', books'.mono (fun _ mem => mem) fun _ mem => mem⟩
    · obtain rfl := List.mem_singleton.mp last
      exact ⟨m, message, books.mono (fun _ mem => mem) fun _ mem => mem⟩
  · intro r mem topic status
    obtain ⟨m', k, payload, key, booked⟩ := consistent.delivered r mem topic status
    rw [keysOf_book]
    exact ⟨m', k, payload, key, List.mem_append_left _ booked⟩

theorem Moves.book (message : m ∈ o.messages)
    (key : m.key = some e.businessKey) {a : Uuid} (user : m.userId = some userId)
    (owner : (userId, a) ∈ db.owners) (locked : (.store (.account a), .update) ∈ held) :
    Moves o held db (db.book e) := by
  refine { Moves.refl o held db with keys := ?_, newKeys := ?_ }
  · intro k mem
    rw [keysOf_book]
    exact List.mem_append_left _ mem
  · rw [keysOf_book]
    exact forall_mem_concat (fun _ => .inl) (.inr ⟨m, message, userId, a, key, user, owner, locked⟩)

def SyncDb.addWallet (w : Wallet) : SyncDb :=
  { db with store := { db.store with wallets := db.store.wallets ++ [w] } }

theorem Consistent.addWallet (consistent : Consistent o db) {w : Wallet}
    (unused : w.id ∉ db.store.wallets.map (·.id))
    (walletless : ∀ x ∈ db.store.wallets, x.billingAccountId = w.billingAccountId →
      x.currency ≠ w.currency)
    (account : w.billingAccountId ∈ db.store.accounts.map (·.id)) :
    Consistent o (db.addWallet w) := by
  have more : ∀ x ∈ db.store.wallets, x ∈ (db.addWallet w).store.wallets :=
    fun x mem => List.mem_append_left _ mem
  refine { consistent with walletIds := ?_, walletAccounts := ?_, currencies := ?_
                           oldWallets := fun x mem => more x (consistent.oldWallets x mem)
                           grown := ?_ }
  · exact nodup_concat consistent.walletIds fun x mem same => unused (List.mem_map.mpr ⟨x, mem, same⟩)
  · exact forall_mem_concat consistent.walletAccounts account
  · intro x mem y mem' accounts currency
    refine injOn_concat (f := fun w : Wallet => (w.billingAccountId, w.currency)) ?_ ?_ x mem y mem'
      (Prod.ext accounts currency)
    · exact fun x mem y mem' same => consistent.currencies x mem y mem' (congrArg Prod.fst same)
        (congrArg Prod.snd same)
    · exact fun x mem same => walletless x mem (congrArg Prod.fst same) (congrArg Prod.snd same)
  · exact consistent.grown_mono rfl (fun _ mem => mem) more

theorem Moves.addWallet {w : Wallet} (locked : (.store (.account w.billingAccountId), .update) ∈ held)
    (slot : (.store (.index "inference_wallets_pkey" [w.id]), .update) ∈ held) :
    Moves o held db (db.addWallet w) := by
  refine { Moves.refl o held db with wallets := ?_, newWallets := ?_ }
  · exact fun x mem => List.mem_append_left _ mem
  · exact forall_mem_concat (fun _ => .inl) (.inr ⟨locked, slot⟩)

def SyncDb.addAccount (userId id : Uuid) : SyncDb :=
  { db with
    store := { db.store with accounts := db.store.accounts ++ [⟨id, .active⟩] }
    owners := db.owners ++ [(userId, id)] }

theorem Consistent.addAccount (consistent : Consistent o db)
    (unowned : ∀ x ∈ db.owners, x.1 ≠ userId) (unused : id ∉ db.store.accounts.map (·.id)) :
    Consistent o (db.addAccount userId id) := by
  have more : ∀ i ∈ db.store.accounts.map (·.id),
      i ∈ (db.addAccount userId id).store.accounts.map (·.id) := by
    intro i mem
    simp only [SyncDb.addAccount, List.map_append]
    exact List.mem_append_left _ mem
  have fresh : ∀ x ∈ db.owners, x.2 ≠ id := by
    rintro x mem rfl
    exact unused (consistent.accounts x mem)
  refine { consistent with users := ?_, owned := ?_, accounts := ?_, walletAccounts := ?_
                           oldOwners := ?_, grown := ?_ }
  · exact injOn_concat consistent.users unowned
  · exact injOn_concat consistent.owned fresh
  · exact forall_mem_concat (fun x mem => more _ (consistent.accounts x mem))
      (by simp [SyncDb.addAccount])
  · exact fun w mem => more _ (consistent.walletAccounts w mem)
  · exact fun x mem => List.mem_append_left _ (consistent.oldOwners x mem)
  · exact consistent.grown_mono rfl (fun _ mem => List.mem_append_left _ mem) fun _ mem => mem

theorem Moves.addAccount (owner : (.owner userId, .update) ∈ held)
    (slot : (.store (.index "inference_billing_accounts_pkey" [id]), .update) ∈ held) :
    Moves o held db (db.addAccount userId id) := by
  refine { Moves.refl o held db with owners := ?_, newOwners := ?_, accounts := ?_
                                     newAccounts := ?_, newKeys := ?_ }
  · exact fun x mem => List.mem_append_left _ mem
  · exact forall_mem_concat (fun _ => .inl) (.inr owner)
  · exact fun a mem => ⟨a, List.mem_append_left _ mem, rfl⟩
  · exact forall_mem_concat (fun _ mem => .inl (List.mem_map_of_mem mem)) (.inr slot)
  · exact fun k mem => .inl mem

end YunhouUsers.Inference.WalletSync
