import Mathlib.Data.List.Dedup
import YunhouUsers.Inference.WalletSafety.Book
import YunhouUsers.Inference.WalletSync.Programs

/-!
Wallet sync is exactly once.

However workers interleave, fail or are killed, the ledger of a wallet ends as what it was and the
messages of its user, each business key once.
-/

namespace YunhouUsers.Inference.WalletSync

open ReadCommitted Table Postgres Accounting

def Origin.walletOf (o : Origin) (userId : Uuid) (currency : String) (id : Uuid) : Bool :=
  o.wallets.any fun w => w.id = id && w.currency = currency
    && o.owners.contains (userId, w.billingAccountId)

def Origin.posted (o : Origin) (userId : Uuid) (currency : String) (source : WalletSource)
    (direction : Direction) : Int :=
  total (fun e => if o.walletOf userId currency e.walletId = true ∧ e.source = source
    ∧ e.direction = direction then e.amount else 0) o.entries

def Origin.due (o : Origin) : List WalletSyncMessage :=
  o.messages.dedup.filter fun m => m.key ∉ o.entries.map fun e => some e.businessKey

def WalletSyncMessage.part (userId : Uuid) (currency : String) (direction : Direction)
    (m : WalletSyncMessage) : Int :=
  if m.userId = some userId ∧ m.currency = currency ∧ m.direction = direction then m.amountMicros
  else 0

def Origin.settled (o : Origin) (userId : Uuid) (currency : String) (heldCash heldBonus : Int) :
    WalletSums where
  cashCredit := o.posted userId currency .cash .credit
    + total (WalletSyncMessage.part userId currency .credit) o.due
  cashDebit := o.posted userId currency .cash .debit
    + total (WalletSyncMessage.part userId currency .debit) o.due
  bonusCredit := o.posted userId currency .bonus .credit
  bonusDebit := o.posted userId currency .bonus .debit
  heldCash := heldCash
  heldBonus := heldBonus

section Sums

variable {o : Origin} {db : SyncDb} {userId : Uuid} {w : Wallet}

theorem Consistent.wallet_eq (consistent : Consistent o db) (owns : db.Owns userId w) {w' : Wallet}
    (mem : w' ∈ db.store.wallets) : w'.id = w.id ↔
      (userId, w'.billingAccountId) ∈ db.owners ∧ w'.currency = w.currency := by
  constructor
  · intro same
    obtain rfl := List.inj_on_of_nodup_map consistent.walletIds mem owns.1 same
    exact ⟨owns.2, rfl⟩
  · rintro ⟨owner, currency⟩
    have accounts := congrArg Prod.snd (consistent.users _ owner _ owns.2 rfl)
    rw [consistent.currencies w' mem w owns.1 accounts currency]

variable {e : WalletEntry}

theorem Consistent.walletOf_iff (consistent : Consistent o db) (owns : db.Owns userId w)
    (mem : e ∈ o.entries) : e.walletId = w.id ↔ o.walletOf userId w.currency e.walletId = true := by
  obtain ⟨w', mem', same⟩ := o.booked e mem
  rw [← same, consistent.wallet_eq owns (consistent.oldWallets w' mem')]
  simp only [Origin.walletOf, List.any_eq_true, Bool.and_eq_true, decide_eq_true_eq,
    List.contains_iff_mem]
  constructor
  · rintro ⟨owner, currency⟩
    obtain ⟨userId', old⟩ := o.owned w' mem'
    obtain rfl := congrArg Prod.fst (consistent.owned _ owner _ (consistent.oldOwners _ old) rfl)
    exact ⟨w', mem', ⟨rfl, currency⟩, old⟩
  · rintro ⟨w'', mem'', ⟨id, currency⟩, owner⟩
    obtain rfl := List.inj_on_of_nodup_map consistent.walletIds (consistent.oldWallets w'' mem'')
      (consistent.oldWallets w' mem') id
    exact ⟨consistent.oldOwners _ owner, currency⟩

theorem Consistent.total_old (consistent : Consistent o db) (owns : db.Owns userId w)
    (source : WalletSource) (direction : Direction) :
    total (WalletEntry.part w.id source direction) o.entries
      = o.posted userId w.currency source direction := by
  apply total_congr
  intro e mem
  simp only [WalletEntry.part, consistent.walletOf_iff owns mem]

variable {m : WalletSyncMessage}

theorem Books.part_eq (consistent : Consistent o db) (owns : db.Owns userId w)
    (books : Books db m e) (direction : Direction) :
    m.part userId w.currency direction = WalletEntry.part w.id .cash direction e := by
  obtain ⟨userId', w', user, owns', id, currency⟩ := books.wallet
  have here : e.walletId = w.id ↔ m.userId = some userId ∧ m.currency = w.currency := by
    rw [← id, consistent.wallet_eq owns owns'.1, user, currency, Option.some.injEq]
    apply and_congr_left
    intro _
    constructor
    · exact fun owner => congrArg Prod.fst (consistent.owned _ owns'.2 _ owner rfl)
    · rintro rfl
      exact owns'.2
  simp only [WalletSyncMessage.part, WalletEntry.part, here, books.source, books.direction,
    books.amount, true_and, and_assoc]

theorem Books.part_bonus (books : Books db m e)
    (direction : Direction) : WalletEntry.part w.id .bonus direction e = 0 := by
  simp [WalletEntry.part, books.source]

def SyncDb.AllDelivered (db : SyncDb) : Prop :=
  ∀ r ∈ db.outbox, r.topic = topicWalletSync → r.status = .delivered

theorem Consistent.booked_of_delivered (consistent : Consistent o db) (all : db.AllDelivered)
    (message : m ∈ o.messages) : ∃ k, m.key = some k ∧ k ∈ keysOf db := by
  obtain ⟨row, mem, payload⟩ := List.mem_filterMap.mp message
  obtain ⟨listed, topic⟩ := List.mem_filter.mp mem
  rw [← consistent.rows] at listed
  obtain ⟨r, here, rfl⟩ := List.mem_map.mp listed
  have topic : r.topic = topicWalletSync := of_decide_eq_true topic
  obtain ⟨m', k, payload', key, booked⟩ := consistent.delivered r here topic (all r here topic)
  obtain rfl : m' = m := Option.some.inj (payload'.symm.trans payload)
  exact ⟨k, key, booked⟩

theorem Origin.mem_due :
    m ∈ o.due ↔ m ∈ o.messages ∧ m.key ∉ o.entries.map fun e => some e.businessKey := by
  simp [Origin.due]

theorem Consistent.total_new (consistent : Consistent o db) (agrees : o.Agrees)
    (all : db.AllDelivered) {new : List WalletEntry}
    (grown : db.store.walletEntries = o.entries ++ new)
    {f : WalletEntry → Int} {g : WalletSyncMessage → Int}
    (booked : ∀ e ∈ new, ∃ m ∈ o.messages, m.key = some e.businessKey ∧ g m = f e) :
    total f new = total g o.due := by
  have keys := consistent.keys
  simp only [keysOf, grown, List.map_append, List.nodup_append] at keys
  obtain ⟨-, unique, apart⟩ := keys
  have unique := unique.map (Option.some_injective _)
  rw [List.map_map] at unique
  have distinct : (o.due.map WalletSyncMessage.key).Nodup := by
    apply List.Nodup.map_on _ ((List.nodup_dedup _).filter _)
    intro m mem m' mem' same
    have message := (Origin.mem_due.mp mem).1
    obtain ⟨k, key, -⟩ := consistent.booked_of_delivered all message
    exact agrees m message m' (Origin.mem_due.mp mem').1 k key (same ▸ key)
  apply total_eq_of_keys unique distinct
  · intro e mem
    obtain ⟨m, message, key, value⟩ := booked e mem
    refine ⟨m, Origin.mem_due.mpr ⟨message, ?_⟩, key, value⟩
    rw [key]
    intro old
    obtain ⟨e', mem', same⟩ := List.mem_map.mp old
    exact apart _ (List.mem_map_of_mem mem') _ (List.mem_map_of_mem mem) (Option.some.inj same)
  · intro m due
    obtain ⟨message, fresh⟩ := Origin.mem_due.mp due
    obtain ⟨k, key, booked⟩ := consistent.booked_of_delivered all message
    rw [keysOf, grown, List.map_append, List.mem_append] at booked
    rcases booked with old | new
    · obtain ⟨e, mem, rfl⟩ := List.mem_map.mp old
      exact absurd (List.mem_map.mpr ⟨e, mem, key.symm⟩) fresh
    · obtain ⟨e, mem, rfl⟩ := List.mem_map.mp new
      exact ⟨e, mem, key.symm⟩

theorem Consistent.sums_eq (consistent : Consistent o db) (agrees : o.Agrees)
    (all : db.AllDelivered) (owns : db.Owns userId w) :
    db.store.book.sums w.id
      = o.settled userId w.currency (db.store.heldCash w.id) (db.store.heldBonus w.id) := by
  obtain ⟨new, grown, booked⟩ := consistent.grown
  have cash : ∀ direction, total (WalletEntry.part w.id .cash direction) new
      = total (WalletSyncMessage.part userId w.currency direction) o.due := by
    intro direction
    apply consistent.total_new agrees all grown
    intro e mem
    obtain ⟨m, message, books⟩ := booked e mem
    exact ⟨m, message, books.key, books.part_eq consistent owns direction⟩
  have bonus : ∀ direction, total (WalletEntry.part w.id .bonus direction) new = 0 := by
    intro direction
    apply total_eq_zero
    intro e mem
    obtain ⟨m, -, books⟩ := booked e mem
    exact books.part_bonus direction
  simp only [WalletBook.sums, Db.book, grown, total_append, consistent.total_old owns, cash, bonus,
    add_zero]
  rfl

end Sums

structure Start (o : Origin) (db : SyncDb) : Prop extends Keyed db where
  rows : db.outbox.map OutboxRow.identity = o.rows
  owners : db.owners = o.owners
  wallets : db.store.wallets = o.wallets
  entries : db.store.walletEntries = o.entries
  pending : ∀ r ∈ db.outbox, r.topic = topicWalletSync → r.status = .pending

theorem Start.consistent {o : Origin} {db : SyncDb} (start : Start o db) : Consistent o db :=
  { start with
    oldOwners := fun x mem => start.owners ▸ mem
    oldWallets := fun w mem => start.wallets ▸ mem
    grown := ⟨[], by simp [start.entries], nofun⟩
    delivered := fun r mem topic status => nomatch (start.pending r mem topic).symm.trans status
    unfailed := fun r mem topic status => nomatch (start.pending r mem topic).symm.trans status }

def SyncDb.Awaits (db : SyncDb) (r : OutboxRow) : Prop :=
  ∀ limit now : Int, db.outbox.length ≤ limit → (∀ at_, r.nextRetryAt = some at_ → at_ ≤ now) →
    ∃ rows, (fetchPendingOutboxByTopic topicWalletSync limit now).eval db = .ok (rows, db)
      ∧ r ∈ rows

theorem Consistent.awaits {o : Origin} {db : SyncDb} (consistent : Consistent o db) {r : OutboxRow}
    (mem : r ∈ db.outbox) (topic : r.topic = topicWalletSync) (open_ : r.status ≠ .delivered) :
    db.Awaits r := by
  intro limit now room due
  have positive : ¬ limit ≤ 0 := by
    have := List.length_pos_of_mem mem
    omega
  refine ⟨_, rfl, ?_⟩
  beta_reduce
  unfold SyncStore.fetchPendingOutboxByTopic
  rw [if_neg positive, List.take_of_length_le]
  · rw [mem_sortStable, List.mem_filter]
    refine ⟨mem, ?_⟩
    have status : r.status = .pending := by
      cases status : r.status with
      | pending => rfl
      | delivered => exact absurd status open_
      | failed => exact absurd status (consistent.unfailed r mem topic)
    simp only [status, topic, decide_true, Bool.true_and, Bool.and_true]
    split
    · rfl
    · rename_i at_ next
      exact decide_eq_true (due at_ next)
  · rw [sortStable, List.length_insertionSort]
    apply (List.length_filter_le _ _).trans
    omega

theorem wallet_sync_exactly_once {ι η : Type} [DecidableEq ι] {env : η → SyncDb → SyncDb}
    {o : Origin} {db : SyncDb} {c : Config SyncDb SyncKey Label Unit ι} (agrees : o.Agrees)
    (start : Start o db) (cfg : ι → SyncConfig) (passes : ι → List PassWeather)
    (outside : Config.EnvAllowed (syncTerms o).toDiscipline env) (as : List (Action ι η))
    (unused : (Config.start db fun i => worker (cfg i) (passes i)).Along env
      (Config.Ready (syncTerms o)) as)
    (ran : (Config.start db fun i => worker (cfg i) (passes i)).run env as = some c) :
    -- Every business key changes the ledger at most once.
    ((keysOf c.db).Nodup ∧ ∃ new, c.db.store.walletEntries = o.entries ++ new ∧
      ∀ e ∈ new, ∃ m ∈ o.messages, Books c.db m e) ∧
    -- A message is delivered only if its entry is in the ledger.
    (∀ r ∈ c.db.outbox, r.topic = topicWalletSync → r.status = .delivered →
      ∃ m k, r.payload = some m ∧ m.key = some k ∧ k ∈ keysOf c.db) ∧
    -- No message is lost.
    (c.db.outbox.map OutboxRow.identity = db.outbox.map OutboxRow.identity ∧
      ∀ r ∈ c.db.outbox, r.topic = topicWalletSync → r.status = .delivered ∨ c.db.Awaits r) ∧
    -- What is delivered comes to the same sums in any order.
    (c.db.AllDelivered → ∀ userId w, c.db.Owns userId w → c.db.store.book.sums w.id
      = o.settled userId w.currency (c.db.store.heldCash w.id) (c.db.store.heldBonus w.id)) := by
  have consistent : Consistent o c.db := Config.inv_run (fun _ _ _ _ => trivial) start.consistent
    outside (fun i => worker_follows agrees (passes i)) unused ran
  refine ⟨⟨consistent.keys, consistent.grown⟩, consistent.delivered, ⟨?_, ?_⟩, ?_⟩
  · rw [consistent.rows, start.rows]
  · intro r mem topic
    by_cases delivered : r.status = .delivered
    · exact .inl delivered
    · exact .inr (consistent.awaits mem topic delivered)
  · intro all userId w owns
    exact consistent.sums_eq agrees all owns

def firstTopup : WalletSyncMessage := ⟨.topup, some 1, some 7, none, 100, "CNY"⟩

def firstOutbox : SyncDb :=
  { store := {}, owners := []
    outbox := [⟨0, topicWalletSync, some firstTopup, .pending, 0, none⟩] }

def firstOrigin : Origin :=
  ⟨[(0, topicWalletSync, some firstTopup)], by decide, [], [], nofun, [], nofun⟩

def pair (second : Bool) : SyncProc :=
  worker ⟨100, 0⟩ [⟨0, none, fun _ =>
    { accountId := cond second 11 10, walletId := cond second 21 20, now := 0 }⟩]

def bothFetched : List (ReadCommitted.Action Bool Unit) :=
  [false, false, true, true].map .step ++ List.replicate 9 (.step false)
    ++ List.replicate 12 (.step true)

def firstBooked : SyncDb :=
  { store := { accounts := [⟨10, .active⟩], wallets := [⟨20, 10, "CNY", false, none⟩]
               walletEntries := [⟨0, 20, .topup, .credit, .cash, 100, "CNY", none, none,
                 .topup 7, 0⟩] }
    owners := [(1, 10)]
    outbox := [⟨0, topicWalletSync, some firstTopup, .delivered, 0, none⟩] }

theorem pair_run : ((Config.start firstOutbox pair).run (fun _ db => db) bothFetched).map (·.db)
    = some firstBooked := by decide +kernel

instance (o : Origin) (l : Label) (db : SyncDb) : Decidable ((syncTerms o).ready l db) :=
  inferInstanceAs (Decidable (Unused l db))

theorem pair_unused : (Config.start firstOutbox pair).Along (fun (_ : Unit) db => db)
    (Config.Ready (syncTerms firstOrigin)) bothFetched := by decide +kernel

theorem firstOutbox_start : Start firstOrigin firstOutbox where
  rows := rfl
  owners := rfl
  wallets := rfl
  entries := rfl
  pending := by decide
  users := nofun
  owned := nofun
  accounts := nofun
  walletIds := List.nodup_nil
  walletAccounts := nofun
  currencies := nofun
  keys := List.nodup_nil

theorem pair_books_once : ∃ c, (Config.start firstOutbox pair).run (fun (_ : Unit) db => db)
      bothFetched = some c ∧ c.db.AllDelivered ∧ keysOf c.db = [.topup 7] ∧
    c.db.Owns 1 ⟨20, 10, "CNY", false, none⟩ ∧ c.db.store.book.sums 20 = ⟨100, 0, 0, 0, 0, 0⟩ := by
  obtain ⟨c, ran, same⟩ := Option.map_eq_some_iff.mp pair_run
  have all : c.db.AllDelivered := by
    rw [same]
    unfold SyncDb.AllDelivered
    decide
  have owns : c.db.Owns 1 ⟨20, 10, "CNY", false, none⟩ := by
    rw [same]
    exact ⟨by decide, by decide⟩
  have agrees : firstOrigin.Agrees := by
    unfold Origin.Agrees
    intro m mem m' mem' _ _ _
    rw [List.mem_singleton.mp mem, List.mem_singleton.mp mem']
  refine ⟨c, ran, all, by rw [same]; rfl, owns, ?_⟩
  have sums := (wallet_sync_exactly_once agrees firstOutbox_start (fun _ => ⟨100, 0⟩) _
    (fun _ db consistent => ⟨consistent, Moves.refl _ _ db⟩) bothFetched pair_unused ran).2.2.2
    all 1 _ owns
  rw [sums, same]
  decide

end YunhouUsers.Inference.WalletSync
