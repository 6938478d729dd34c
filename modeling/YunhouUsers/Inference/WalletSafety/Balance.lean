import YunhouUsers.Inference.Postgres.WalletLedger
import YunhouUsers.Inference.WalletSafety.Sessions

/-!
What a wallet loses is what was charged: the derived balance over whole sequences of holds.

The balance is nowhere stored, so the argument has two halves.  The ledger only moves by what the
settlements book, and once every hold of the sequence is closed the frozen part is back where it
was.
-/

namespace YunhouUsers.Inference.Postgres

open ReadCommitted Table Accounting

structure HoldsSound (holds : List WalletHold) : Prop where
  ids : (holds.map (·.id)).Nodup
  requests : (holds.map (·.requestId)).Nodup
  parts : ∀ h ∈ holds, 0 ≤ h.cash ∧ 0 ≤ h.bonus ∧ h.cash + h.bonus = h.amount

variable {hold : WalletHold}

structure Span (opened closed : List Uuid) (before after : List WalletHold) : Prop where
  sound : HoldsSound before → HoldsSound after
  fresh : ∀ r ∈ opened, ∀ h ∈ before, h.requestId ≠ r
  kept : ∀ h ∈ before, ∃ h' ∈ after, h'.requestId = h.requestId ∧ (h.state ≠ .held → h' = h)
  held : ∀ h ∈ before, h.state = .held → h.requestId ∉ closed → h ∈ after
  shut : ∀ r ∈ closed, ∃ h ∈ after, h.requestId = r ∧ h.state ≠ .held
  heldBefore : ∀ h ∈ after, h.state = .held → h ∈ before ∨ h.requestId ∈ opened

namespace Span

theorem refl (holds : List WalletHold) : Span [] [] holds holds :=
  ⟨fun s => s, by simp, fun h mem => ⟨h, mem, rfl, fun _ => rfl⟩, fun _ mem _ _ => mem, by simp,
    fun _ mem _ => .inl mem⟩

variable {opened opened' closed closed' : List Uuid} {before middle after : List WalletHold}

theorem trans (first : Span opened closed before middle)
    (second : Span opened' closed' middle after) :
    Span (opened ++ opened') (closed ++ closed') before after := by
  refine ⟨fun s => second.sound (first.sound s), ?_, ?_, ?_, ?_, ?_⟩
  · intro r mem h memh same
    rcases List.mem_append.mp mem with mem | mem
    · exact first.fresh r mem h memh same
    · obtain ⟨h', memh', same', -⟩ := first.kept h memh
      exact second.fresh r mem h' memh' (same'.trans same)
  · intro h memh
    obtain ⟨h', memh', same, closed⟩ := first.kept h memh
    obtain ⟨h'', memh'', same', closed'⟩ := second.kept h' memh'
    refine ⟨h'', memh'', same'.trans same, fun done => ?_⟩
    obtain rfl := closed done
    exact closed' done
  · intro h memh isHeld open_
    rw [List.mem_append, not_or] at open_
    exact second.held h (first.held h memh isHeld open_.1) isHeld open_.2
  · intro r mem
    rcases List.mem_append.mp mem with mem | mem
    · obtain ⟨h, memh, same, done⟩ := first.shut r mem
      obtain ⟨h', memh', same', stays⟩ := second.kept h memh
      obtain rfl := stays done
      exact ⟨h', memh', same, done⟩
    · exact second.shut r mem
  · intro h memh isHeld
    rcases second.heldBefore h memh isHeld with memh | memh
    · rcases first.heldBefore h memh isHeld with memh | memh
      · exact .inl memh
      · exact .inr (List.mem_append_left _ memh)
    · exact .inr (List.mem_append_right _ memh)

theorem held_iff (span : Span opened closed before after) (sound : HoldsSound before)
    (balanced : opened.Perm closed) (h : WalletHold) :
    h ∈ after ∧ h.state = .held ↔ h ∈ before ∧ h.state = .held := by
  constructor
  · rintro ⟨mem, isHeld⟩
    refine ⟨?_, isHeld⟩
    rcases span.heldBefore h mem isHeld with old | new
    · exact old
    · obtain ⟨h', mem', same, done⟩ := span.shut h.requestId (balanced.mem_iff.mp new)
      obtain rfl := eq_of_key (span.sound sound).requests mem' mem same
      exact absurd isHeld done
  · rintro ⟨mem, isHeld⟩
    refine ⟨span.held h mem isHeld ?_, isHeld⟩
    intro closed
    exact span.fresh h.requestId (balanced.mem_iff.mpr closed) h mem rfl

theorem total_held (span : Span opened closed before after) (sound : HoldsSound before)
    (balanced : opened.Perm closed) (f : WalletHold → Int)
    (zero : ∀ h, h.state ≠ .held → f h = 0) : total f after = total f before := by
  have only : ∀ holds : List WalletHold,
      total f holds = total f (holds.filter (·.state = .held)) := by
    intro holds
    rw [total_filter]
    refine total_congr fun h _ => ?_
    by_cases isHeld : h.state = .held <;> simp [isHeld, zero]
  have nodup : ∀ {holds}, HoldsSound holds → (holds.filter (·.state = .held)).Nodup :=
    fun s => (List.Nodup.of_map _ s.ids).filter _
  rw [only after, only before]
  refine total_perm f ((List.perm_ext_iff_of_nodup (nodup (span.sound sound)) (nodup sound)).mpr ?_)
  intro h
  simpa using span.held_iff sound balanced h

theorem concat {h : WalletHold}
    (parts : 0 ≤ h.cash ∧ 0 ≤ h.bonus ∧ h.cash + h.bonus = h.amount)
    (new : ∀ x ∈ before, x.id ≠ h.id ∧ x.requestId ≠ h.requestId) :
    Span [h.requestId] [] before (before ++ [h]) := by
  refine ⟨fun s => ⟨nodup_concat s.ids fun x mem => (new x mem).1,
    nodup_concat s.requests fun x mem => (new x mem).2, ?_⟩, ?_, ?_, ?_, by simp, ?_⟩
  · exact Table.forall_mem_concat s.parts parts
  · intro r mem x memx
    rw [List.mem_singleton.mp mem]
    exact (new x memx).2
  · intro x mem
    exact ⟨x, List.mem_append_left _ mem, rfl, fun _ => rfl⟩
  · intro x mem _ _
    exact List.mem_append_left _ mem
  · intro x mem _
    rcases List.mem_append.mp mem with mem | mem
    · exact .inl mem
    · exact .inr (by rw [List.mem_singleton.mp mem]; simp)

theorem close (mem : hold ∈ before) (isHeld : hold.state = .held)
    {p : WalletHold → Bool} {state : ReservationState} (final : state ≠ .held)
    (hits : ∀ h ∈ before, p h = true ↔ h = hold) :
    Span [] [hold.requestId] before (updateWhere p (fun h => { h with state := state }) before) := by
  have missed : ∀ h ∈ before, h ≠ hold →
      h ∈ updateWhere p (fun h => { h with state := state }) before := by
    intro h memh other
    refine mem_updateWhere.mpr ⟨h, memh, ?_⟩
    rw [if_neg (fun hit => other ((hits h memh).mp hit))]
  have hit : { hold with state := state } ∈
      updateWhere p (fun h => { h with state := state }) before := by
    refine mem_updateWhere.mpr ⟨hold, mem, ?_⟩
    rw [if_pos ((hits hold mem).mpr rfl)]
  refine ⟨fun s => ⟨?_, ?_, ?_⟩, by simp, ?_, ?_, ?_, ?_⟩
  · rw [map_updateWhere _ _ (fun h : WalletHold => h.id) (by intro; rfl)]
    exact s.ids
  · rw [map_updateWhere _ _ (fun h : WalletHold => h.requestId) (by intro; rfl)]
    exact s.requests
  · intro h memh
    obtain ⟨x, memx, rfl⟩ := mem_updateWhere.mp memh
    have := s.parts x memx
    split <;> exact this
  · intro h memh
    by_cases same : h = hold
    · subst same
      exact ⟨_, hit, rfl, fun done => absurd isHeld done⟩
    · exact ⟨h, missed h memh same, rfl, fun _ => rfl⟩
  · intro h memh _ open_
    refine missed h memh ?_
    rintro rfl
    simp at open_
  · intro r memr
    rw [List.mem_singleton.mp memr]
    exact ⟨_, hit, rfl, final⟩
  · intro h memh stillHeld
    obtain ⟨x, memx, rfl⟩ := mem_updateWhere.mp memh
    split at stillHeld
    · exact absurd stillHeld final
    · rename_i miss
      rw [if_neg miss]
      exact .inl memx

end Span

theorem Debits.append {w : Uuid} {cash bonus cash' bonus' : Int} {es es' : List WalletEntry}
    (d : Debits w cash bonus es) (d' : Debits w cash' bonus' es') :
    Debits w (cash + cash') (bonus + bonus') (es ++ es') := by
  refine ⟨?_, ?_, ?_⟩
  · intro e mem
    rcases List.mem_append.mp mem with mem | mem
    · exact d.wallet e mem
    · exact d'.wallet e mem
  · intro x source
    rw [total_append, d.credits, d'.credits]
    rfl
  · intro x
    rw [total_append, total_append, (d.debits x).1, (d.debits x).2, (d'.debits x).1,
      (d'.debits x).2]
    by_cases same : w = x <;> simp [same]

variable {db db' : Db}

theorem writeConsume_ok {currency : String} {source : WalletSource} {micros now : Int}
    (ran : (writeConsume hold currency source micros now).eval db = .ok ((), db')) :
    ∃ es, db' = { db with walletEntries := db.walletEntries ++ es } ∧
      Debits hold.walletId (if source = .cash then micros else 0)
        (if source = .bonus then micros else 0) es := by
  unfold writeConsume at ran
  split_ifs at ran with zero
  · cases ran
    refine ⟨[], by simp, ?_⟩
    simpa [zero] using Debits.nil hold.walletId
  · simp only [Txn.eval_bind_ok, check_ok, insertRow_ok] at ran
    obtain ⟨m, _, ⟨_, money, same⟩, _, same'⟩ := ran
    cases same
    cases same'
    have paid : m.micros = micros := by
      unfold newMoney at money
      split_ifs at money
      cases money
      rfl
    refine ⟨_, rfl, ?_⟩
    have booked := (Debits.nil hold.walletId).concat (e := consumeEntry hold source m now db) rfl rfl
    simpa [consumeEntry, paid] using booked

theorem settleWalletLocked_ok {requestId : Uuid} {charge : Money} {now : Int}
    (sound : HoldsSound db.walletHolds)
    (ran : (settleWalletLocked requestId charge now).eval db = .ok ((), db')) :
    ∃ hold split es, db.walletHolds.find? (·.requestId = requestId) = some hold ∧
      hold.state = .held ∧ splitConsume hold.cash hold.bonus charge.micros = .ok split ∧
      Debits hold.walletId (split.1 + split.2.2) split.2.1 es ∧
      db' = { db with
        walletEntries := db.walletEntries ++ es
        walletHolds := updateWhere (fun h => h.id = hold.id && h.state = .held)
          (fun h => { h with state := .settled }) db.walletHolds } := by
  simp only [settleWalletLocked, Txn.eval_bind_ok, Txn.eval_queryLocking, Txn.eval_orThrow_ok,
    Txn.eval_require_ok, check_ok, settleHold, updateRow_ok] at ran
  obtain ⟨_, _, read, ⟨hold, currency⟩, _, ⟨_, row, same⟩, _, _, ⟨-, same₁⟩, split, _,
    ⟨_, consumed, same₂⟩, _, db₁, bonus, _, db₂, cash, hit, same₃⟩ := ran
  cases read
  cases same
  cases same₁
  cases same₂
  cases same₃
  simp only [Option.bind_eq_some_iff, Option.map_eq_some_iff, Prod.mk.injEq] at row
  obtain ⟨_, found, _, _, rfl, -⟩ := row
  obtain ⟨es₁, rfl, debits₁⟩ := writeConsume_ok bonus
  obtain ⟨es₂, rfl, debits₂⟩ := writeConsume_ok cash
  refine ⟨_, split, es₁ ++ es₂, found, ?_, consumed, ?_, ?_⟩
  · obtain ⟨x, mem, same⟩ := List.any_eq_true.mp hit
    simp only [Bool.and_eq_true, decide_eq_true_eq] at same
    rw [← eq_of_key sound.ids mem (find_key found).1 same.1]
    exact same.2
  · simpa using debits₁.append debits₂
  · simp

theorem releaseWalletLocked_ok {requestId : Uuid}
    (ran : (releaseWalletLocked requestId).eval db = .ok ((), db')) :
    (∃ hold ∈ db.walletHolds, hold.requestId = requestId ∧ hold.state = .held) ∧
      db' = { db with
        walletHolds := updateWhere (fun h => h.requestId = requestId && h.state = .held)
          (fun h => { h with state := .released }) db.walletHolds } := by
  rw [releaseWalletLocked, Txn.eval_exec_ok] at ran
  obtain ⟨_, hit, same⟩ := ran
  cases same
  split_ifs at hit with any
  obtain ⟨hold, mem, same⟩ := List.any_eq_true.mp any
  simp only [Bool.and_eq_true, decide_eq_true_eq] at same
  exact ⟨⟨hold, mem, same⟩, rfl⟩

@[simp] theorem walletSumsLocked_eval (walletId : Uuid) (db : Db) :
    (walletSumsLocked walletId).eval db = .ok (db.book.sums walletId, db) := rfl

theorem reserveWallet_ok {cmd : ReserveWalletCommand} {holdId reservationId id : Uuid}
    (ran : (reserveWallet cmd holdId reservationId).eval db = .ok (id, db')) :
    ∃ hold : WalletHold, hold.requestId = cmd.request.id ∧
      (0 ≤ hold.cash ∧ 0 ≤ hold.bonus ∧ hold.cash + hold.bonus = hold.amount) ∧
      (∀ x ∈ db.walletHolds, x.id ≠ hold.id ∧ x.requestId ≠ hold.requestId) ∧
      db'.walletHolds = db.walletHolds ++ [hold] ∧ db'.walletEntries = db.walletEntries := by
  simp only [reserveWallet, lockWalletTx, walletSumsLocked_eval, monthSpendLocked, insertRequest,
    insertWalletHold, insertReservation, Txn.eval_bind_ok, Txn.eval_require_ok, lockAccountTx_ok,
    selectForUpdate_ok, Txn.eval_query, check_ok, insertRow_ok] at ran
  obtain ⟨_, _, ⟨-, h₁⟩, _, _, ⟨-, h₂⟩, wallet, _, ⟨_, -, h₃⟩, _, _, ⟨-, h₄⟩, sums, _, h₅, spent, _,
    h₆, _, _, ⟨_, -, h₇⟩, bal, _, ⟨_, -, h₈⟩, split, _, ⟨_, -, h₉⟩, _, _, ⟨-, h₁₀⟩, _, _,
    ⟨free, h₁₁⟩, _, _, ⟨-, h₁₂⟩, done⟩ := ran
  cases h₁; cases h₂; cases h₃; cases h₄; cases h₅; cases h₆; cases h₇; cases h₈; cases h₉
  cases h₁₀; cases h₁₁; cases h₁₂; cases done
  split_ifs at free
  obtain ⟨parts, new⟩ := holdViolation_none free
  exact ⟨_, rfl, parts, new, rfl, rfl⟩

namespace HoldOp

def opens : HoldOp → Option Uuid
  | .freeze cmd _ _ => some cmd.request.id
  | _ => none

def closes : HoldOp → Option Uuid
  | .settle requestId _ _ => some requestId
  | .release requestId => some requestId
  | .freeze .. => none

def charge : HoldOp → Option Int
  | .settle _ charge _ => some charge.micros
  | _ => none

end HoldOp

structure Booked where
  hold : WalletHold
  charge : Int
  cash : Int
  bonus : Int
deriving DecidableEq

def HoldOp.booked (db : Db) : HoldOp → Option Booked
  | .settle requestId charge _ =>
    match db.walletHolds.find? (·.requestId = requestId) with
    | none => none
    | some hold =>
      match splitConsume hold.cash hold.bonus charge.micros with
      | .ok (cash, bonus, extra) => some ⟨hold, charge.micros, cash + extra, bonus⟩
      | .error _ => none
  | _ => none

def runHolds : List HoldOp → Db → Except Err (List Booked × Db)
  | [], db => .ok ([], db)
  | op :: ops, db =>
    match op.tx.eval db with
    | .error e => .error e
    | .ok (_, db₁) => (runHolds ops db₁).map (fun r => ((op.booked db).toList ++ r.1, r.2))

structure Booked.Sound (b : Booked) : Prop where
  cash : 0 ≤ b.cash
  bonus : 0 ≤ b.bonus
  sum : b.cash + b.bonus = b.charge
  within : b.charge ≤ b.hold.amount → b.cash ≤ b.hold.cash ∧ b.bonus ≤ b.hold.bonus

theorem Booked.sound_of_split {charge : Int} {split : Int × Int × Int}
    (parts : 0 ≤ hold.cash ∧ 0 ≤ hold.bonus ∧ hold.cash + hold.bonus = hold.amount)
    (consumed : splitConsume hold.cash hold.bonus charge = .ok split) :
    Booked.Sound ⟨hold, charge, split.1 + split.2.2, split.2.1⟩ := by
  obtain ⟨cash, bonus, amount⟩ := parts
  have sums := splitConsume_parts cash bonus consumed
  refine ⟨?_, ?_, ?_, fun within => ?_⟩
  · dsimp only
    omega
  · dsimp only
    omega
  · dsimp only
    omega
  · have := splitConsume_within consumed cash bonus (amount ▸ within)
    dsimp only
    omega

def Booked.cashOf (w : Uuid) (b : Booked) : Int := if b.hold.walletId = w then b.cash else 0

def Booked.bonusOf (w : Uuid) (b : Booked) : Int := if b.hold.walletId = w then b.bonus else 0

def Booked.chargeOf (w : Uuid) (b : Booked) : Int := if b.hold.walletId = w then b.charge else 0

structure Moved (log : List Booked) (before after : List WalletEntry) : Prop where
  credits : ∀ w source, total (WalletEntry.part w source .credit) after =
    total (WalletEntry.part w source .credit) before
  cash : ∀ w, total (WalletEntry.part w .cash .debit) after =
    total (WalletEntry.part w .cash .debit) before + total (Booked.cashOf w) log
  bonus : ∀ w, total (WalletEntry.part w .bonus .debit) after =
    total (WalletEntry.part w .bonus .debit) before + total (Booked.bonusOf w) log

theorem Moved.refl (entries : List WalletEntry) : Moved [] entries entries :=
  ⟨fun _ _ => rfl, by simp, by simp⟩

variable {log : List Booked}

theorem Moved.trans {log' : List Booked} {before middle after : List WalletEntry}
    (first : Moved log before middle) (second : Moved log' middle after) :
    Moved (log ++ log') before after := by
  refine ⟨fun w source => (second.credits w source).trans (first.credits w source), ?_, ?_⟩
  · intro w
    rw [second.cash, first.cash, total_append, Int.add_assoc]
  · intro w
    rw [second.bonus, first.bonus, total_append, Int.add_assoc]

theorem Moved.debit {w : Uuid} {cash bonus : Int} {es entries : List WalletEntry}
    (d : Debits w cash bonus es) {b : Booked} (wallet : b.hold.walletId = w) (isCash : b.cash = cash)
    (isBonus : b.bonus = bonus) : Moved [b] entries (entries ++ es) := by
  refine ⟨?_, ?_, ?_⟩
  · intro x source
    rw [total_append, d.credits, Int.add_zero]
  · intro x
    rw [total_append, (d.debits x).1, total_cons, total_nil, Int.add_zero, Booked.cashOf, wallet,
      isCash]
  · intro x
    rw [total_append, (d.debits x).2, total_cons, total_nil, Int.add_zero, Booked.bonusOf, wallet,
      isBonus]

structure Effect (op : HoldOp) (log : List Booked) (db db' : Db) : Prop where
  span : Span op.opens.toList op.closes.toList db.walletHolds db'.walletHolds
  moved : Moved log db.walletEntries db'.walletEntries
  charges : log.map (·.charge) = op.charge.toList
  booked : ∀ b ∈ log, b.Sound

theorem HoldOp.effect {op : HoldOp} (sound : HoldsSound db.walletHolds)
    (ran : op.tx.eval db = .ok ((), db')) : Effect op (op.booked db).toList db db' := by
  cases op with
  | freeze cmd holdId reservationId =>
    simp only [HoldOp.tx, Txn.eval_bind_ok] at ran
    obtain ⟨id, db₁, reserved, done⟩ := ran
    cases done
    obtain ⟨hold, request, parts, new, holds, entries⟩ := reserveWallet_ok reserved
    refine ⟨?_, ?_, rfl, by simp [HoldOp.booked]⟩
    · rw [holds]
      simpa [HoldOp.opens, HoldOp.closes, request] using Span.concat parts new
    · rw [entries]
      exact Moved.refl _
  | settle requestId charge now =>
    obtain ⟨hold, split, es, found, isHeld, consumed, debits, rfl⟩ :=
      settleWalletLocked_ok sound ran
    obtain ⟨mem, request⟩ := find_key found
    have booked : (HoldOp.settle requestId charge now).booked db =
        some ⟨hold, charge.micros, split.1 + split.2.2, split.2.1⟩ := by
      simp only [HoldOp.booked, found, consumed]
    rw [booked]
    refine ⟨?_, Moved.debit debits rfl rfl rfl, rfl, ?_⟩
    · simp only [HoldOp.opens, HoldOp.closes, Option.toList_none, Option.toList_some]
      rw [← request]
      refine Span.close mem isHeld (by decide) fun h memh => ?_
      simp only [Bool.and_eq_true, decide_eq_true_eq]
      constructor
      · rintro ⟨same, -⟩
        exact eq_of_key sound.ids memh mem same
      · rintro rfl
        exact ⟨rfl, isHeld⟩
    · intro b memb
      rw [List.mem_singleton.mp memb]
      exact Booked.sound_of_split (sound.parts hold mem) consumed
  | release requestId =>
    obtain ⟨⟨hold, mem, request, isHeld⟩, rfl⟩ := releaseWalletLocked_ok ran
    refine ⟨?_, Moved.refl _, rfl, by simp [HoldOp.booked]⟩
    simp only [HoldOp.opens, HoldOp.closes, Option.toList_none, Option.toList_some]
    rw [← request]
    refine Span.close mem isHeld (by decide) fun h memh => ?_
    simp only [Bool.and_eq_true, decide_eq_true_eq]
    constructor
    · rintro ⟨same, -⟩
      exact eq_of_key sound.requests memh mem same
    · rintro rfl
      exact ⟨rfl, isHeld⟩

theorem runHolds_effect {ops : List HoldOp}
    (sound : HoldsSound db.walletHolds) (ran : runHolds ops db = .ok (log, db')) :
    Span (ops.filterMap HoldOp.opens) (ops.filterMap HoldOp.closes) db.walletHolds db'.walletHolds ∧
      Moved log db.walletEntries db'.walletEntries ∧
      log.map (·.charge) = ops.filterMap HoldOp.charge ∧ ∀ b ∈ log, b.Sound := by
  induction ops generalizing db log with
  | nil =>
    cases ran
    exact ⟨Span.refl _, Moved.refl _, rfl, by simp⟩
  | cons op ops ih =>
    unfold runHolds at ran
    split at ran
    · cases ran
    · rename_i db₁ step
      have effect := HoldOp.effect sound step
      obtain ⟨⟨log₁, last⟩, rest, same⟩ := Txn.map_ok.mp ran
      cases same
      obtain ⟨span, moved, charges, booked⟩ := ih (effect.span.sound sound) rest
      have split : ∀ f : HoldOp → Option Uuid,
          (op :: ops).filterMap f = (f op).toList ++ ops.filterMap f := by
        intro f
        cases is : f op <;> simp [is]
      refine ⟨?_, effect.moved.trans moved, ?_, ?_⟩
      · rw [split, split]
        exact effect.span.trans span
      · rw [List.map_append, effect.charges, charges]
        cases is : op.charge <;> simp [is]
      · intro b mem
        rcases List.mem_append.mp mem with mem | mem
        · exact effect.booked b mem
        · exact booked b mem

theorem total_booked (w : Uuid) (sound : ∀ b ∈ log, b.Sound) :
    total (Booked.chargeOf w) log = total (Booked.cashOf w) log + total (Booked.bonusOf w) log := by
  rw [← total_add]
  refine total_congr fun b mem => ?_
  have := (sound b mem).sum
  unfold Booked.chargeOf Booked.cashOf Booked.bonusOf
  split <;> omega

theorem deriveWalletBalance_valid {currency : String} (valid : validCurrency currency = true)
    (s : WalletSums) : deriveWalletBalance currency s = .ok
      { currency := currency
        cashAvailable := s.cashCredit - s.cashDebit - s.heldCash
        bonusAvailable := s.bonusCredit - s.bonusDebit - s.heldBonus
        cashHeld := s.heldCash
        bonusHeld := s.heldBonus } := by
  simp only [deriveWalletBalance, newMoney, valid]
  rfl

/-- Freezing and consuming split amounts without remainder, as long as the balances do not sum to
less than an `int64`, and over every sequence of freezes that
are all settled or released the wallet's balance falls, source by source, by exactly what the
settlements booked: by their charges in sum. -/
theorem wallet_split_conserved :
    (∀ bonusAvailable cashAvailable amount cash bonus : Int,
      -2 ^ 63 ≤ bonusAvailable + cashAvailable →
      splitFreeze bonusAvailable cashAvailable amount = .ok (cash, bonus) →
      0 ≤ cash ∧ 0 ≤ bonus ∧ cash + bonus = amount ∧ cash ≤ max cashAvailable 0 ∧
        bonus ≤ max bonusAvailable 0 ∧ (0 < cash → bonus = max bonusAvailable 0)) ∧
    (∀ holdCash holdBonus charge : Int, 0 ≤ holdCash → 0 ≤ holdBonus → 0 ≤ charge →
      charge ≤ holdCash + holdBonus → ∃ cash bonus,
        splitConsume holdCash holdBonus charge = .ok (cash, bonus, 0) ∧
        0 ≤ cash ∧ 0 ≤ bonus ∧ cash + bonus = charge ∧ cash ≤ holdCash ∧ bonus ≤ holdBonus ∧
        splitRelease holdCash holdBonus cash bonus = .ok (holdCash - cash, holdBonus - bonus)) ∧
    ∀ (ops : List HoldOp) (db db' : Db) (log : List Booked), HoldsSound db.walletHolds →
      runHolds ops db = .ok (log, db') →
      (ops.filterMap HoldOp.opens).Perm (ops.filterMap HoldOp.closes) →
      log.map (·.charge) = ops.filterMap HoldOp.charge ∧ (∀ b ∈ log, b.Sound) ∧
      ∀ w currency bal, deriveWalletBalance currency (db.book.sums w) = .ok bal →
        ∃ bal', deriveWalletBalance currency (db'.book.sums w) = .ok bal' ∧
          bal'.cashHeld = bal.cashHeld ∧ bal'.bonusHeld = bal.bonusHeld ∧
          bal'.cashAvailable = bal.cashAvailable - total (Booked.cashOf w) log ∧
          bal'.bonusAvailable = bal.bonusAvailable - total (Booked.bonusOf w) log ∧
          bal'.cashAvailable + bal'.bonusAvailable =
            bal.cashAvailable + bal.bonusAvailable - total (Booked.chargeOf w) log := by
  refine ⟨fun _ _ _ _ _ low ok => splitFreeze_parts low ok,
    fun _ _ _ cash bonus positive within => splitConsume_release cash bonus positive within, ?_⟩
  intro ops db db' log sound ran balanced
  obtain ⟨span, moved, charges, booked⟩ := runHolds_effect sound ran
  refine ⟨charges, booked, ?_⟩
  intro w currency bal derived
  have valid := (deriveWalletBalance_ok derived).1
  rw [deriveWalletBalance_valid valid] at derived
  cases derived
  have cashHeld : total (WalletHold.heldCash w) db'.walletHolds =
      total (WalletHold.heldCash w) db.walletHolds :=
    span.total_held sound balanced _ fun h free => by simp [WalletHold.heldCash, free]
  have bonusHeld : total (WalletHold.heldBonus w) db'.walletHolds =
      total (WalletHold.heldBonus w) db.walletHolds :=
    span.total_held sound balanced _ fun h free => by simp [WalletHold.heldBonus, free]
  have sum := total_booked w booked
  have cash := moved.cash w
  have bonus := moved.bonus w
  have credits := moved.credits w
  refine ⟨_, deriveWalletBalance_valid valid _, ?_⟩
  simp only [Db.book, WalletBook.sums, cashHeld, bonusHeld, cash, bonus, credits, true_and]
  refine ⟨?_, ?_, ?_⟩ <;> omega

def bonusDb : Db :=
  { accounts := [⟨1, .active⟩], entitlementIds := [2], wallets := [⟨4, 1, "CNY", true, some 1000⟩]
    walletEntries := [⟨0, 4, .topup, .credit, .cash, 100, "CNY", none, none, .topup 77, 0⟩,
      ⟨1, 4, .adjustment, .credit, .bonus, 30, "CNY", none, none, .adjustment "gift", 0⟩] }

def freezeIn (monthStart : Int) (requestId : Uuid) : ReserveWalletCommand :=
  { request :=
      { id := requestId, billingAccountId := 1, apiKeyId := none, entitlementId := 2
        policyVersionId := 5, priceVersionId := some 6, status := .reserved, admittedAt := none
        windowFiveHourId := none, windowWeeklyId := none, windowMonthlyId := none
        reservedMicros := none, settledMicros := none, chargeSource := .wallet
        usageStatus := .pending, lastError := "", completedAt := none }
    walletId := 4, holdMicros := 40, priceVersionId := some 6, admittedAt := monthStart
    monthStart := monthStart, monthEnd := monthStart + 10 }

def freezeForty (requestId : Uuid) : HoldOp :=
  .freeze (freezeIn 0 requestId) (requestId + 50) (requestId + 60)

theorem wallet_split_conserved_interleaved :
    let ops := [freezeForty 7, freezeForty 8, .settle 7 ⟨35, "CNY"⟩ 2, .release 8]
    ∃ log db' bal', runHolds ops bonusDb = .ok (log, db') ∧
      deriveWalletBalance "CNY" (db'.book.sums 4) = .ok bal' ∧
      bal'.cashAvailable + bal'.bonusAvailable = 130 - 35 := by
  intro ops
  have ran : ∃ r, runHolds ops bonusDb = .ok r ∧ r.1.map (fun b => b.chargeOf 4) = [35] :=
    ⟨_, rfl, by decide +kernel⟩
  obtain ⟨⟨log, db'⟩, ran, booked⟩ := ran
  have sound : HoldsSound bonusDb.walletHolds := ⟨List.nodup_nil, List.nodup_nil, by simp [bonusDb]⟩
  obtain ⟨-, -, derived⟩ := wallet_split_conserved.2.2 ops bonusDb db' log sound ran
    (List.Perm.refl [7, 8])
  obtain ⟨bal', derived', -, -, -, -, sum⟩ := derived 4 "CNY" ⟨"CNY", 100, 30, 0, 0⟩ (by rfl)
  refine ⟨log, db', bal', ran, derived', ?_⟩
  rw [sum, total, booked]
  rfl

/-- The sum of two negative balances wraps to a positive one, and cash is frozen that is not there. -/
theorem split_freeze_wraps :
    splitFreeze (-2 ^ 63) (-1) 5 = .ok (5, 0) ∧ ¬ (5 : Int) ≤ max (-1) 0 := by
  decide

end YunhouUsers.Inference.Postgres
