import YunhouUsers.History
import YunhouUsers.Inference.Postgres.Lease

/-!
What the lease table keeps over any sequence of lease calls.

Apart from the one row an acquisition adds, a call only takes rows away or ages them: a row
keeps its id, its scope and its credentials, and never becomes `held` again.
-/

namespace YunhouUsers.Inference.Postgres

open ReadCommitted Table

inductive LeaseCall where
  | acquire (cmd : AcquireLeaseCommand) (newId : Uuid) (newOwner : String) (clock : Int)
  | renew (id : Uuid) (ownerToken : String) (fencing newExpiresAt : Int)
  | release (id : Uuid) (ownerToken : String) (fencing now : Int)
  | check (id : Uuid) (ownerToken : String) (fencing : Int) (now : Option Int) (clock : Int)
  | deleteTerminal (cutoff limit : Int) (tie : Uuid → Nat)

def LeaseCall.commit : LeaseCall → Db → Db
  | .acquire cmd newId newOwner clock => (acquireLeaseTx cmd newId newOwner clock).apply
  | .renew id ownerToken fencing newExpiresAt =>
    (renewLease id ownerToken fencing newExpiresAt).apply
  | .release id ownerToken fencing now => (releaseLease id ownerToken fencing now).apply
  | .check id ownerToken fencing now clock => (checkLease id ownerToken fencing now clock).apply
  | .deleteTerminal cutoff limit tie => (deleteTerminalLeases cutoff limit tie).apply

def runLeases (db : Db) (calls : List LeaseCall) : Db :=
  calls.foldl (fun db call => call.commit db) db

structure Ages (old new : ConcurrencyLease) : Prop where
  id : new.id = old.id
  scope : new.scope = old.scope
  scopeId : new.scopeId = old.scopeId
  requestId : new.requestId = old.requestId
  ownerToken : new.ownerToken = old.ownerToken
  fencingToken : new.fencingToken = old.fencingToken
  held : new.state = .held → old.state = .held

theorem Ages.refl (l : ConcurrencyLease) : Ages l l := ⟨rfl, rfl, rfl, rfl, rfl, rfl, fun h => h⟩

def Wanes (old new : List ConcurrencyLease) : Prop :=
  ∃ age : ConcurrencyLease → ConcurrencyLease, (∀ l, Ages l (age l)) ∧ new.Sublist (old.map age)

theorem Wanes.refl (rows : List ConcurrencyLease) : Wanes rows rows :=
  ⟨id, Ages.refl, by simp⟩

theorem wanes_updateWhere {p : ConcurrencyLease → Bool} {f : ConcurrencyLease → ConcurrencyLease}
    (ages : ∀ l, p l = true → Ages l (f l)) (rows : List ConcurrencyLease) :
    Wanes rows (updateWhere p f rows) := by
  refine ⟨fun l => if p l then f l else l, fun l => ?_, List.Sublist.refl _⟩
  dsimp only
  split
  · rename_i hit
    exact ages l hit
  · exact Ages.refl l

theorem wanes_filter (p : ConcurrencyLease → Bool) (rows : List ConcurrencyLease) :
    Wanes rows (rows.filter p) :=
  ⟨id, Ages.refl, by simp⟩

variable {old new : List ConcurrencyLease} {l : ConcurrencyLease}

theorem Wanes.mem (wanes : Wanes old new) (mem : l ∈ new) : ∃ l₀ ∈ old, Ages l₀ l := by
  obtain ⟨age, ages, sub⟩ := wanes
  obtain ⟨l₀, mem₀, rfl⟩ := List.mem_map.mp (sub.subset mem)
  exact ⟨l₀, mem₀, ages l₀⟩

theorem Wanes.tokens (wanes : Wanes old new) (scope : LeaseScope) (scopeId : Uuid) :
    ((new.filter (ofScope scope scopeId)).map (·.fencingToken)).Sublist
      ((old.filter (ofScope scope scopeId)).map (·.fencingToken)) := by
  obtain ⟨age, ages, sub⟩ := wanes
  have inScope : ∀ l, ofScope scope scopeId (age l) = ofScope scope scopeId l := fun l => by
    simp [ofScope, (ages l).scope, (ages l).scopeId]
  have token : ∀ l, (age l).fencingToken = l.fencingToken := fun l => (ages l).fencingToken
  have kept := (sub.filter (ofScope scope scopeId)).map (·.fencingToken)
  simpa only [List.filter_map, List.map_map, Function.comp_def, inScope, token] using kept

theorem Wanes.held_le (wanes : Wanes old new) (scope : LeaseScope) (scopeId : Uuid) :
    (new.filter (fun l => ofScope scope scopeId l && l.state = .held)).length ≤
      (old.filter (fun l => ofScope scope scopeId l && l.state = .held)).length := by
  obtain ⟨age, ages, sub⟩ := wanes
  refine (sub.filter _).length_le.trans ?_
  rw [List.filter_map, List.length_map]
  refine (List.monotone_filter_right old fun l => ?_).length_le
  simp only [Function.comp_def, Bool.and_eq_true, decide_eq_true_eq]
  rintro ⟨inScope, held⟩
  refine ⟨?_, (ages l).held held⟩
  simpa [ofScope, (ages l).scope, (ages l).scopeId] using inScope

variable (cmd : AcquireLeaseCommand)

def reclaimed (clock : Int) (db : Db) : Db :=
  { db with
    leases := updateWhere (reclaimable cmd.scope cmd.scopeId (cmd.now.getD clock))
      (fun l => { l with state := .expired }) db.leases }

theorem reclaimed_wanes (clock : Int) (db : Db) :
    Wanes db.leases (reclaimed cmd clock db).leases := by
  refine wanes_updateWhere (fun l _ => ?_) _
  exact ⟨rfl, rfl, rfl, rfl, rfl, rfl, by simp⟩

def grantedLease (newId : Uuid) (newOwner : String) (clock : Int) (db : Db) : ConcurrencyLease :=
  { id := newId, scope := cmd.scope, scopeId := cmd.scopeId, requestId := cmd.requestId
    ownerToken := if cmd.ownerToken = "" then newOwner else cmd.ownerToken
    fencingToken := maxFencing cmd.scope cmd.scopeId (reclaimed cmd clock db) + 1
    state := .held, acquiredAt := cmd.now.getD clock, expiresAt := cmd.now.getD clock + cmd.ttl
    releasedAt := none }

variable {db : Db}

theorem acquireLeaseTx_ok {cmd : AcquireLeaseCommand} {newId : Uuid} {newOwner : String}
    {clock : Int} {db' : Db}
    (ok : (acquireLeaseTx cmd newId newOwner clock).eval db = .ok (l, db')) :
    ((heldLeases cmd.scope cmd.scopeId (reclaimed cmd clock db)).length : Int) < cmd.limit ∧
    leaseViolation l (reclaimed cmd clock db) = none ∧
    l = grantedLease cmd newId newOwner clock db ∧
    db' = { reclaimed cmd clock db with leases := (reclaimed cmd clock db).leases ++ [l] } := by
  unfold acquireLeaseTx at ok
  simp only [Txn.eval_bind_ok, Txn.eval_require_ok, Txn.eval_queryLocking, Txn.eval_exec_ok,
    Txn.eval_query, insertLease, insertRow_ok, Txn.eval_pure, Except.ok.injEq, Prod.mk.injEq,
    and_assoc, exists_and_left, exists_eq_left, exists_eq_left', true_and, exists_const,
    decide_eq_true_eq] at ok
  obtain ⟨_, _, room, clean, rfl, rfl⟩ := ok
  exact ⟨room, clean, rfl, rfl⟩

theorem leaseViolation_none (token : 0 < l.fencingToken)
    (lasts : l.acquiredAt < l.expiresAt) (fresh : ∀ x ∈ db.leases, x.id ≠ l.id)
    (first : ∀ x ∈ db.leases, x.scope = l.scope → x.scopeId = l.scopeId →
      x.requestId ≠ l.requestId)
    (known : l.requestId ∈ db.requests.map (·.id)) : leaseViolation l db = none := by
  unfold leaseViolation
  split_ifs with h₁ h₂ h₃ h₄ h₅
  · omega
  · omega
  · obtain ⟨x, mem, same⟩ := List.any_eq_true.mp h₃
    exact absurd (of_decide_eq_true same) (fresh x mem)
  · obtain ⟨x, mem, same⟩ := List.any_eq_true.mp h₄
    simp only [ofScope, Bool.and_eq_true, decide_eq_true_eq] at same
    exact absurd same.2 (first x mem same.1.1 same.1.2)
  · obtain ⟨q, mem, key⟩ := List.mem_map.mp known
    simp only [Bool.not_eq_true', List.any_eq_false, decide_eq_true_eq] at h₅
    exact absurd key (h₅ q mem)
  · rfl

theorem acquireLeaseTx_error {cmd : AcquireLeaseCommand} {newId : Uuid} {newOwner : String}
    {clock : Int} {e : Err} (limit : 0 < cmd.limit) (ttl : 0 < cmd.ttl)
    (failed : (acquireLeaseTx cmd newId newOwner clock).eval db = .error e) :
    (∃ message, e = .domain .insufficientCapacity message) ∨
      ∃ v, leaseViolation (grantedLease cmd newId newOwner clock db) (reclaimed cmd clock db) =
        some v := by
  unfold acquireLeaseTx at failed
  simp only [Txn.eval_bind_error, Txn.eval_require_error, Txn.eval_require_ok,
    Txn.eval_queryLocking, Txn.eval_exec, Txn.eval_query, insertLease, insertRow_error,
    insertRow_ok, Txn.eval_pure, Except.ok.injEq, Prod.mk.injEq, and_assoc, exists_and_left,
    exists_eq_left, exists_eq_left', true_and, exists_const, decide_eq_false_iff_not,
    decide_eq_true_eq, limit, ttl, not_true_eq_false, false_and, false_or, reduceCtorEq,
    or_false, and_false, exists_false, Except.map] at failed
  rcases failed with ⟨_, rfl⟩ | ⟨_, v, clash, _⟩
  · exact .inl ⟨_, rfl⟩
  · exact .inr ⟨v, clash⟩

theorem LeaseCall.commit_cases (call : LeaseCall) (db : Db) :
    ∃ kept, Wanes db.leases kept ∧ (call.commit db = { db with leases := kept } ∨
      ∃ cmd newId newOwner clock l, call = .acquire cmd newId newOwner clock ∧
        call.commit db = { db with leases := kept ++ [l] } ∧
        l = grantedLease cmd newId newOwner clock db ∧
        (heldLeases cmd.scope cmd.scopeId { db with leases := kept }).length < cmd.limit ∧
        l.fencingToken = maxFencing cmd.scope cmd.scopeId { db with leases := kept } + 1) := by
  have idle : ∃ kept, Wanes db.leases kept ∧ db = { db with leases := kept } :=
    ⟨db.leases, Wanes.refl _, rfl⟩
  have waning : ∀ t : Tx Unit, (∀ a db', t.eval db = .ok (a, db') →
      ∃ kept, Wanes db.leases kept ∧ db' = { db with leases := kept }) →
      ∃ kept, Wanes db.leases kept ∧ t.apply db = { db with leases := kept } := fun t ran =>
    Txn.apply_preserves t (fun s => ∃ kept, Wanes db.leases kept ∧ s = { db with leases := kept })
      db idle ran
  cases call with
  | acquire cmd newId newOwner clock =>
    cases outcome : (acquireLeaseTx cmd newId newOwner clock).eval db with
    | error e => exact ⟨db.leases, Wanes.refl _, .inl (Txn.apply_of_error outcome)⟩
    | ok r =>
      obtain ⟨l, db'⟩ := r
      obtain ⟨room, _, rfl, rfl⟩ := acquireLeaseTx_ok outcome
      exact ⟨(reclaimed cmd clock db).leases, reclaimed_wanes cmd clock db,
        .inr ⟨cmd, newId, newOwner, clock, _, rfl, Txn.apply_of_ok outcome, rfl, room, rfl⟩⟩
  | renew id ownerToken fencing newExpiresAt =>
    obtain ⟨kept, wanes, effect⟩ := waning (renewLease id ownerToken fencing newExpiresAt) <| by
      intro _ db' ran
      obtain ⟨_, _, h⟩ := (Txn.eval_exec_ok _ _ _ _ _ _).mp ran
      cases h
      refine ⟨_, wanes_updateWhere (fun l _ => ?_) _, rfl⟩
      exact ⟨rfl, rfl, rfl, rfl, rfl, rfl, fun h => h⟩
    exact ⟨kept, wanes, .inl effect⟩
  | release id ownerToken fencing now =>
    obtain ⟨kept, wanes, effect⟩ := waning (releaseLease id ownerToken fencing now) <| by
      intro _ db' ran
      obtain ⟨_, h⟩ := updateRow_ok.mp ran
      cases h
      refine ⟨_, wanes_updateWhere (fun l _ => ?_) _, rfl⟩
      exact ⟨rfl, rfl, rfl, rfl, rfl, rfl, by simp⟩
    exact ⟨kept, wanes, .inl effect⟩
  | check id ownerToken fencing now clock =>
    obtain ⟨kept, wanes, effect⟩ := waning (checkLease id ownerToken fencing now clock) <| by
      intro _ db' ran
      simp only [checkLease, Txn.eval_bind_ok, selectOne_ok, Txn.eval_require_ok] at ran
      obtain ⟨_, _, ⟨_, _, ⟨⟩⟩, _, _, ⟨_, ⟨⟩⟩, _, ⟨⟩⟩ := ran
      exact idle
    exact ⟨kept, wanes, .inl effect⟩
  | deleteTerminal cutoff limit tie =>
    obtain ⟨kept, wanes, effect⟩ := waning (deleteTerminalLeases cutoff limit tie) <| by
      intro _ db' ran
      unfold deleteTerminalLeases at ran
      obtain ⟨_, _, h⟩ := (Txn.eval_exec_ok _ _ _ _ _ _).mp ran
      cases h
      exact ⟨_, wanes_filter _ _, rfl⟩
    exact ⟨kept, wanes, .inl effect⟩

theorem LeaseCall.mem_commit {call : LeaseCall} (mem : l ∈ (call.commit db).leases) :
    (∃ l₀ ∈ db.leases, Ages l₀ l) ∨ ∃ cmd newId newOwner clock,
      call = .acquire cmd newId newOwner clock ∧ l = grantedLease cmd newId newOwner clock db ∧
      ∃ kept, Wanes db.leases kept ∧
        l.fencingToken = maxFencing cmd.scope cmd.scopeId { db with leases := kept } + 1 := by
  obtain ⟨kept, wanes, effect | ⟨cmd, newId, newOwner, clock, new, same, effect, granted, _, token⟩⟩ :=
    call.commit_cases db
  · rw [effect] at mem
    exact .inl (wanes.mem mem)
  · rw [effect, List.mem_append, List.mem_singleton] at mem
    rcases mem with old | rfl
    · exact .inl (wanes.mem old)
    · exact .inr ⟨cmd, newId, newOwner, clock, same, granted, kept, wanes, token⟩

variable {scope : LeaseScope} {scopeId : Uuid}

theorem le_maxFencing (mem : l ∈ db.leases) (inScope : ofScope scope scopeId l = true) :
    l.fencingToken ≤ maxFencing scope scopeId db := by
  have token : l.fencingToken ∈
      (db.leases.filter (ofScope scope scopeId)).map (·.fencingToken) :=
    List.mem_map_of_mem (List.mem_filter.mpr ⟨mem, inScope⟩)
  obtain ⟨top, largest⟩ := Option.isSome_iff_exists.mp (List.isSome_max?_of_mem token)
  rw [maxFencing, largest]
  exact (List.max?_eq_some_iff.mp largest).2 _ token

structure Db.LeasesBounded (scope : LeaseScope) (scopeId : Uuid) (L : Nat) (db : Db) : Prop where
  room : (heldLeases scope scopeId db).length ≤ L
  tokens : ((db.leases.filter (ofScope scope scopeId)).map (·.fencingToken)).Nodup

def LeaseCall.LimitIs (scope : LeaseScope) (scopeId : Uuid) (L : Nat) : LeaseCall → Prop
  | .acquire cmd _ _ _ => cmd.scope = scope → cmd.scopeId = scopeId → cmd.limit = L
  | _ => True

theorem Db.LeasesBounded.wanes {L : Nat} {db' : Db}
    (bounded : db.LeasesBounded scope scopeId L) (wanes : Wanes db.leases db'.leases) :
    db'.LeasesBounded scope scopeId L :=
  ⟨(wanes.held_le scope scopeId).trans bounded.room,
    bounded.tokens.sublist (wanes.tokens scope scopeId)⟩

theorem Db.LeasesBounded.commit {L : Nat}
    (bounded : db.LeasesBounded scope scopeId L) {call : LeaseCall}
    (limit : call.LimitIs scope scopeId L) : (call.commit db).LeasesBounded scope scopeId L := by
  obtain ⟨kept, wanes, effect | ⟨cmd, newId, newOwner, clock, l, rfl, effect, granted, room, token⟩⟩ :=
    call.commit_cases db
  · rw [effect]
    exact bounded.wanes wanes
  · rw [effect]
    have waned : Db.LeasesBounded scope scopeId L { db with leases := kept } := bounded.wanes wanes
    by_cases own : ofScope scope scopeId l = true
    · have same : cmd.scope = scope ∧ cmd.scopeId = scopeId := by
        simpa [ofScope, granted, grantedLease] using own
      obtain ⟨rfl, rfl⟩ := same
      rw [limit rfl rfl] at room
      refine ⟨?_, ?_⟩
      · have one := List.length_filter_le (fun x => ofScope cmd.scope cmd.scopeId x && x.state = .held)
          [l]
        rw [heldLeases, List.filter_append, List.length_append]
        simp only [heldLeases, List.length_singleton] at room one
        omega
      · rw [List.filter_append, List.filter_cons_of_pos own, List.filter_nil]
        refine nodup_concat waned.tokens fun x mem => ?_
        obtain ⟨mem, inScope⟩ := List.mem_filter.mp mem
        have below : x.fencingToken ≤ maxFencing cmd.scope cmd.scopeId { db with leases := kept } :=
          le_maxFencing mem inScope
        omega
    · have others : ∀ p : ConcurrencyLease → Bool, (kept ++ [l]).filter (fun x => ofScope scope scopeId x && p x) =
          kept.filter (fun x => ofScope scope scopeId x && p x) := by
        intro p
        simp [List.filter_append, own]
      refine ⟨?_, ?_⟩
      · rw [heldLeases, others]
        exact waned.room
      · rw [List.filter_append]
        simpa [own] using waned.tokens

def LeaseCall.drawnId : LeaseCall → Option Uuid
  | .acquire _ newId _ _ => some newId
  | _ => none

def Db.holds (db : Db) (id : Uuid) (ownerToken : String) (fencing : Int) : Bool :=
  db.leases.any (ownedBy id ownerToken fencing)

variable {calls : List LeaseCall}

theorem mem_runLeases (mem : l ∈ (runLeases db calls).leases) :
    (∃ l₀ ∈ db.leases, l₀.id = l.id) ∨ l.id ∈ calls.filterMap LeaseCall.drawnId := by
  induction calls generalizing db with
  | nil => exact .inl ⟨l, mem, rfl⟩
  | cons call calls ih =>
    rcases ih mem with ⟨l₁, mem₁, same⟩ | drawn
    · rcases LeaseCall.mem_commit mem₁ with ⟨l₀, mem₀, ages⟩ | ⟨cmd, newId, newOwner, clock, rfl,
        granted, _⟩
      · exact .inl ⟨l₀, mem₀, ages.id.symm.trans same⟩
      · refine .inr (List.mem_filterMap.mpr ⟨_, List.mem_cons_self, ?_⟩)
        rw [← same, granted]
        rfl
    · refine .inr ?_
      rw [List.filterMap_cons]
      split
      · exact drawn
      · exact List.mem_cons_of_mem _ drawn

variable {ownerToken : String} {fencing : Int}

theorem holds_runLeases {id : Uuid} (lost : db.holds id ownerToken fencing = false)
    (fresh : id ∉ calls.filterMap LeaseCall.drawnId) :
    (runLeases db calls).holds id ownerToken fencing = false := by
  induction calls generalizing db with
  | nil => exact lost
  | cons call calls ih =>
    have later : id ∉ calls.filterMap LeaseCall.drawnId := fun mem => fresh (by
      rw [List.filterMap_cons]
      split
      · exact mem
      · exact List.mem_cons_of_mem _ mem)
    refine ih ?_ later
    rw [Db.holds, List.any_eq_false] at lost ⊢
    intro l mem
    rcases LeaseCall.mem_commit mem with ⟨l₀, mem₀, ages⟩ | ⟨cmd, newId, newOwner, clock, rfl,
      granted, _⟩
    · intro owned
      refine lost l₀ mem₀ ?_
      simp only [ownedBy, Bool.and_eq_true, decide_eq_true_eq] at owned ⊢
      rw [← ages.id, ← ages.ownerToken, ← ages.fencingToken]
      exact ⟨owned.1, ages.held owned.2⟩
    · have other : newId ≠ id := fun same =>
        fresh (List.mem_filterMap.mpr ⟨_, List.mem_cons_self, by rw [← same]; rfl⟩)
      simp [ownedBy, granted, grantedLease, other]

/-! What a success proves. -/

variable {r : Unit × Db}

theorem checkLease_holds {id : Uuid} {now : Option Int} {clock : Int}
    (ok : (checkLease id ownerToken fencing now clock).eval db = .ok r) :
    db.holds id ownerToken fencing = true := by
  simp only [checkLease, Txn.eval_bind_ok, selectOne_ok, Txn.eval_require_ok] at ok
  obtain ⟨l, _, ⟨_, found, ⟨⟩⟩, _, _, ⟨owned, _⟩, _⟩ := ok
  obtain ⟨mem, key⟩ := find_key found
  refine List.any_eq_true.mpr ⟨l, mem, ?_⟩
  simp only [Bool.and_eq_true, decide_eq_true_eq] at owned
  simp [ownedBy, key, owned]

theorem renewLease_holds {id : Uuid} {newExpiresAt : Int}
    (ok : (renewLease id ownerToken fencing newExpiresAt).eval db = .ok r) :
    db.holds id ownerToken fencing = true := by
  obtain ⟨_, outcome, _⟩ := (Txn.eval_exec_ok _ _ _ _ _ _).mp ok
  split at outcome
  · cases outcome
  · split at outcome
    · assumption
    · cases outcome

theorem releaseLease_holds {id : Uuid} {now : Int}
    (ok : (releaseLease id ownerToken fencing now).eval db = .ok r) :
    db.holds id ownerToken fencing = true :=
  (updateRow_ok.mp ok).1

def Db.Refuses (db : Db) (id : Uuid) (ownerToken : String) (fencing : Int) : Prop :=
  (∀ now clock r, (checkLease id ownerToken fencing now clock).eval db ≠ .ok r) ∧
  (∀ newExpiresAt r, (renewLease id ownerToken fencing newExpiresAt).eval db ≠ .ok r) ∧
  ∀ now r, (releaseLease id ownerToken fencing now).eval db ≠ .ok r

theorem refuses_of_lost {id : Uuid}
    (lost : db.holds id ownerToken fencing = false) : db.Refuses id ownerToken fencing := by
  refine ⟨fun _ _ _ ok => ?_, fun _ _ ok => ?_, fun _ _ ok => ?_⟩
  · simp [checkLease_holds ok] at lost
  · simp [renewLease_holds ok] at lost
  · simp [releaseLease_holds ok] at lost

def liveLeases (scope : LeaseScope) (scopeId : Uuid) (now : Int) (db : Db) :
    List ConcurrencyLease :=
  (heldLeases scope scopeId db).filter (fun l => now < l.expiresAt)

theorem runLeases_bounded {L : Nat} (empty : db.leases = []) {done : List LeaseCall}
    (limit : ∀ call ∈ calls, call.LimitIs scope scopeId L) (initial : done <+: calls) :
    (runLeases db done).LeasesBounded scope scopeId L := by
  refine History.foldl_keeps (P := fun _ call => LeaseCall.LimitIs scope scopeId L call)
    (fun db call bounded ok => bounded.commit ok) ⟨?_, ?_⟩ (History.along_of_forall fun call mem => ?_)
  · simp [heldLeases, empty]
  · simp [empty]
  · exact limit call (initial.subset mem)

/-- Lease safety, for any sequence of calls that starts from an empty table and draws every id
once: the limit holds at every moment, tokens are distinct and new ones are larger, and lost
credentials stay lost. -/
theorem lease_safety (scope : LeaseScope) (scopeId : Uuid) (L : Nat) (db : Db)
    (empty : db.leases = []) (calls : List LeaseCall)
    (limit : ∀ call ∈ calls, call.LimitIs scope scopeId L)
    (ids : (calls.filterMap LeaseCall.drawnId).Nodup) :
    (∀ done, done <+: calls → ∀ now, (liveLeases scope scopeId now (runLeases db done)).length ≤ L) ∧
    (∀ done, done <+: calls →
      ((heldLeases scope scopeId (runLeases db done)).map (·.fencingToken)).Nodup) ∧
    (∀ done cmd newId newOwner clock l db', done ++ [.acquire cmd newId newOwner clock] <+: calls →
      (acquireLeaseTx cmd newId newOwner clock).eval (runLeases db done) = .ok (l, db') →
      ∀ x ∈ heldLeases cmd.scope cmd.scopeId db', x = l ∨ x.fencingToken < l.fencingToken) ∧
    ∀ before between after id ownerToken fencing, before ++ between ++ after <+: calls →
      (runLeases db before).holds id ownerToken fencing = true →
      (runLeases db (before ++ between)).holds id ownerToken fencing = false →
      (runLeases db (before ++ between ++ after)).Refuses id ownerToken fencing := by
  refine ⟨?_, ?_, ?_, ?_⟩
  · intro done initial now
    exact (List.length_filter_le _ _).trans (runLeases_bounded empty limit initial).room
  · intro done initial
    refine (runLeases_bounded empty limit initial).tokens.sublist (List.Sublist.map _ ?_)
    exact List.monotone_filter_right _ fun l h => (Bool.and_eq_true _ _ ▸ h).1
  · intro done cmd newId newOwner clock l db' _ ok x mem
    obtain ⟨_, _, rfl, rfl⟩ := acquireLeaseTx_ok ok
    obtain ⟨mem, inScope⟩ := List.mem_filter.mp mem
    rw [List.mem_append, List.mem_singleton] at mem
    rcases mem with old | new
    · refine .inr (Int.lt_add_one_of_le (le_maxFencing old ?_))
      exact (Bool.and_eq_true _ _ ▸ inScope).1
    · exact .inl new
  · intro before between after id ownerToken fencing initial had lost
    obtain ⟨l, mem, owned⟩ := List.any_eq_true.mp had
    have key : l.id = id := by
      simp only [ownedBy, Bool.and_eq_true, decide_eq_true_eq] at owned
      exact owned.1.1.1
    have drawn : id ∈ before.filterMap LeaseCall.drawnId := by
      rcases mem_runLeases mem with ⟨l₀, mem₀, _⟩ | drawn
      · simp [empty] at mem₀
      · exact key ▸ drawn
    have once : ((before ++ between ++ after).filterMap LeaseCall.drawnId).Nodup :=
      ids.sublist (initial.sublist.filterMap _)
    have fresh : id ∉ after.filterMap LeaseCall.drawnId := by
      rw [List.filterMap_append, List.filterMap_append, List.nodup_append] at once
      exact fun again => once.2.2 id (List.mem_append_left _ drawn) id again rfl
    have split : runLeases db (before ++ between ++ after) =
        runLeases (runLeases db (before ++ between)) after := List.foldl_append
    rw [split]
    exact refuses_of_lost (holds_runLeases lost fresh)

def takeover : List LeaseCall :=
  [.acquire ⟨.upstreamAccount, 9, 3, "gateway", 1, 10, some 0⟩ 50 "" 0,
    .acquire ⟨.upstreamAccount, 9, 4, "gateway", 1, 10, some 20⟩ 51 "" 20,
    .deleteTerminal 100 0 id]

def takeoverDb : Db :=
  { requests := [3, 4].map fun id => ⟨id, 1, none, 5, 6, none, .reserved, some 3, none, some 10, none,
      some 7, none, .plan, .pending, "", none⟩ }

theorem lease_safety_takeover :
    (runLeases takeoverDb takeover).holds 51 "gateway" 2 = true ∧
    (runLeases takeoverDb takeover).Refuses 50 "gateway" 1 :=
  ⟨by decide,
    (lease_safety .upstreamAccount 9 1 takeoverDb rfl takeover (by simp [takeover, LeaseCall.LimitIs])
      (by decide)).2.2.2 (takeover.take 1) ((takeover.drop 1).take 1) (takeover.drop 2) 50 "gateway" 1
      (List.prefix_refl takeover) (by decide) (by decide)⟩

end YunhouUsers.Inference.Postgres
