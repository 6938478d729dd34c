import YunhouUsers.Inference.Postgres.Reconciliation

/-!
What a plan admission does to the tables when it succeeds.

Every loop over windows and keys comes out as one shift of the aggregates, so that later
arguments never look at the statements again.
-/

namespace YunhouUsers.Inference.Postgres

open ReadCommitted Table Accounting

def onRow (target : Option Uuid) (x : Int) : Uuid → Int := fun id => if target = some id then x else 0

@[simp] theorem onRow_none (x : Int) : onRow none x = fun _ => 0 := by
  funext id
  simp [onRow]

@[simp] theorem onRow_zero (target : Option Uuid) : onRow target 0 = fun _ => 0 := by
  funext id
  simp [onRow]

def shiftWindows (reserved used : Uuid → Int) (windows : List QuotaWindow) : List QuotaWindow :=
  windows.map fun w => { w with reserved := w.reserved + reserved w.id, used := w.used + used w.id }

def shiftKeys (budget : Uuid → Int) (keys : List ApiKey) : List ApiKey :=
  keys.map fun k => { k with budgetUsed := k.budgetUsed + budget k.id }

@[simp] theorem shiftWindows_zero (windows : List QuotaWindow) :
    shiftWindows (fun _ => 0) (fun _ => 0) windows = windows := by
  simp [shiftWindows]

@[simp] theorem shiftKeys_zero (keys : List ApiKey) : shiftKeys (fun _ => 0) keys = keys := by
  simp [shiftKeys]

theorem shiftWindows_shiftWindows (r u r' u' : Uuid → Int) (windows : List QuotaWindow) :
    shiftWindows r' u' (shiftWindows r u windows) =
      shiftWindows (fun id => r id + r' id) (fun id => u id + u' id) windows := by
  simp [shiftWindows, Function.comp_def, Int.add_assoc]

theorem shiftKeys_shiftKeys (b b' : Uuid → Int) (keys : List ApiKey) :
    shiftKeys b' (shiftKeys b keys) = shiftKeys (fun id => b id + b' id) keys := by
  simp [shiftKeys, Function.comp_def, Int.add_assoc]

@[simp] theorem shiftWindows_ids (r u : Uuid → Int) (windows : List QuotaWindow) :
    (shiftWindows r u windows).map (·.id) = windows.map (·.id) := by
  simp [shiftWindows, Function.comp_def]

@[simp] theorem shiftKeys_ids (b : Uuid → Int) (keys : List ApiKey) :
    (shiftKeys b keys).map (·.id) = keys.map (·.id) := by
  simp [shiftKeys, Function.comp_def]

variable {windows : List QuotaWindow}

theorem updateWhere_eq_shiftWindows
    (unique : (windows.map (·.id)).Nodup) {p : QuotaWindow → Bool} (id : Uuid)
    (only : ∀ w, p w = true → w.id = id) (hit : windows.any p = true) (r u : Int) :
    updateWhere p (fun w => { w with reserved := w.reserved + r, used := w.used + u }) windows =
      shiftWindows (onRow (some id) r) (onRow (some id) u) windows := by
  rw [updateWhere_key unique only hit]
  apply List.map_congr_left
  intro w _
  by_cases h : w.id = id
  · simp [h, onRow]
  · simp [h, onRow, Ne.symm h]

theorem updateWhere_eq_shiftKeys {keys : List ApiKey} (unique : (keys.map (·.id)).Nodup)
    {p : ApiKey → Bool} (id : Uuid) (only : ∀ k, p k = true → k.id = id)
    (hit : keys.any p = true) (b : Int) :
    updateWhere p (fun k => { k with budgetUsed := k.budgetUsed + b }) keys =
      shiftKeys (onRow (some id) b) keys := by
  rw [updateWhere_key unique only hit]
  apply List.map_congr_left
  intro k _
  by_cases h : k.id = id
  · simp [h, onRow]
  · simp [h, onRow, Ne.symm h]

structure Db.KeysUnique (db : Db) : Prop where
  windows : (db.windows.map (·.id)).Nodup
  apiKeys : (db.apiKeys.map (·.id)).Nodup

variable {db db' : Db}

theorem Db.KeysUnique.shift (unique : db.KeysUnique) (r u b : Uuid → Int)
    (windows : db'.windows = shiftWindows r u db.windows)
    (apiKeys : db'.apiKeys = shiftKeys b db.apiKeys) : db'.KeysUnique := by
  refine ⟨?_, ?_⟩
  · rw [windows, shiftWindows_ids]
    exact unique.windows
  · rw [apiKeys, shiftKeys_ids]
    exact unique.apiKeys

def HoldProgress.Clear (p : HoldProgress) : Prop := p.blocked = [] ∧ p.keyBudgetBlocked = false

variable {p : HoldProgress} {amount : Int}

theorem HoldProgress.short_clear {available : Int} :
    (p.short available amount).Clear ↔ p.Clear := by
  unfold HoldProgress.short
  split <;> rfl

theorem HoldProgress.admitHold_clear : (p.admitHold amount).Clear ↔ p.Clear := Iff.rfl

def HoldSpec.refsOk (h : HoldSpec) : Bool := targetRefsOk (h.toReservation 0 0)

variable {p' : HoldProgress}

theorem holdKeyBudget_cases {keyId : Uuid}
    (ran : (holdKeyBudget p keyId amount).eval db = .ok (p', db')) :
    (db.apiKeys.any (ApiKey.fits keyId amount) = true ∧ p' = p.admitHold amount ∧
      db' = { db with
        apiKeys := updateWhere (ApiKey.fits keyId amount)
          (fun k => { k with budgetUsed := k.budgetUsed + amount }) db.apiKeys }) ∨ ¬ p'.Clear := by
  simp only [holdKeyBudget, Txn.eval_bind_ok, tryUpdate_ok] at ran
  obtain ⟨hit, db₁, same, ran⟩ := ran
  cases same
  split_ifs at ran with hit
  · cases ran
    exact .inl ⟨hit, rfl, rfl⟩
  · right
    rw [Txn.eval_query_bind] at ran
    split at ran <;> cases ran
    · rw [HoldProgress.short_clear]
      simp [HoldProgress.Clear]
    · simp [HoldProgress.Clear]

theorem holdWindow_cases {kind : TargetKind} {windowId : Uuid}
    (ran : (holdWindow p kind windowId amount).eval db = .ok (p', db')) :
    (db.windows.any (QuotaWindow.fits windowId amount) = true ∧ p' = p.admitHold amount ∧
      db' = { db with
        windows := updateWhere (QuotaWindow.fits windowId amount)
          (fun w => { w with reserved := w.reserved + amount }) db.windows }) ∨ ¬ p'.Clear := by
  simp only [holdWindow, Txn.eval_bind_ok, tryUpdate_ok] at ran
  obtain ⟨hit, db₁, same, ran⟩ := ran
  cases same
  split_ifs at ran with hit
  · cases ran
    exact .inl ⟨hit, rfl, rfl⟩
  · right
    rw [Txn.eval_query_bind] at ran
    split at ran <;> cases ran
    · rw [HoldProgress.short_clear]
      simp [HoldProgress.Clear]
    · simp [HoldProgress.Clear]

def NamesLive (windows : List QuotaWindow) (target : Option Uuid) : Prop :=
  ∀ w ∈ windows, target = some w.id → w.voided = false

theorem namesLive_shiftWindows {r u : Uuid → Int}
    {target : Option Uuid} : NamesLive (shiftWindows r u windows) target ↔
      NamesLive windows target := by
  simp [NamesLive, shiftWindows]

theorem applyHold_clear {h : HoldSpec}
    (ran : (applyHold p h).eval db = .ok (p', db')) (clear : p'.Clear) :
    p.Clear ∧ (db.KeysUnique → h.refsOk = true →
      0 ≤ h.amount ∧ NamesLive db.windows h.windowId ∧ db' = { db with
        windows := shiftWindows (onRow h.windowId h.amount) (fun _ => 0) db.windows
        apiKeys := shiftKeys (onRow h.apiKeyId h.amount) db.apiKeys }) := by
  simp only [HoldSpec.refsOk, HoldSpec.toReservation, targetRefsOk]
  simp only [applyHold] at ran
  split_ifs at ran with negative isKey
  · simp at ran
  · -- a key hold names no window
    split at ran
    · simp at ran
    · rename_i keyId key
      obtain ⟨hit, rfl, rfl⟩ | blocked := holdKeyBudget_cases ran
      · refine ⟨clear, fun unique refs => ?_⟩
        simp only [isKey, Bool.and_eq_true, Option.isNone_iff_eq_none] at refs
        refine ⟨by omega, by simp [NamesLive, refs.1], ?_⟩
        rw [updateWhere_eq_shiftKeys unique.apiKeys keyId (fun k hk => ?_) hit]
        · simp [refs.1, key]
        · simp only [ApiKey.fits, Bool.and_eq_true, decide_eq_true_eq] at hk
          exact hk.1
      · exact absurd clear blocked
  · split at ran
    · simp at ran
    · rename_i windowId window
      obtain ⟨hit, rfl, rfl⟩ | blocked := holdWindow_cases ran
      · refine ⟨clear, fun unique refs => ⟨by omega, ?_, ?_⟩⟩
        · intro w mem set
          obtain ⟨x, memx, fits⟩ := List.any_eq_true.mp hit
          simp only [QuotaWindow.fits, Bool.and_eq_true, decide_eq_true_eq] at fits
          have same : w = x := eq_of_key unique.windows mem memx (by
            rw [fits.1.1, ← Option.some.inj (window.symm.trans set)])
          simpa [same] using fits.1.2
        have noKey : h.apiKeyId = none := by
          cases kind : h.targetKind <;> simp_all
        have shift := updateWhere_eq_shiftWindows unique.windows windowId (fun w hw => by
          simp only [QuotaWindow.fits, Bool.and_eq_true, decide_eq_true_eq] at hw
          exact hw.1.1) hit h.amount 0
        simp only [Int.add_zero, onRow_zero] at shift
        rw [shift]
        simp [noKey, window]
      · exact absurd clear blocked

def holdsOnWindow (holds : List HoldSpec) (id : Uuid) : Int :=
  total (fun h => onRow h.windowId h.amount id) holds

def holdsOnKey (holds : List HoldSpec) (id : Uuid) : Int :=
  total (fun h => onRow h.apiKeyId h.amount id) holds

@[simp] theorem holdsOnWindow_nil : holdsOnWindow [] = fun _ => 0 := rfl

@[simp] theorem holdsOnKey_nil : holdsOnKey [] = fun _ => 0 := rfl

theorem holdsOnWindow_cons (h : HoldSpec) (holds : List HoldSpec) :
    holdsOnWindow (h :: holds) = fun id => onRow h.windowId h.amount id + holdsOnWindow holds id := by
  funext id
  simp [holdsOnWindow]

theorem holdsOnKey_cons (h : HoldSpec) (holds : List HoldSpec) :
    holdsOnKey (h :: holds) = fun id => onRow h.apiKeyId h.amount id + holdsOnKey holds id := by
  funext id
  simp [holdsOnKey]

variable {holds : List HoldSpec}

theorem applyHolds_clear (ran : (applyHolds holds p).eval db = .ok (p', db')) (clear : p'.Clear) :
    p.Clear ∧ (db.KeysUnique → (∀ h ∈ holds, h.refsOk = true) →
      (∀ h ∈ holds, 0 ≤ h.amount ∧ NamesLive db.windows h.windowId) ∧ db' = { db with
        windows := shiftWindows (holdsOnWindow holds) (fun _ => 0) db.windows
        apiKeys := shiftKeys (holdsOnKey holds) db.apiKeys }) := by
  induction holds generalizing p db with
  | nil =>
    cases ran
    exact ⟨clear, fun _ _ => ⟨by simp, by simp⟩⟩
  | cons h holds ih =>
    simp only [applyHolds, Txn.eval_bind_ok] at ran
    obtain ⟨p₁, db₁, first, rest⟩ := ran
    obtain ⟨clear₁, effect⟩ := ih rest
    obtain ⟨clear₀, effect₀⟩ := applyHold_clear first clear₁
    refine ⟨clear₀, fun unique refs => ?_⟩
    obtain ⟨amount, live, rfl⟩ := effect₀ unique (refs h List.mem_cons_self)
    obtain ⟨others, rfl⟩ := effect
      (unique.shift (onRow h.windowId h.amount) (fun _ => 0) (onRow h.apiKeyId h.amount) rfl rfl)
      (fun x hx => refs x (List.mem_cons_of_mem h hx))
    simp only [namesLive_shiftWindows] at others
    refine ⟨List.forall_mem_cons.mpr ⟨⟨amount, live⟩, others⟩, ?_⟩
    simp [shiftWindows_shiftWindows, shiftKeys_shiftKeys, holdsOnWindow_cons, holdsOnKey_cons]

def holdRows (requestId : Uuid) (newId : Nat → Uuid) : List HoldSpec → Nat → List Reservation
  | [], _ => []
  | h :: hs, n => h.toReservation (newId n) requestId :: holdRows requestId newId hs (n + 1)

variable {r : Reservation} {requestId : Uuid} {newId : Nat → Uuid}

theorem mem_holdRows {n : Nat} (mem : r ∈ holdRows requestId newId holds n) :
    ∃ h ∈ holds, ∃ id, r = h.toReservation id requestId := by
  induction holds generalizing n with
  | nil => cases mem
  | cons h holds ih =>
    rcases List.mem_cons.mp mem with rfl | mem
    · exact ⟨h, List.mem_cons_self, newId n, rfl⟩
    · obtain ⟨h', mem', id, rfl⟩ := ih mem
      exact ⟨h', List.mem_cons_of_mem h mem', id, rfl⟩

theorem exists_holdRows {n : Nat} {h : HoldSpec} (mem : h ∈ holds) :
    ∃ id, h.toReservation id requestId ∈ holdRows requestId newId holds n := by
  induction holds generalizing n with
  | nil => cases mem
  | cons h' holds ih =>
    rcases List.mem_cons.mp mem with rfl | mem
    · exact ⟨newId n, List.mem_cons_self⟩
    · obtain ⟨id, mem'⟩ := ih (n := n + 1) mem
      exact ⟨id, List.mem_cons_of_mem _ mem'⟩

theorem total_holdRows (f : Reservation → Int) (g : HoldSpec → Int)
    (same : ∀ (h : HoldSpec) id requestId, f (h.toReservation id requestId) = g h)
    (requestId : Uuid) (newId : Nat → Uuid) (holds : List HoldSpec) (n : Nat) :
    total f (holdRows requestId newId holds n) = total g holds := by
  induction holds generalizing n with
  | nil => rfl
  | cons h holds ih => simp [holdRows, same, ih]

structure Db.ReservationsUnique (db : Db) : Prop where
  ids : (db.reservations.map (·.id)).Nodup
  targets : (db.reservations.map (fun r => (r.requestId, r.targetKind))).Nodup

theorem reservationViolation_none (ok : reservationViolation r db = none) :
    0 ≤ r.amount ∧ targetRefsOk r = true ∧ (∀ x ∈ db.reservations, x.id ≠ r.id) ∧
      (∀ x ∈ db.reservations, (x.requestId, x.targetKind) ≠ (r.requestId, r.targetKind)) ∧
      (∀ w, r.windowId = some w → w ∈ db.windows.map (·.id)) ∧
      (∀ k, r.apiKeyId = some k → k ∈ db.apiKeys.map (·.id)) := by
  unfold reservationViolation at ok
  split_ifs at ok with amount refs id target _ window key
  simp only [List.any_eq_true, Bool.and_eq_true, decide_eq_true_eq] at id target
  refine ⟨by omega, by simpa using refs, fun x mem same => id ⟨x, mem, same⟩, ?_, ?_, ?_⟩
  · intro x mem same
    exact target ⟨x, mem, congrArg Prod.fst same, congrArg Prod.snd same⟩
  · intro w set
    simpa [missing, set] using window
  · intro k set
    simpa [missing, set] using key

theorem Db.ReservationsUnique.append (unique : db.ReservationsUnique)
    (ok : reservationViolation r db = none) :
    ({ db with reservations := db.reservations ++ [r] } : Db).ReservationsUnique := by
  obtain ⟨_, _, id, target, _, _⟩ := reservationViolation_none ok
  exact ⟨nodup_concat unique.ids id, nodup_concat unique.targets target⟩

theorem insertReservations_ok {n : Nat}
    (ran : (insertReservations requestId newId holds n).eval db = .ok ((), db')) :
    (∀ h ∈ holds, h.refsOk = true) ∧
      (∀ h ∈ holds, (∀ w, h.windowId = some w → w ∈ db.windows.map (·.id)) ∧
        ∀ k, h.apiKeyId = some k → k ∈ db.apiKeys.map (·.id)) ∧
      db' = { db with
        reservations := db.reservations ++ holdRows requestId newId holds n } ∧
      (db.ReservationsUnique → db'.ReservationsUnique) := by
  induction holds generalizing n db with
  | nil =>
    cases ran
    exact ⟨by simp, by simp, by simp [holdRows], id⟩
  | cons h holds ih =>
    simp only [insertReservations, Txn.eval_bind_ok, insertReservation, insertRow_ok] at ran
    obtain ⟨_, db₁, ⟨ok, same⟩, rest⟩ := ran
    cases same
    obtain ⟨refs, known, rfl, unique⟩ := ih rest
    obtain ⟨_, refsOk, _, _, target⟩ := reservationViolation_none ok
    refine ⟨List.forall_mem_cons.mpr ⟨refsOk, refs⟩, List.forall_mem_cons.mpr ⟨target, known⟩,
      ?_, ?_⟩
    · simp [holdRows]
    · exact fun u => unique (u.append ok)

theorem reserve_ok {cmd : ReserveCommand} {id : Uuid}
    (unique : db.KeysUnique) (ran : (reserve cmd newId).eval db = .ok (id, db')) :
    ∃ p, (∀ h ∈ sortHolds cmd.holds, h.refsOk = true ∧ 0 ≤ h.amount ∧
        NamesLive db.windows h.windowId ∧
        (∀ w, h.windowId = some w → w ∈ db.windows.map (·.id)) ∧
        ∀ k, h.apiKeyId = some k → k ∈ db.apiKeys.map (·.id)) ∧
      (∀ x ∈ db.requests, x.id ≠ (admittedRequest cmd p).id) ∧
      db' = { db with
        windows := shiftWindows (holdsOnWindow (sortHolds cmd.holds)) (fun _ => 0) db.windows
        apiKeys := shiftKeys (holdsOnKey (sortHolds cmd.holds)) db.apiKeys
        requests := db.requests ++ [insertedRequest (admittedRequest cmd p)]
        reservations := db.reservations ++ holdRows cmd.request.id newId (sortHolds cmd.holds) 0 } ∧
      (db.ReservationsUnique → db'.ReservationsUnique) := by
  simp only [reserve, Txn.eval_bind_ok, lockAccountTx_ok, Txn.eval_require_ok, insertRequest,
    insertRow_ok] at ran
  obtain ⟨_, _, ⟨_, same⟩, p, db₁, holds, _, _, ⟨clear, same₁⟩, _, _, ⟨fresh, same₂⟩, _, db₂,
    inserted, done⟩ := ran
  cases same
  cases same₁
  cases same₂
  cases done
  have clear : p.Clear := by
    simpa [HoldProgress.Clear, List.isEmpty_iff] using clear
  obtain ⟨refs, known, rfl, reservations⟩ := insertReservations_ok inserted
  obtain ⟨_, effect⟩ := applyHolds_clear holds clear
  obtain ⟨amounts, rfl⟩ := effect unique refs
  refine ⟨p, fun h mem => ⟨refs h mem, (amounts h mem).1, (amounts h mem).2, ?_⟩,
    fun x mem => requestViolation_none fresh x mem, rfl, fun u => reservations ⟨u.ids, u.targets⟩⟩
  simpa using known h mem

def Db.Opened (db db' : Db) : Prop :=
  ∃ fresh : List QuotaWindow, db' = { db with windows := db.windows ++ fresh } ∧
    (∀ w ∈ fresh, w.used = 0 ∧ w.reserved = 0) ∧
    ((db.windows.map (·.id)).Nodup → (db'.windows.map (·.id)).Nodup)

theorem Db.Opened.refl (db : Db) : db.Opened db :=
  ⟨[], by simp, by simp, id⟩

theorem Db.Opened.trans {db'' : Db} (h : db.Opened db') (h' : db'.Opened db'') :
    db.Opened db'' := by
  obtain ⟨fresh, rfl, empty, nodup⟩ := h
  obtain ⟨fresh', rfl, empty', nodup'⟩ := h'
  refine ⟨fresh ++ fresh', by simp, fun w mem => ?_, fun u => nodup' (nodup u)⟩
  rcases List.mem_append.mp mem with mem | mem
  · exact empty w mem
  · exact empty' w mem

theorem windowViolation_none {w : QuotaWindow} (ok : windowViolation w db = none) :
    ∀ x ∈ db.windows, x.id ≠ w.id := by
  unfold windowViolation at ok
  split_ifs at ok with _ _ _ id
  simp only [List.any_eq_true, decide_eq_true_eq] at id
  exact fun x mem same => id ⟨x, mem, same⟩

theorem insertQuotaWindow_ok {w : QuotaWindow}
    (ran : (insertQuotaWindow w).eval db = .ok ((), db')) :
    windowViolation w db = none ∧ db' = { db with windows := db.windows ++ [w] } := by
  simp only [insertQuotaWindow, Txn.eval_exec_ok] at ran
  obtain ⟨_, ok, same⟩ := ran
  cases same
  split at ok
  · cases ok
  · cases ok
  · cases ok
  · rename_i fine
    exact ⟨fine, rfl⟩

def newWindow (cmd : ActivateWindowsCommand) (newId : WindowKind → Uuid) (kind : WindowKind)
    (iv : Quota.Interval) (limit : Int) : QuotaWindow :=
  { id := newId kind, entitlementId := cmd.entitlementId, kind := kind, start := iv.start
    stop := iv.stop, limit := limit, used := 0, reserved := 0, voided := false }

variable {cmd : ActivateWindowsCommand} {newId : WindowKind → Uuid} {kind : WindowKind}
  {active out : List QuotaWindow} {p : List QuotaWindow × List QuotaWindow}

theorem activateKind_cases
    (ran : (activateKind cmd newId kind active out).eval db = .ok (p, db')) :
    (cmd.limits kind = none ∧ p = (active, out) ∧ db' = db) ∨
    (∃ limit iv, cmd.limits kind = some limit ∧
      Quota.consumptionWindow kind cmd.anchor active cmd.at_ = .ok (iv, true) ∧
      windowViolation (newWindow cmd newId kind iv limit) db = none ∧
      p = (active ++ [newWindow cmd newId kind iv limit],
        out ++ [newWindow cmd newId kind iv limit]) ∧
      db' = { db with windows := db.windows ++ [newWindow cmd newId kind iv limit] }) ∨
    (∃ limit iv, cmd.limits kind = some limit ∧
      Quota.consumptionWindow kind cmd.anchor active cmd.at_ = .ok (iv, false) ∧
      p = (active, out ++ (active.find? (Quota.liveAt kind cmd.at_)).toList) ∧ db' = db) := by
  unfold activateKind at ran
  split at ran
  · rename_i disabled
    cases ran
    exact .inl ⟨disabled, rfl, rfl⟩
  · rename_i limit enabled
    split at ran
    · cases ran
    · rename_i iv opens
      simp only [Txn.eval_bind_ok] at ran
      obtain ⟨_, _, inserted, same⟩ := ran
      cases same
      obtain ⟨fine, rfl⟩ := insertQuotaWindow_ok inserted
      exact .inr (.inl ⟨limit, iv, enabled, opens, fine, rfl, rfl⟩)
    · rename_i iv binds
      refine .inr (.inr ⟨limit, iv, enabled, binds, ?_⟩)
      split at ran
      · rename_i found
        cases ran
        exact ⟨by simp [found], rfl⟩
      · rename_i missing
        cases ran
        exact ⟨by simp [missing], rfl⟩

theorem activateKind_ok
    (ran : (activateKind cmd newId kind active out).eval db = .ok (p, db')) : db.Opened db' := by
  obtain ⟨_, _, rfl⟩ | ⟨_, _, _, _, fine, _, rfl⟩ | ⟨_, _, _, _, _, rfl⟩ := activateKind_cases ran
  · exact .refl _
  · exact ⟨_, rfl, by simp [newWindow], fun u => nodup_concat u (windowViolation_none fine)⟩
  · exact .refl _

theorem activateKinds_ok {kinds : List WindowKind} :
    ∀ {active out ws : List QuotaWindow} {db db' : Db},
      (activateKinds cmd newId kinds active out).eval db = .ok (ws, db') → db.Opened db' := by
  induction kinds with
  | nil =>
    intro active out ws db db' ran
    cases ran
    exact .refl db
  | cons kind kinds ih =>
    intro active out ws db db' ran
    simp only [activateKinds, Txn.eval_bind_ok] at ran
    obtain ⟨p, db₁, first, rest⟩ := ran
    exact (activateKind_ok first).trans (ih rest)

def activeRows (entitlementId : Uuid) (db : Db) : List QuotaWindow :=
  db.windows.filter fun w => w.entitlementId = entitlementId && !w.voided

theorem activateWindowsTx_kinds {ws : List QuotaWindow}
    (ran : (activateWindowsTx cmd newId).eval db = .ok (ws, db')) :
    (activateKinds cmd newId windowOrder (activeRows cmd.entitlementId db) []).eval db =
      .ok (ws, db') := by
  simp only [activateWindowsTx, Txn.eval_bind_ok, lockAccountTx_ok, Txn.eval_query] at ran
  obtain ⟨_, _, ⟨_, same⟩, active, _, loaded, opened⟩ := ran
  cases same
  cases loaded
  exact opened

theorem activateWindowsTx_ok {ws : List QuotaWindow}
    (ran : (activateWindowsTx cmd newId).eval db = .ok (ws, db')) : db.Opened db' :=
  activateKinds_ok (activateWindowsTx_kinds ran)

end YunhouUsers.Inference.Postgres
