import YunhouUsers.Inference.Gateway.Recovery
import YunhouUsers.Inference.Postgres.Books

/-!
Holds are given back for free only when no attempt can have been executed.

`Honest` is the invariant at every point where a process can die: what the attempt rows say
about a request never claims less than what went out on the wire.  The gateway keeps it
unless the caller cancels after the request was written; the recovery worker always does.
-/

namespace YunhouUsers.Inference.Gateway

open ReadCommitted CrashProne Table Postgres

def Exchange.lateCancel : Exchange → Bool
  | .failed e => isCanceled e.cause && e.written
  | .answered _ _ => false

def timely : (op : Op) → op.Choice → Prop
  | .send _, x => x.lateCancel = false
  | _, _ => True

theorem facts_apart : Apart facts where
  requests _ _ _ _ := rfl
  costs := facts_costs

def World.log (w : World) : List Attempt × List (Uuid × Exchange) × List Uuid :=
  (facts w.db, w.wire, w.released)

def provenZero (a : Attempt) : Bool := a.status = .failed && zeroConsumptionErrorKind a.errorKind

def World.Quiet (w : World) : Prop := ∀ i x, (i, x) ∈ w.wire → x.unexecuted = true

structure Honest (requestId : Uuid) (w : World) : Prop where
  unique : ((facts w.db).map (·.id)).Nodup
  recorded : ∀ i x, (i, x) ∈ w.wire → ∃ a ∈ facts w.db, a.id = i ∧ a.requestId = requestId
  proven : ∀ a ∈ facts w.db, provenZero a = true → ∀ x, (a.id, x) ∈ w.wire → x.unexecuted = true
  released : requestId ∈ w.released → w.Quiet

theorem Honest.of_log {requestId : Uuid} (w w' : World) (same : w'.log = w.log)
    (h : Honest requestId w) : Honest requestId w' := by
  simp only [World.log, Prod.mk.injEq] at same
  obtain ⟨facts, wire, released⟩ := same
  constructor
  · rw [facts]
    exact h.unique
  · rw [facts, wire]
    exact h.recorded
  · rw [facts, wire]
    exact h.proven
  · unfold World.Quiet
    rw [released, wire]
    exact h.released

/-! ### What leaves the log alone -/

variable {body : Tx Unit}

theorem transact_some {fault : Fault} {db db' : Db} {answer : Except Cause Unit}
    (ran : transact fault body db = (answer, some db')) : body.eval db = .ok ((), db') := by
  unfold transact at ran
  split at ran
  · simp at ran
  · split at ran <;> simp_all
  · split at ran <;> simp_all

theorem transact_ok {fault : Fault} {db : Db} {committed : Option Db}
    (ran : transact fault body db = (.ok (), committed)) :
    ∃ db', committed = some db' ∧ body.eval db = .ok ((), db') := by
  cases committed with
  | some db' => exact ⟨db', rfl, transact_some ran⟩
  | none =>
    unfold transact at ran
    split at ran
    · simp at ran
    · split at ran <;> simp at ran
    · split at ran <;> simp at ran

theorem tx_keeps (keeps : body.Keeps facts) : (tx body).Keeps World.log := by
  refine .perform (C := calls) fun fault w => ?_
  show ({ w with db := (transact fault body w.db).2.getD w.db } : World).log = w.log
  rcases ran : transact fault body w.db with ⟨answer, _ | db⟩
  · rfl
  · simp only [World.log, Option.getD_some, Prod.mk.injEq, and_true]
    exact keeps.eval (transact_some ran)

theorem ask_keeps {op : Op} (passive : op.passive = true) : (ask op).Keeps World.log := by
  refine .perform (C := calls) fun c w => ?_
  cases op with
  | tx | release | send => cases passive
  | _ => rfl

theorem check_keeps_log (what : Check) : (check what).Keeps World.log := ask_keeps rfl

theorem log_settling : Settling fun op => ∀ c w, (exec op c w).2.log = w.log where
  asks _ passive := (ask_keeps passive).1
  settles _ _ _ _ _ _ _ := (tx_keeps (.bind (settle_keeps facts_apart _ _) fun _ =>
    .when (enqueueReconciliationJobTx_keeps facts_apart.toAside _ _ _ _))).1
  parks _ _ _ _ := (tx_keeps (markReconciliationRequired_keeps facts_apart.toAside _ _ _ _)).1

/-! ### The gateway -/

variable {r : Uuid} {w : World}

def Idle (r : Uuid) (w : World) : Prop := w.Quiet ∧ r ∉ w.released

def Pending (r id : Uuid) (w : World) : Prop :=
  ∃ a ∈ facts w.db, a.id = id ∧ a.requestId = r ∧ a.status = .dispatching

theorem Idle.of_eq {w' : World} (h : Idle r w) (wire : w'.wire = w.wire)
    (released : w'.released = w.released) : Idle r w' := by
  unfold Idle World.Quiet
  rw [wire, released]
  exact h

theorem Idle.of_log {w' : World} (h : Idle r w) (same : w'.log = w.log) : Idle r w' := by
  simp only [World.log, Prod.mk.injEq] at same
  exact h.of_eq same.2.1 same.2.2

variable {id : Uuid}

theorem Pending.of_log {w' : World} (h : Pending r id w) (same : w'.log = w.log) :
    Pending r id w' := by
  simp only [World.log, Prod.mk.injEq] at same
  unfold Pending
  rw [same.1]
  exact h

theorem tx_holds (h : Honest r w)
    (step : ∀ db', body.eval w.db = .ok ((), db') → Honest r { w with db := db' }) :
    (tx body).Holds timely (Honest r) (fun answer w' => w'.wire = w.wire ∧
      w'.released = w.released ∧ (answer = .ok () → body.eval w.db = .ok ((), w'.db))) w := by
  refine Prog.Holds.perform (C := calls) h fun fault _ => ?_
  show Honest r { w with db := (transact fault body w.db).2.getD w.db } ∧ w.wire = w.wire ∧
    w.released = w.released ∧ ((transact fault body w.db).1 = .ok () →
      body.eval w.db = .ok ((), (transact fault body w.db).2.getD w.db))
  rcases ran : transact fault body w.db with ⟨answer, _ | db⟩
  · refine ⟨h, rfl, rfl, ?_⟩
    rintro rfl
    obtain ⟨_, none, _⟩ := transact_ok ran
    cases none
  · exact ⟨step db (transact_some ran), rfl, rfl, fun _ => transact_some ran⟩

theorem facts_finish (db : Db) (id : Uuid) (status : AttemptStatus) (kind : String) :
    facts { db with
      attempts := updateWhere (·.id = id)
        (fun a => { a with status := status, errorKind := kind }) db.attempts } =
      updateWhere (·.id = id) (fun a => { a with status := status, errorKind := kind })
        (facts db) := by
  simp only [facts, updateWhere, List.map_map]
  apply List.map_congr_left
  intro a _
  by_cases same : a.id = id <;> simp [same]

variable {kind : String}

theorem Honest.finish (h : Honest r w) {status : AttemptStatus}
    (right : status = .failed → zeroConsumptionErrorKind kind = true →
      ∀ x, (id, x) ∈ w.wire → x.unexecuted = true) :
    Honest r { w with db := { w.db with
      attempts := updateWhere (·.id = id)
        (fun a => { a with status := status, errorKind := kind }) w.db.attempts } } := by
  constructor
  · rw [facts_finish, map_updateWhere _ _ _ (by intro; rfl)]
    exact h.unique
  · intro i x sent
    obtain ⟨a, mem, same, own⟩ := h.recorded i x sent
    rw [facts_finish]
    refine ⟨_, mem_updateWhere.mpr ⟨a, mem, rfl⟩, ?_⟩
    split <;> exact ⟨same, own⟩
  · rw [facts_finish]
    intro b mem zero x sent
    obtain ⟨a, listed, rfl⟩ := mem_updateWhere.mp mem
    by_cases this : a.id = id
    · simp only [this, decide_true, if_true, provenZero, Bool.and_eq_true, decide_eq_true_eq]
        at zero sent
      exact right zero.1 zero.2 x sent
    · simp only [this, decide_false, Bool.false_eq_true, if_false] at zero sent
      exact h.proven a listed zero x sent
  · exact h.released

theorem finishAttempt_holds (h : Honest r w) {status : AttemptStatus}
    (right : status = .failed → zeroConsumptionErrorKind kind = true →
      ∀ x, (id, x) ∈ w.wire → x.unexecuted = true) :
    (finishAttempt id status kind).Holds timely (Honest r)
      (fun _ w' => w'.wire = w.wire ∧ w'.released = w.released) w := by
  refine .bind (tx_holds h fun db' ran => ?_) fun _ w' h' same => .done h' ⟨same.1, same.2.1⟩
  rw [finishAttemptTx, updateRow_ok] at ran
  cases ran.2
  exact h.finish right

theorem attemptViolation_fresh {a : Attempt} {db : Db} (ok : attemptViolation a db = none) :
    ∀ x ∈ db.attempts, x.id ≠ a.id := by
  unfold attemptViolation at ok
  split_ifs at ok with _ fresh
  intro x mem same
  exact fresh (List.any_eq_true.mpr ⟨x, mem, by simpa using same⟩)

theorem persistAttempt_holds {adm : AdmissionResult} {cand : Candidate} (h : Honest r w) (a : Attempt) (own : a.requestId = r)
    (dispatching : a.status = .dispatching) :
    ((gatewaySteps r adm).persistAttempt cand a).Holds timely (Honest r) (fun answer w' => w'.wire = w.wire ∧
      w'.released = w.released ∧ (answer = .ok () → Pending r a.id w')) w := by
  refine .bind ((check_keeps_log .acquireLease).holds Honest.of_log h) fun lease w' h' same => ?_
  simp only [World.log, Prod.mk.injEq] at same
  cases lease with
  | error err => exact .done h' ⟨same.2.1, same.2.2, by simp⟩
  | ok _ =>
    have inserted : ∀ db', (insertAttemptTx a).eval w'.db = .ok ((), db') →
        (∀ x ∈ facts w'.db, x.id ≠ a.id) ∧
        facts db' = facts w'.db ++ [{ a with errorKind := "", cost := none }] := by
      intro db' ran
      rw [insertAttemptTx, insertRow_ok] at ran
      obtain ⟨ok, same⟩ := ran
      cases same
      refine ⟨fun x mem => ?_, by simp [facts]⟩
      obtain ⟨y, listed, rfl⟩ := List.mem_map.mp mem
      exact attemptViolation_fresh ok y listed
    refine (tx_holds h' fun db' ran => ?_).mono fun answer w'' _ after => ?_
    · obtain ⟨fresh, rows⟩ := inserted db' ran
      constructor
      · rw [rows]
        exact nodup_concat h'.unique fresh
      · intro i x sent
        obtain ⟨b, mem, found⟩ := h'.recorded i x sent
        exact ⟨b, by simp only [rows, List.mem_append, mem, true_or], found⟩
      · rw [rows]
        intro b mem zero x sent
        rcases List.mem_append.mp mem with mem | mem
        · exact h'.proven b mem zero x sent
        · rw [List.mem_singleton] at mem
          subst mem
          simp [provenZero, dispatching] at zero
      · exact h'.released
    · refine ⟨after.1.trans same.2.1, after.2.1.trans same.2.2, fun ok => ?_⟩
      obtain ⟨_, rows⟩ := inserted _ (after.2.2 ok)
      exact ⟨{ a with errorKind := "", cost := none }, by simp [rows], rfl, own, dispatching⟩

theorem readExchange_sound_iff (stream : Bool) (x : Exchange) :
    (∀ de, readExchange stream x = .error de → de.executedUnknown = false →
      x.unexecuted = true) ↔ x.lateCancel = false := by
  cases x with
  | failed e =>
    simp only [readExchange, Exchange.lateCancel, Exchange.unexecuted]
    cases canceled : isCanceled e.cause with
    | true => simp
    | false =>
      simp only [Bool.false_eq_true, if_false, Bool.false_and, iff_true]
      intro de read known
      cases read
      -- only a failed lookup or a refused dial is left, and both come before the request
      cases sent : e.written with
      | false => rfl
      | true =>
        obtain ⟨noDns, noRefusal⟩ := e.dialed sent
        simp [classifyTransport, noDns, noRefusal] at known
  | answered status body =>
    simp only [readExchange, Exchange.lateCancel, Exchange.unexecuted, iff_true]
    intro de read known
    split_ifs at read with refused
    · simpa using refused
    · split at read <;> cases read <;> cases known

def Settled (r : Uuid) {α : Type} : Except AttemptError α → World → Prop
  | .ok _, _ => True
  | .error (.domain _ _), w => Idle r w
  | .error (.dispatch de), w => de.executedUnknown = false → Idle r w

theorem send_holds (h : Honest r w) (idle : Idle r w) (pending : Pending r id w) :
    (ask (.send id)).Holds timely (Honest r)
      (fun x w' => x.lateCancel = false ∧ (x.unexecuted = true → Idle r w')) w := by
  refine Prog.Holds.perform (C := calls) h fun x ok => ⟨?_, ok, fun unexecuted => ⟨?_, idle.2⟩⟩
  · show Honest r { w with wire := (id, x) :: w.wire }
    obtain ⟨a, mem, same, own, open_⟩ := pending
    refine ⟨h.unique, fun i y sent => ?_, fun b listed zero y sent => ?_, fun released => ?_⟩
    · rcases List.mem_cons.mp sent with new | old
      · cases new
        exact ⟨a, mem, same, own⟩
      · exact h.recorded i y old
    · rcases List.mem_cons.mp sent with new | old
      · obtain ⟨thisId, _⟩ := Prod.mk.inj new
        -- the row of this attempt still says `dispatching`
        have : b = a := eq_of_key h.unique listed mem (thisId.trans same.symm)
        simp [this, provenZero, open_] at zero
      · exact h.proven b listed zero y old
    · exact absurd released idle.2
  · intro i y sent
    rcases List.mem_cons.mp sent with new | old
    · cases new
      exact unexecuted
    · exact idle.1 i y old

variable {stream : Bool} {adm : AdmissionResult}

theorem dispatch_holds (h : Honest r w) (idle : Idle r w) (pending : Pending r id w) :
    (dispatch (gatewaySteps r adm) stream id).Holds timely (Honest r) (Settled r) w := by
  refine .bind ((check_keeps_log _).holds Honest.of_log h) fun built w₁ h₁ same₁ => ?_
  have idle₁ := idle.of_log same₁
  cases built with
  | error err => exact .done h₁ idle₁
  | ok _ =>
    refine .bind ((check_keeps_log _).holds Honest.of_log h₁) fun request w₂ h₂ same₂ => ?_
    have idle₂ := idle₁.of_log same₂
    cases request with
    | error err => exact .done h₂ idle₂
    | ok _ =>
      refine .bind ((check_keeps_log _).holds Honest.of_log h₂) fun headers w₃ h₃ same₃ => ?_
      have idle₃ := idle₂.of_log same₃
      cases headers with
      | error err => exact .done h₃ idle₃
      | ok _ =>
        have pending₃ := ((pending.of_log same₁).of_log same₂).of_log same₃
        refine .bind (send_holds h₃ idle₃ pending₃) fun x w₄ h₄ after => .done h₄ ?_
        cases read : readExchange stream x with
        | ok _ => trivial
        | error de =>
          exact fun known => after.2 ((readExchange_sound_iff stream x).mpr after.1 de read known)

theorem onStreamDispatch_keeps (requestId attemptId : Uuid) :
    (onStreamDispatch requestId attemptId).Keeps World.log :=
  .bind (tx_keeps (updateRequestStatus_keeps facts_apart.toAside _ _ _)) fun _ => .pure _

theorem onNonStreamDispatch_holds {reported : Bool} (h : Honest r w) :
    (onNonStreamDispatch r id reported adm).Holds timely (Honest r) (fun _ _ => True) w := by
  refine .bind (finishAttempt_holds h (by simp)) fun _ w₁ h₁ _ => ?_
  have marked := tx_keeps (updateRequestStatus_keeps facts_apart.toAside r .nonStreaming "")
  refine .bind (marked.holds Honest.of_log h₁) fun _ w₂ h₂ _ => ?_
  exact .bind ((settle_only log_settling _ _ _ _).holds Honest.of_log h₂) fun _ w₃ h₃ _ =>
    .done h₃ trivial

theorem finishStream_holds (h : Honest r w) :
    (finishStream r id adm).Holds timely (Honest r) (fun _ _ => True) w := by
  refine .bind ((ask_keeps rfl).holds Honest.of_log h) fun report w₁ h₁ _ => ?_
  have claims : (streamAttemptStatus report).1 = .failed →
      zeroConsumptionErrorKind (streamAttemptStatus report).2 = false := by
    unfold streamAttemptStatus
    dsimp only
    split
    · simp
    · exact fun _ => by decide
    · simp
  refine .bind (finishAttempt_holds h₁ fun failed zero => ?_) fun _ w₂ h₂ _ => ?_
  · rw [claims failed] at zero
    cases zero
  · split_ifs
    · exact ((markReconciliation_only log_settling _ _).holds Honest.of_log h₂).mono fun _ _ _ _ => trivial
    · exact ((settle_only log_settling _ _ _ _).holds Honest.of_log h₂).mono fun _ _ _ _ => trivial
    · exact ((settle_only log_settling _ _ _ _).holds Honest.of_log h₂).mono fun _ _ _ _ => trivial

theorem callUpstream_holds (h : Honest r w) (idle : Idle r w) (pending : Pending r id w) :
    (callUpstream (gatewaySteps r adm) stream id ()).Holds timely (Honest r) (Settled r) w := by
  refine .bind (dispatch_holds h idle pending) fun result w₁ h₁ after => ?_
  match result, after with
  | .error (.domain _ _), after =>
    refine .bind (finishAttempt_holds h₁ fun _ _ x sent => after.1 _ x sent) fun _ w₂ h₂ same =>
      .done h₂ (after.of_eq same.1 same.2)
  | .error (.dispatch de), after =>
    refine .bind (finishAttempt_holds h₁ fun failed _ x sent => ?_) fun _ w₂ h₂ same =>
      .done h₂ fun known => (after known).of_eq same.1 same.2
    have known : de.executedUnknown = false := by
      by_contra unknown
      simp [failedAttemptStatus, unknown] at failed
    exact (after known).1 _ x sent
  | .ok .stream, _ =>
    exact .bind ((onStreamDispatch_keeps _ _).holds Honest.of_log h₁) fun _ w₂ h₂ _ =>
      .done h₂ trivial
  | .ok (.payload reported), _ =>
    exact .bind (onNonStreamDispatch_holds h₁) fun _ w₂ h₂ _ => .done h₂ trivial

theorem orFail_holds {probe : GatewayM (Except Cause Unit)}
    {err : Cause → AttemptError} {rest : GatewayM (Except AttemptError Outcome)}
    (keeps : probe.Keeps World.log)
    (next : ∀ w, Honest r w → Idle r w → Pending r id w →
      rest.Holds timely (Honest r) (Settled r) w)
    (w : World) (h : Honest r w) (idle : Idle r w) (pending : Pending r id w) :
    (orFail (gatewaySteps r adm) id () kind probe err rest).Holds timely (Honest r) (Settled r)
      w := by
  refine .bind (keeps.holds Honest.of_log h) fun answer w₁ h₁ same => ?_
  have idle₁ := idle.of_log same
  cases answer with
  | ok _ => exact next w₁ h₁ idle₁ (pending.of_log same)
  | error cause =>
    refine .bind (finishAttempt_holds h₁ fun _ _ x sent => idle₁.1 _ x sent) fun _ w₂ h₂ same₂ =>
      .done h₂ ?_
    have idle₂ := idle₁.of_eq same₂.1 same₂.2
    cases err cause with
    | domain code message => exact idle₂
    | dispatch de => exact fun _ => idle₂

variable {s : Service}

theorem attempt_holds {attemptNo : Nat} {cand : Candidate} (h : Honest r w) (idle : Idle r w) :
    (attempt (gatewaySteps r adm) s stream r attemptNo cand).Holds timely (Honest r) (Settled r)
      w := by
  refine .bind ((ask_keeps rfl).holds Honest.of_log h) fun id w₁ h₁ same => ?_
  have idle₁ := idle.of_log same
  refine .bind (persistAttempt_holds h₁ _ rfl rfl) fun answer w₂ h₂ after => ?_
  have idle₂ := idle₁.of_eq after.1 after.2.1
  cases answer with
  | error err =>
    refine .done h₂ ?_
    cases persistError err with
    | domain code message => exact idle₂
    | dispatch de => exact fun _ => idle₂
  | ok _ =>
    have egress : (if s.egress then check .egress else pure (.ok ())).Keeps World.log := by
      split
      · exact check_keeps_log _
      · exact .pure _
    have marked := tx_keeps (updateRequestStatus_keeps facts_apart.toAside r .dispatching "")
    exact orFail_holds (check_keeps_log _)
      (orFail_holds egress
        (orFail_holds (check_keeps_log _)
          (orFail_holds (check_keeps_log _)
            (orFail_holds marked fun _ => callUpstream_holds))))
      w₂ h₂ idle₂ (after.2.2 rfl)

theorem release_holds {allowed : (op : Op) → op.Choice → Prop} {fromReconciliation : Bool} (h : Honest r w)
    (quiet : id = r → w.Quiet) :
    (ask (.release id fromReconciliation)).Holds allowed (Honest r) (fun _ _ => True) w := by
  refine Prog.Holds.perform (C := calls) h fun fault _ => ⟨?_, trivial⟩
  show Honest r (w.release id fromReconciliation fault).2
  unfold World.release
  rcases ran : transact fault (releaseLocked id fromReconciliation) w.db with ⟨answer, _ | db⟩
  · exact h
  · have same : facts db = facts w.db :=
      (releaseLocked_keeps facts_apart id fromReconciliation).eval (transact_some ran)
    dsimp only
    refine ⟨?_, ?_, ?_, fun released => ?_⟩
    · rw [same]
      exact h.unique
    · rw [same]
      exact h.recorded
    · rw [same]
      exact h.proven
    · rcases List.mem_cons.mp released with this | before
      · exact quiet this.symm
      · exact h.released before

theorem releaseAdmission_holds (h : Honest r w) (idle : Idle r w) :
    (releaseAdmission r).Holds timely (Honest r) (fun _ _ => True) w :=
  .bind (release_holds h fun _ => idle.1) fun _ _ h₁ _ => .done h₁ trivial

theorem releaseAndFail_holds {code : Code} {message : String} (h : Honest r w) (idle : Idle r w) :
    (releaseAndFail (gatewaySteps r adm) code message).Holds timely (Honest r) (fun _ _ => True) w :=
  .bind (releaseAdmission_holds h idle) fun _ _ h₁ _ => .done h₁ trivial

theorem conclude_holds {accountId : Uuid} {result : Except AttemptError Outcome} (h : Honest r w)
    (settled : Settled r result w) :
    (conclude (gatewaySteps r adm) accountId result).Holds timely (Honest r)
      (fun answer w' => answer = none → Idle r w') w := by
  match result, settled with
  | .ok outcome, _ => exact .done h nofun
  | .error (.domain _ _), idle =>
    exact .bind (releaseAndFail_holds h idle) fun _ _ h₁ _ => .done h₁ nofun
  | .error (.dispatch de), idle =>
    unfold conclude
    dsimp only
    split
    · have hold : (holdForReconciliation (gatewaySteps r adm)).Keeps World.log :=
        .bind (markReconciliation_only log_settling _ _) fun _ => .pure _
      exact .bind (hold.holds Honest.of_log h) fun _ _ h₁ _ => .done h₁ nofun
    · rename_i known
      have idle := idle (by simpa using known)
      split_ifs
      · exact .bind (releaseAndFail_holds h idle) fun _ _ h₁ _ => .done h₁ nofun
      · exact .bind (releaseAndFail_holds h idle) fun _ _ h₁ _ => .done h₁ nofun
      · exact .done h fun _ => idle
      · exact .bind ((ask_keeps rfl).holds Honest.of_log h) fun _ _ h₁ same =>
          .done h₁ fun _ => idle.of_log same

theorem dispatchFrom_holds (cands : List Candidate) (i : Nat) (h : Honest r w) (idle : Idle r w) :
    (dispatchFrom (fun _ => gatewaySteps r adm) s stream r cands i).Holds timely (Honest r)
      (fun _ _ => True) w := by
  induction cands generalizing w i with
  | nil => exact .bind (releaseAndFail_holds h idle) fun _ _ h₁ _ => .done h₁ trivial
  | cons cand cands ih =>
    unfold dispatchFrom
    show (if cand.protocol ∉ s.adapters then _ else _ : GatewayM _).Holds _ _ _ _
    split
    · exact .bind (ih _ h idle) fun _ _ h₁ _ => .done h₁ trivial
    · refine .bind (attempt_holds h idle) fun result w₁ h₁ settled => ?_
      refine .bind (conclude_holds h₁ settled) fun answer w₂ h₂ after => ?_
      cases answer with
      | some final => exact .done h₂ trivial
      | none => exact .bind (ih _ h₂ (after rfl)) fun _ _ h₃ _ => .done h₃ trivial

theorem serve_holds {cands : List Candidate} (h : Honest r w) (idle : Idle r w) :
    (serve s stream r adm cands).Holds timely (Honest r) (fun _ _ => True) w := by
  refine .bind (dispatchFrom_holds _ _ h idle) fun result w₁ h₁ _ => ?_
  split
  · exact finishStream_holds h₁
  · exact .done h₁ trivial

/-! ### The recovery worker -/

variable {allowed : (op : Op) → op.Choice → Prop}

def World.kindsOf (w : World) (requestId : Uuid) : List (Uuid × String) :=
  (w.attemptsOf requestId).map fun a => (a.id, a.errorKind)

theorem kindOf_map {rows : List Attempt} (unique : (rows.map (·.id)).Nodup) {a : Attempt}
    (mem : a ∈ rows) : kindOf (rows.map fun a => (a.id, a.errorKind)) a.id = a.errorKind := by
  have found := find_of_mem unique mem
  rw [kindOf, List.find?_map]
  simp only [Function.comp_def, found, Option.map_some, Option.getD_some]

theorem mem_attemptsOf {a : Attempt} {requestId : Uuid} :
    a ∈ w.attemptsOf requestId ↔ a ∈ w.db.attempts ∧ a.requestId = requestId := by
  rw [World.attemptsOf, List.mem_insertionSort, List.mem_filter, decide_eq_true_eq]

theorem attemptsOf_unique (h : Honest r w) (requestId : Uuid) :
    ((w.attemptsOf requestId).map (·.id)).Nodup := by
  have unique := h.unique
  rw [facts, List.map_map] at unique
  have sorted := (List.perm_insertionSort (fun a b : Attempt => a.attemptNo ≤ b.attemptNo)
    (w.db.attempts.filter (·.requestId = requestId))).map (·.id)
  exact sorted.nodup_iff.mpr (unique.sublist ((List.filter_sublist).map _))

theorem Honest.quiet_of_notSent (h : Honest r w)
    (notSent : classify (w.attemptsOf r) (w.kindsOf r) = .notSent) : w.Quiet := by
  intro i x sent
  obtain ⟨fact, mem, rfl, own⟩ := h.recorded i x sent
  obtain ⟨a, listed, rfl⟩ := List.mem_map.mp mem
  have here : a ∈ w.attemptsOf r := mem_attemptsOf.mpr ⟨listed, own⟩
  obtain ⟨failed, zero⟩ := classify_notSent.mp notSent a here
  rw [World.kindsOf, kindOf_map (attemptsOf_unique h r) here] at zero
  exact h.proven _ mem (by simp [provenZero, failed, zero]) x sent

theorem loadEvidence_holds (h : Honest r w) (requestId : Uuid) :
    (loadEvidence requestId).Holds allowed (Honest r) (fun rows w' => w' = w ∧
      ∀ attempts kinds, rows = .ok (attempts, kinds) →
        attempts = w.attemptsOf requestId ∧ kinds = w.kindsOf requestId) w := by
  have attemptRows : (ask (.listAttempts requestId)).Holds allowed (Honest r)
      (fun rows w' => w' = w ∧ ∀ a, rows = .ok a → a = w.attemptsOf requestId) w := by
    refine Prog.Holds.perform (C := calls) h fun c _ => ⟨h, rfl, fun a read => ?_⟩
    cases c <;> cases read
    rfl
  have kindRows : (ask (.attemptErrorKinds requestId)).Holds allowed (Honest r)
      (fun rows w' => w' = w ∧ ∀ k, rows = .ok k → k = w.kindsOf requestId) w := by
    refine Prog.Holds.perform (C := calls) h fun c _ => ⟨h, rfl, fun a read => ?_⟩
    cases c <;> cases read
    rfl
  refine .bind attemptRows fun rows w₁ h₁ after => ?_
  obtain ⟨rfl, read⟩ := after
  cases rows with
  | error err => exact .done h₁ ⟨rfl, by simp⟩
  | ok attempts =>
    refine .bind kindRows fun kinds w₂ h₂ after₂ => ?_
    obtain ⟨rfl, read₂⟩ := after₂
    cases kinds with
    | error err => exact .done h₂ ⟨rfl, by simp⟩
    | ok kinds =>
      refine .done h₂ ⟨rfl, fun a k same => ?_⟩
      cases same
      exact ⟨read _ rfl, read₂ _ rfl⟩

variable {deadline : Int}

theorem verdict_holds {attempts : List Attempt} {kinds : List (Uuid × String)} {q : Request}
    {fromReconciliation : Bool} (h : Honest r w)
    (rows : attempts = w.attemptsOf q.id ∧ kinds = w.kindsOf q.id) :
    (match classify attempts kinds with
      | .notSent => releaseProvenZero q.id fromReconciliation
      | .unknownCharge anchor => settleUnknownCharge q anchor deadline).Holds allowed (Honest r)
      (fun _ _ => True) w := by
  obtain ⟨rfl, rfl⟩ := rows
  split
  · rename_i notSent
    refine .bind (release_holds h fun this => ?_) fun _ _ h₁ _ => .done h₁ trivial
    rw [this] at notSent
    exact h.quiet_of_notSent notSent
  · exact ((settleUnknownCharge_only log_settling _ _ _).holds Honest.of_log h).mono fun _ _ _ _ => trivial

theorem recoverRequest_holds (q : Request) (h : Honest r w) :
    (recoverRequest deadline q).Holds allowed (Honest r) (fun _ _ => True) w := by
  refine .bind (loadEvidence_holds h q.id) fun rows w₁ h₁ after => ?_
  obtain ⟨rfl, read⟩ := after
  cases rows with
  | error err => exact .done h₁ trivial
  | ok evidence => exact verdict_holds h₁ (read _ _ rfl)

theorem processJob_holds (job : ReconciliationJob) (h : Honest r w) :
    (processJob deadline job).Holds allowed (Honest r) (fun _ _ => True) w := by
  refine .bind ((ask_keeps rfl).holds Honest.of_log h) fun found w₁ h₁ _ => ?_
  cases found with
  | error err => exact .done h₁ trivial
  | ok q =>
    dsimp only
    split
    · exact .done h₁ trivial
    · refine .bind (loadEvidence_holds h₁ q.id) fun rows w₂ h₂ after => ?_
      obtain ⟨rfl, read⟩ := after
      cases rows with
      | error err => exact .done h₂ trivial
      | ok evidence =>
        dsimp only
        split
        · exact .done h₂ trivial
        · exact verdict_holds h₂ (read _ _ rfl)

theorem runPass_holds {batch : Uuid → Bool} (h : Honest r w) :
    (runPass deadline batch).Holds allowed (Honest r) (fun _ _ => True) w := by
  have stale {w : World} (h : Honest r w) :
      (recoverStale deadline).Holds allowed (Honest r) (fun _ _ => True) w := by
    refine .bind ((ask_keeps rfl).holds Honest.of_log h) fun rows w₁ h₁ _ => ?_
    cases rows with
    | error err => exact .done h₁ trivial
    | ok rows => exact .each h₁ fun q _ => recoverRequest_holds q
  have queued {w : World} (h : Honest r w) :
      (processJobs deadline).Holds allowed (Honest r) (fun _ _ => True) w := by
    refine .bind ((ask_keeps rfl).holds Honest.of_log h) fun rows w₁ h₁ _ => ?_
    cases rows with
    | error err => exact .done h₁ trivial
    | ok rows => exact .each h₁ fun job _ => processJob_holds job
  refine .bind ((ask_keeps rfl).holds Honest.of_log h) fun at_ w₁ h₁ _ =>
    .bind (stale h₁) fun _ w₂ h₂ _ => .bind (queued h₂) fun _ w₃ h₃ _ => ?_
  have escalated : (tx (escalateOverdue at_ batch)).Keeps World.log :=
    tx_keeps (by unfold escalateOverdue; exact .exec fun _ _ => rfl)
  exact .bind (escalated.holds Honest.of_log h₃) fun _ w₄ h₄ _ => .done h₄ trivial

/-! ### Histories -/

structure Pass where
  deadline : Int
  batch : Uuid → Bool
  oracle : Oracle calls

def recover (w : World) (passes : List Pass) : World :=
  passes.foldl (fun w p => ((runPass p.deadline p.batch).run p.oracle 0 w).2) w

structure Admitted (requestId : Uuid) (w : World) : Prop where
  keys : (w.db.attempts.map (·.id)).Nodup
  unsent : w.wire = []
  held : requestId ∉ w.released

theorem Admitted.honest (admitted : Admitted r w) : Honest r w := by
  refine ⟨?_, ?_, ?_, fun released => absurd released admitted.held⟩
  · rw [facts, List.map_map]
    exact admitted.keys
  · simp [admitted.unsent]
  · simp [admitted.unsent]

theorem Admitted.idle (admitted : Admitted r w) : Idle r w :=
  ⟨by simp [World.Quiet, admitted.unsent], admitted.held⟩

def afterwards (s : Service) (stream : Bool) (requestId : Uuid) (adm : AdmissionResult)
    (cands : List Candidate) (oracle : Oracle calls) (passes : List Pass) (w : World) : World :=
  recover ((serve s stream requestId adm cands).run oracle 0 w).2 passes

theorem afterwards_honest {cands : List Candidate} {oracle : Oracle calls} {passes : List Pass}
    (admitted : Admitted r w) (noLateCancel : oracle.Obeys timely) :
    Honest r (afterwards s stream r adm cands oracle passes w) := by
  have serving : (serve s stream r adm cands).Holds timely (Honest r) (fun _ _ => True) w :=
    serve_holds admitted.honest admitted.idle
  have served := serving.run noLateCancel 0
  unfold afterwards recover
  generalize ((serve s stream r adm cands).run oracle 0 w).2 = w₁ at served
  induction passes generalizing w₁ with
  | nil => exact served
  | cons p passes ih =>
    have anyAnswers : p.oracle.Obeys (fun _ _ => True) := fun _ _ _ _ => trivial
    exact ih _ ((runPass_holds served).run anyAnswers 0)

/-- However a request is dispatched and recovered, if its hold is given back for free then no
attempt of it can have been executed, as long as the caller does not cancel after the request
was written. -/
theorem released_only_unexecuted (s : Service) (stream : Bool) (requestId : Uuid)
    (adm : AdmissionResult) (cands : List Candidate) (oracle : Oracle calls) (passes : List Pass)
    (w : World) (admitted : Admitted requestId w) (noLateCancel : oracle.Obeys timely) :
    let after := afterwards s stream requestId adm cands oracle passes w
    (∀ i x, (i, x) ∈ after.wire → ∃ a ∈ after.db.attempts, a.id = i ∧ a.requestId = requestId) ∧
    (requestId ∈ after.released → ∀ i x, (i, x) ∈ after.wire → x.unexecuted = true) := by
  intro after
  have h : Honest requestId after := afterwards_honest admitted noLateCancel
  refine ⟨fun i x sent => ?_, h.released⟩
  obtain ⟨fact, mem, same, own⟩ := h.recorded i x sent
  obtain ⟨a, listed, rfl⟩ := List.mem_map.mp mem
  exact ⟨a, listed, same, own⟩

def dispatchDb : Db :=
  { accounts := [⟨1, .active⟩]
    windows := [⟨10, 5, .weekly, 0, 1000, 100, 0, 7, false⟩]
    requests := [⟨20, 1, none, 5, 6, none, .reserved, some 3, none, some 10, none, some 7, none,
      .plan, .pending, "", none⟩]
    reservations := [⟨30, 20, .windowWeekly, some 10, none, 7, .held⟩] }

/-- Everything succeeds, the upstream exchange is `x`, and the process dies at call `dies`. -/
def scripted (x : Exchange) (dies : Nat) : Oracle calls := fun n op =>
  if n = dies then none
  else
    match op with
    | .check _ => some (.ok ())
    | .newId => some (40 : Uuid)
    | .now => some (5 : Int)
    | .tx _ => some Fault.none
    | .release _ _ => some Fault.none
    | .send _ => some x
    | .cooldown _ => some ()
    | .streamEnd => none
    | .price => none
    | .attemptCost => some (.ok none)
    | .lookupUsage _ => some none
    | .listAttempts _ => some (.ok ())
    | .attemptErrorKinds _ => some (.ok ())
    | .getRequest _ => some (.ok ())
    | .latestUsageRevision _ => some (.ok ())
    | .listStaleOpenRequests => some (.ok fun _ => true)
    | .listPendingReconciliationJobs => some (.ok fun _ => true)

theorem scripted_timely {x : Exchange} (notLate : x.lateCancel = false) (dies : Nat) :
    (scripted x dies).Obeys timely := by
  intro n op c decided
  cases op with
  | send id =>
    unfold scripted at decided
    split at decided
    · cases decided
    · cases decided
      exact notLate
  | _ => trivial

theorem dispatchDb_admitted : Admitted 20 ⟨dispatchDb, [], [], []⟩ := ⟨by decide, rfl, by decide⟩

def demo (x : Exchange) (dies : Nat) : World :=
  afterwards ⟨0, [.openaiChat], true⟩ false 20 ⟨7, .plan⟩ [⟨50, 1, .openaiChat⟩] (scripted x dies)
    [⟨24, fun _ => true, scripted x 1000⟩] ⟨dispatchDb, [], [], []⟩

theorem released_only_unexecuted_refused :
    20 ∈ (demo (.answered 400 .oversized) 1000).released ∧
    ∀ i x, (i, x) ∈ (demo (.answered 400 .oversized) 1000).wire → x.unexecuted = true :=
  ⟨by decide,
    (released_only_unexecuted _ _ _ _ _ _ _ _ dispatchDb_admitted
      (scripted_timely rfl 1000)).2 (by decide)⟩

def lateCancellation : Exchange := .failed ⟨{ canceled := true }, true, fun _ => ⟨rfl, rfl⟩⟩

/-- The hold is given back although the upstream may have executed the request: by the
dispatch loop, or by recovery if the process dies before its own release. -/
theorem late_cancellation_released_free :
    Admitted 20 ⟨dispatchDb, [], [], []⟩ ∧
    ∀ dies ∈ [1000, 13], 20 ∈ (demo lateCancellation dies).released ∧
      (demo lateCancellation dies).wire.any (fun e => !e.2.unexecuted) = true :=
  ⟨dispatchDb_admitted, by decide⟩

end YunhouUsers.Inference.Gateway
