import YunhouUsers.Inference.Gateway.Backlog
import YunhouUsers.Inference.Gateway.Terminal

/-!
Whether the recovery worker gets to every parked request.

`ListPendingReconciliationJobs` hands out the oldest pending jobs.  A job leaves the queue only
when its request is released; the job of a settled request stays where it is, and the passes
that follow read it again.
-/

namespace YunhouUsers.Inference.Gateway

open ReadCommitted CrashProne Table Postgres

/-! ### A quiet store -/

/-- How many pending jobs are older than the one of `x`.  `ahead` counts the window-level jobs
among them, which the job table does not hold. -/
def place (ahead : Uuid → Nat) (db : Db) (x : Uuid) : Nat := (queue db.jobs).idxOf x + ahead x

/-- No error of the store, a clock before every deadline, and batches of `L` jobs. -/
def calm (L : Nat) (ahead : Uuid → Nat) (w : World) : (op : Op) → op.Choice → Prop
  | .tx body, fault => fault = .none ∧ (body.eval w.db).isOk = true
  | .release x fromReconciliation, fault =>
    fault = .none ∧ ((releaseLocked x fromReconciliation).eval w.db).isOk = true
  | .now, t => ∀ j ∈ w.db.jobs, IsOpen j → t < j.deadlineAt
  | .listAttempts _, c | .attemptErrorKinds _, c | .latestUsageRevision _, c => c.isOk = true
  | .getRequest x, c => c.isOk = true ∧ (w.db.findRequest x).isSome = true
  | .listStaleOpenRequests, c => c.isOk = true
  | .listPendingReconciliationJobs, .ok batch =>
    ∀ j ∈ w.db.jobs, j.status = .pending → (batch j.id = true ↔ place ahead w.db j.requestId < L)
  | .listPendingReconciliationJobs, .error _ => False
  | _, _ => True

variable {x : Uuid} {base jobs : List ReconciliationJob} {deadline : Int} {db db' : Db}

instance (L : Nat) (ahead : Uuid → Nat) (w : World) (op : Op) (c : op.Choice) :
    Decidable (calm L ahead w op c) :=
  match op, c with
  | .tx _, _ | .release _ _, _ | .getRequest _, _ => instDecidableAnd
  | .now, t => inferInstanceAs (Decidable (∀ j ∈ w.db.jobs, IsOpen j → t < j.deadlineAt))
  | .listAttempts _, c | .attemptErrorKinds _, c | .latestUsageRevision _, c =>
    inferInstanceAs (Decidable (c.isOk = true))
  | .listStaleOpenRequests, c => inferInstanceAs (Decidable (c.isOk = true))
  | .listPendingReconciliationJobs, .ok batch =>
    inferInstanceAs (Decidable (∀ j ∈ w.db.jobs, j.status = .pending →
      (batch j.id = true ↔ place ahead w.db j.requestId < L)))
  | .listPendingReconciliationJobs, .error _ => instDecidableFalse
  | .check _, _ | .newId, _ | .send _, _ | .cooldown _, _ | .streamEnd, _ | .price, _
  | .attemptCost, _ | .lookupUsage _, _ => instDecidableTrue

section Quiet

variable {L : Nat} {ahead : Uuid → Nat} {w w' : World}

theorem exists_ok {ε α : Type} {c : Except ε α} (ok : c.isOk = true) : ∃ a, c = .ok a := by
  cases c with
  | error e => simp [Except.isOk, Except.toBool] at ok
  | ok a => exact ⟨a, rfl⟩

theorem tx_plays {body : Tx Unit} {r : Except Cause Unit}
    (ran : (tx body).Plays (calm L ahead) w r w') : body.eval w.db = .ok ((), w'.db) := by
  obtain ⟨fault, ⟨rfl, ok⟩, _, rfl⟩ := Prog.plays_perform.mp ran
  obtain ⟨done, run⟩ := exists_ok ok
  simp only [exec, transact, run]
  rfl

theorem releaseProvenZero_plays {fromReconciliation : Bool}
    (ran : (releaseProvenZero x fromReconciliation).Plays (calm L ahead) w () w') :
    Finished x w.db w'.db ∧
      w'.db.jobs = if fromReconciliation then resolved x w.db.jobs else w.db.jobs := by
  obtain ⟨fault, ⟨rfl, ok⟩, -, rfl⟩ := Prog.plays_perform_bind.mp ran
  apply releaseLocked_finishes
  obtain ⟨done, run⟩ := exists_ok ok
  simp only [exec, World.release, transact, run]

theorem loadEvidence_plays {r : Except Cause (List Attempt × List (Uuid × String))}
    (ran : (loadEvidence x).Plays (calm L ahead) w r w') :
    w' = w ∧ r = .ok (attemptsAt w.db x,
      (attemptsAt w.db x).map (fun a => (a.id, a.errorKind))) := by
  obtain ⟨c, ok, ran⟩ := Prog.plays_perform_bind.mp ran
  obtain ⟨_, rfl⟩ := exists_ok ok
  obtain ⟨c, ok, ran⟩ := Prog.plays_perform_bind.mp ran
  obtain ⟨_, rfl⟩ := exists_ok ok
  exact ⟨ran.2, ran.1⟩

def Filed (x : Uuid) (jobs jobs' : List ReconciliationJob) : Prop :=
  jobs' = jobs ∨ ∃ new : ReconciliationJob, new.requestId = x ∧
    jobs' = if jobs.any (·.requestId = x) then
      updateWhere (·.requestId = x) (fun j => ReconciliationJob.merge j new) jobs
    else jobs ++ [new]

theorem Kept.filed {S : List Uuid} {jobs' : List ReconciliationJob}
    (kept : Kept S base jobs) (filed : Filed x jobs jobs')
    (live : ∀ j ∈ base, j.requestId = x → x ∉ S ∧ IsOpen j) : Kept S base jobs' := by
  rcases filed with rfl | ⟨new, is, rfl⟩
  · exact kept
  · exact kept.enqueue new is live

theorem enqueue_files {jobId : Uuid} {reason : JobReason}
    (ran : (enqueueReconciliationJobTx jobId x reason deadline).eval db = .ok ((), db')) :
    db'.requests = db.requests ∧ facts db' = facts db ∧ Filed x db.jobs db'.jobs := by
  obtain ⟨-, done⟩ := insertRow_ok.mp ran
  simp only [Prod.mk.injEq, true_and] at done
  split_ifs at done with filed
  · subst done
    refine ⟨rfl, rfl, .inr ⟨⟨jobId, x, reason, .pending, deadline⟩, rfl, ?_⟩⟩
    rw [if_pos filed]
  · subst done
    refine ⟨rfl, rfl, .inr ⟨⟨jobId, x, reason, .pending, deadline⟩, rfl, ?_⟩⟩
    rw [if_neg filed]

theorem commitSettlement_plays {anchorId : Uuid} {record : UsageRecord} {charge : Int}
    {verified : Bool}
    (ran : (commitSettlement x anchorId record charge deadline verified).Plays (calm L ahead)
      w () w') : Finished x w.db w'.db ∧ Filed x w.db.jobs w'.db.jobs := by
  obtain ⟨settledAt, -, ran⟩ := Prog.plays_perform_bind.mp ran
  obtain ⟨cost, -, ran⟩ := Prog.plays_perform_bind.mp ran
  obtain ⟨jobId, -, ran⟩ := Prog.plays_perform_bind.mp ran
  obtain ⟨_, _, committed, -, rfl⟩ := Prog.plays_bind.mp ran
  obtain ⟨_, db₁, settled, filed⟩ := (Txn.eval_bind_ok _ _ _ _).mp (tx_plays committed)
  obtain ⟨finished, same⟩ := settle_finishes settled
  cases verified with
  | true =>
    cases filed
    exact ⟨finished, .inl same⟩
  | false =>
    obtain ⟨requests, attempts, files⟩ := enqueue_files filed
    have final := finished.final
    have others := finished.others
    simp only [Db.findRequest, ← requests] at final others
    rw [same] at files
    exact ⟨⟨finished.wasOpen, final, others, requests ▸ finished.ids,
      attempts.trans finished.evidence⟩, files⟩

theorem settleUnknownCharge_plays {q : Request} {anchor : Attempt}
    (ran : (settleUnknownCharge q anchor deadline).Plays (calm L ahead) w () w') :
    (w' = w ∧ q.reservedMicros = none) ∨
      (Finished q.id w.db w'.db ∧ Filed q.id w.db.jobs w'.db.jobs) := by
  unfold settleUnknownCharge at ran
  split at ran
  · rename_i none
    exact .inl ⟨ran.2, none⟩
  · obtain ⟨found, -, ran⟩ := Prog.plays_perform_bind.mp ran
    cases found with
    | some found => exact .inr (commitSettlement_plays ran)
    | none =>
      obtain ⟨c, ok, ran⟩ := Prog.plays_perform_bind.mp ran
      obtain ⟨_, rfl⟩ := exists_ok ok
      exact .inr (commitSettlement_plays ran)

theorem recoverRequest_plays {q : Request}
    (ran : (recoverRequest deadline q).Plays (calm L ahead) w () w') :
    w'.db = w.db ∨ (Finished q.id w.db w'.db ∧ Filed q.id w.db.jobs w'.db.jobs) := by
  obtain ⟨_, _, loaded, ran⟩ := Prog.plays_bind.mp ran
  obtain ⟨rfl, rfl⟩ := loadEvidence_plays loaded
  dsimp only at ran
  split at ran
  · obtain ⟨finished, same⟩ := releaseProvenZero_plays ran
    exact .inr ⟨finished, .inl same⟩
  · rcases settleUnknownCharge_plays ran with ⟨rfl, _⟩ | done
    · exact .inl rfl
    · exact .inr done

def Workable (db : Db) (x : Uuid) : Prop :=
  terminal db x = false ∧ attemptsAt db x ≠ [] ∧
    (ProvenZero db x ∨ ∃ q, db.findRequest x = some q ∧ q.reservedMicros ≠ none)

theorem processJob_plays {job : ReconciliationJob}
    (ran : (processJob deadline job).Plays (calm L ahead) w () w') :
    (w'.db = w.db ∧ ¬ Workable w.db job.requestId) ∨
      (Finished job.requestId w.db w'.db ∧
        (ProvenZero w.db job.requestId ∧ w'.db.jobs = resolved job.requestId w.db.jobs ∨
          ¬ ProvenZero w.db job.requestId ∧ Filed job.requestId w.db.jobs w'.db.jobs)) := by
  obtain ⟨c, ⟨ok, found⟩, ran⟩ := Prog.plays_perform_bind.mp ran
  obtain ⟨_, rfl⟩ := exists_ok ok
  obtain ⟨q, found⟩ := Option.isSome_iff_exists.mp found
  simp only [exec, Except.bind, found] at ran
  have mine : q.id = job.requestId := (find_key found).2
  split_ifs at ran with final
  · have closed : terminal w.db job.requestId = true := by
      simpa [terminal, found, isFinal] using final
    refine .inl ⟨congrArg World.db ran.2, fun workable => ?_⟩
    rw [workable.1] at closed
    cases closed
  · obtain ⟨_, _, loaded, ran⟩ := Prog.plays_bind.mp ran
    obtain ⟨here, rfl⟩ := loadEvidence_plays loaded
    rw [here, mine] at ran
    dsimp only at ran
    split_ifs at ran with bare
    · simp only [Bool.and_eq_true, List.isEmpty_iff] at bare
      exact .inl ⟨congrArg World.db ran.2, fun workable => workable.2.1 bare.1⟩
    · split at ran
      · rename_i zero
        obtain ⟨finished, jobs⟩ := releaseProvenZero_plays ran
        exact .inr ⟨finished, .inl ⟨zero, jobs⟩⟩
      · rename_i anchor sent
        have nonzero : ¬ ProvenZero w.db job.requestId := by
          unfold ProvenZero
          rw [sent]
          simp
        rcases settleUnknownCharge_plays ran with ⟨rfl, none⟩ | done
        · refine .inl ⟨rfl, fun workable => ?_⟩
          obtain ⟨-, -, zero | ⟨q', found', reserved⟩⟩ := workable
          · exact nonzero zero
          · cases found.symm.trans found'
            exact reserved none
        · rw [mine] at done
          exact .inr ⟨done.1, .inr ⟨nonzero, done.2⟩⟩

end Quiet

/-! ### One pass -/

structure Advance (done : List Uuid) (db db' : Db) : Prop where
  ids : db'.requests.map (·.id) = db.requests.map (·.id)
  evidence : facts db' = facts db
  others : ∀ x, x ∉ done → db'.findRequest x = db.findRequest x
  final : ∀ x, terminal db x = true → terminal db' x = true

namespace Advance

variable {done done' : List Uuid} {db db₁ db' : Db}

theorem same (requests : db'.requests = db.requests)
    (attempts : facts db' = facts db) : Advance done db db' where
  ids := by rw [requests]
  evidence := attempts
  others x _ := by simp only [Db.findRequest, requests]
  final x closed := by rwa [terminal_congr requests]

theorem trans (first : Advance done db db₁) (next : Advance done' db₁ db') :
    Advance (done ++ done') db db' where
  ids := next.ids.trans first.ids
  evidence := next.evidence.trans first.evidence
  others x out := by
    rw [List.mem_append, not_or] at out
    exact (next.others x out.2).trans (first.others x out.1)
  final x closed := next.final x (first.final x closed)

end Advance

theorem Finished.closes (finished : Finished x db db') :
    terminal db x = false ∧ terminal db' x = true := by
  obtain ⟨q, found, live⟩ := finished.wasOpen
  obtain ⟨q', found', final⟩ := finished.final
  simp [terminal, found, live, found', final]

theorem Finished.advance (finished : Finished x db db') : Advance [x] db db' where
  ids := finished.ids
  evidence := finished.evidence
  others y out := finished.others y (by simpa using out)
  final y closed := by
    by_cases mine : y = x
    · rw [mine]
      exact finished.closes.2
    · rw [terminal, finished.others y mine]
      exact closed

theorem workable_congr (row : db'.findRequest x = db.findRequest x)
    (attempts : facts db' = facts db) : Workable db' x ↔ Workable db x := by
  unfold Workable terminal
  rw [row, provenZero_congr attempts, Ne, attemptsAt_nil attempts]

def InFlight (db : Db) (x : Uuid) : Prop :=
  ∃ q ∈ db.requests, q.id = x ∧ q.status ∈ openRequestStatuses

instance (db : Db) (x : Uuid) : Decidable (InFlight db x) :=
  inferInstanceAs (Decidable (∃ q ∈ db.requests, q.id = x ∧ q.status ∈ openRequestStatuses))

section Phases

variable {L : Nat} {ahead : Uuid → Nat} {w w' : World} {deadline : Int}

theorem recoverStale_lists (ran : (recoverStale deadline).Plays (calm L ahead) w () w') :
    ∃ stale : List Request, (∀ q ∈ stale, InFlight w.db q.id) ∧
      (Prog.each (recoverRequest deadline) stale).Plays (calm L ahead) w () w' := by
  obtain ⟨c, ok, ran⟩ := Prog.plays_perform_bind.mp ran
  obtain ⟨stale, rfl⟩ := exists_ok ok
  refine ⟨_, fun q mem => ?_, ran⟩
  simp only [List.mem_filter, Bool.and_eq_true, decide_eq_true_eq] at mem
  exact ⟨q, mem.1, rfl, mem.2.1⟩

theorem recoverStale_plays (unique : (w.db.jobs.map (·.requestId)).Nodup)
    (unclosed : ∀ j ∈ w.db.jobs, InFlight w.db j.requestId → IsOpen j)
    (ran : (recoverStale deadline).Plays (calm L ahead) w () w') :
    ∃ done, (∀ x ∈ done, InFlight w.db x) ∧ Advance done w.db w'.db ∧
      Kept [] w.db.jobs w'.db.jobs := by
  obtain ⟨stale, inFlight, ran⟩ := recoverStale_lists ran
  refine ⟨stale.map (·.id), ?_, Prog.Plays.each (I := fun ys v =>
    Advance (ys.map (·.id)) w.db v.db ∧ Kept [] w.db.jobs v.db.jobs)
    ⟨.same rfl rfl, .refl unique⟩ ?_ ran⟩
  · intro x mem
    obtain ⟨q, here, rfl⟩ := List.mem_map.mp mem
    exact inFlight q here
  · intro ys q zs all v v' ⟨advance, kept⟩ ran
    rw [List.map_append, List.map_singleton]
    rcases recoverRequest_plays ran with same | ⟨finished, filed⟩
    · rw [same]
      exact ⟨advance.trans (.same rfl rfl), kept⟩
    · refine ⟨advance.trans finished.advance, kept.filed filed fun j mem mine => ?_⟩
      have here := inFlight q (by rw [all]; simp)
      exact ⟨List.not_mem_nil, unclosed j mem (mine ▸ here)⟩

theorem Kept.pending (kept : Kept [] base jobs)
    {j j' : ReconciliationJob} (mem : j ∈ jobs) (pending : j.status = .pending) (mem' : j' ∈ base)
    (same : j'.requestId = j.requestId) : j'.status = .pending := by
  obtain ⟨moved, memm, id, status⟩ := kept.status_of_mem mem'
  have : moved = j := List.inj_on_of_nodup_map kept.unique memm mem (id.trans same)
  rw [this, pending] at status
  simpa [closedIn] using status.symm

structure Processed (base : List ReconciliationJob) (db : Db) (done S : List Uuid) (db' : Db) :
    Prop where
  advance : Advance done db db'
  kept : Kept S base db'.jobs
  closed : ∀ x ∈ S, x ∈ done ∧ terminal db x = false
  served : ∀ x ∈ done, Workable db x → terminal db' x = true ∧ (ProvenZero db x → x ∈ S)

theorem Processed.step {done S : List Uuid}
    {job : ReconciliationJob} (here : Processed base db done S w.db) (new : job.requestId ∉ done)
    (live : ∀ j ∈ base, j.requestId = job.requestId → IsOpen j)
    (ran : (processJob deadline job).Plays (calm L ahead) w () w') :
    ∃ S', Processed base db (done ++ [job.requestId]) S' w'.db := by
  have row := here.advance.others _ new
  have zero := provenZero_congr here.advance.evidence job.requestId
  have older {S' : List Uuid} (more : S ⊆ S') (advance : Advance [job.requestId] w.db w'.db) :
      ∀ x ∈ done, Workable db x → terminal w'.db x = true ∧ (ProvenZero db x → x ∈ S') := by
    intro x mem workable
    obtain ⟨closed, left⟩ := here.served x mem workable
    exact ⟨advance.final x closed, fun zero => more (left zero)⟩
  have wider {x : Uuid} (mem : x ∈ S) : x ∈ done ++ [job.requestId] ∧ terminal db x = false :=
    ⟨List.mem_append_left _ (here.closed x mem).1, (here.closed x mem).2⟩
  rcases processJob_plays ran with ⟨same, idle⟩ | ⟨finished, how⟩
  · rw [same]
    refine ⟨S, here.advance.trans (.same rfl rfl), here.kept, fun x mem => wider mem, ?_⟩
    intro x mem workable
    rcases List.mem_append.mp mem with mem | mem
    · exact here.served x mem workable
    · cases List.mem_singleton.mp mem
      exact absurd ((workable_congr row here.advance.evidence).mpr workable) idle
  · have advance := here.advance.trans finished.advance
    have wasOpen : terminal db job.requestId = false := by
      have := finished.closes.1
      rwa [terminal, row] at this
    rcases how with ⟨free, jobs⟩ | ⟨charged, filed⟩
    · refine ⟨job.requestId :: S, advance, jobs ▸ here.kept.resolve _, ?_, ?_⟩
      · intro x mem
        rcases List.mem_cons.mp mem with rfl | mem
        · exact ⟨by simp, wasOpen⟩
        · exact wider mem
      · intro x mem workable
        rcases List.mem_append.mp mem with mem | mem
        · exact older (List.subset_cons_self _ _) finished.advance x mem workable
        · cases List.mem_singleton.mp mem
          exact ⟨finished.closes.2, fun _ => List.mem_cons_self⟩
    · have outside : job.requestId ∉ S := fun mem => new (here.closed _ mem).1
      refine ⟨S, advance, here.kept.filed filed fun j mem mine => ⟨outside, live j mem mine⟩,
        fun x mem => wider mem, ?_⟩
      intro x mem workable
      rcases List.mem_append.mp mem with mem | mem
      · exact older (fun _ => id) finished.advance x mem workable
      · cases List.mem_singleton.mp mem
        exact ⟨finished.closes.2, fun free => absurd (zero.mpr free) charged⟩

theorem processJobs_lists (ran : (processJobs deadline).Plays (calm L ahead) w () w') :
    ∃ listed : List ReconciliationJob, listed.Sublist w.db.jobs ∧
      (∀ j ∈ w.db.jobs, j ∈ listed ↔ j.status = .pending ∧ place ahead w.db j.requestId < L) ∧
      (Prog.each (processJob deadline) listed).Plays (calm L ahead) w () w' := by
  obtain ⟨c, ok, ran⟩ := Prog.plays_perform_bind.mp ran
  cases c with
  | error e => cases ok
  | ok batch =>
    refine ⟨_, List.filter_sublist, fun j mem => ?_, ran⟩
    simp only [List.mem_filter, mem, true_and, Bool.and_eq_true, decide_eq_true_eq]
    exact and_congr_right (ok j mem)

theorem processJobs_plays (kept : Kept [] base w.db.jobs)
    (ran : (processJobs deadline).Plays (calm L ahead) w () w') :
    ∃ done S, (∀ x, x ∈ done ↔ x ∈ queue w.db.jobs ∧ place ahead w.db x < L) ∧
      Processed base w.db done S w'.db := by
  obtain ⟨listed, within, front, ran⟩ := processJobs_lists ran
  have once := kept.unique.sublist (within.map (·.requestId))
  have invariant : ∃ S, Processed base w.db (listed.map (·.requestId)) S w'.db := by
    refine Prog.Plays.each (I := fun ys v => ∃ S, Processed base w.db
      (ys.map (·.requestId)) S v.db) ⟨[], .same rfl rfl, kept, by simp, by simp⟩ ?_ ran
    intro ys j zs all v v' ⟨S, here⟩ ran
    have mem : j ∈ listed := by simp [all]
    have pending := ((front j (within.subset mem)).mp mem).1
    rw [all, List.map_append, List.map_cons] at once
    rw [List.map_append, List.map_singleton]
    refine here.step (fun before => ?_) (fun j' mem' same => .inl ?_) ran
    · exact (List.nodup_append.mp once).2.2 _ before _ List.mem_cons_self rfl
    · exact kept.pending (within.subset mem) pending mem' same
  obtain ⟨S, processed⟩ := invariant
  refine ⟨_, S, fun x => ?_, processed⟩
  rw [List.mem_map, mem_queue]
  constructor
  · rintro ⟨j, mem, rfl⟩
    obtain ⟨pending, near⟩ := (front j (within.subset mem)).mp mem
    exact ⟨⟨j, within.subset mem, pending, rfl⟩, near⟩
  · rintro ⟨⟨j, mem, pending, rfl⟩, near⟩
    exact ⟨j, (front j mem).mpr ⟨pending, near⟩, rfl⟩

end Phases

def parked (db : Db) (x : Uuid) : Bool :=
  (db.findRequest x).any (·.status = .reconciliationRequired)

theorem not_inFlight (unique : (db.requests.map (·.id)).Nodup)
    (here : parked db x = true) : ¬ InFlight db x := by
  rintro ⟨q, mem, rfl, status⟩
  obtain ⟨q', found, is⟩ := (Option.any_eq_true _ _).mp here
  have key := find_key found
  have : q' = q := List.inj_on_of_nodup_map unique key.1 mem key.2
  simp only [this, decide_eq_true_eq] at is
  rw [is] at status
  exact absurd status (by decide)

structure Keyed (db : Db) : Prop where
  requests : (db.requests.map (·.id)).Nodup
  jobs : (db.jobs.map (·.requestId)).Nodup

structure Swept (L : Nat) (ahead : Uuid → Nat) (S : List Uuid) (db db' : Db) : Prop where
  ids : db'.requests.map (·.id) = db.requests.map (·.id)
  evidence : facts db' = facts db
  final : ∀ x, terminal db x = true → terminal db' x = true
  kept : Kept S db.jobs db'.jobs
  closed : ∀ x ∈ S, x ∈ queue db.jobs → place ahead db x < L ∧ terminal db x = false
  behind : ∀ x ∈ queue db.jobs, parked db x = true → L ≤ place ahead db x →
    db'.findRequest x = db.findRequest x
  served : ∀ x ∈ queue db.jobs, parked db x = true → place ahead db x < L → Workable db x →
    terminal db' x = true ∧ (ProvenZero db x → x ∈ S)

variable {ahead : Uuid → Nat} {w w' : World}

theorem runPass_plays {L : Nat} {batch : Uuid → Bool} (keyed : Keyed w.db)
    (unclosed : ∀ j ∈ w.db.jobs, InFlight w.db j.requestId → IsOpen j)
    (ran : (runPass deadline batch).Plays (calm L ahead) w () w') :
    ∃ S, Swept L ahead S w.db w'.db := by
  obtain ⟨at_, early, ran⟩ := Prog.plays_perform_bind.mp ran
  obtain ⟨_, w₁, scan, ran⟩ := Prog.plays_bind.mp ran
  obtain ⟨_, w₂, work, ran⟩ := Prog.plays_bind.mp ran
  obtain ⟨_, _, escalated, -, rfl⟩ := Prog.plays_bind.mp ran
  obtain ⟨done₁, inFlight, first, kept₁⟩ := recoverStale_plays keyed.jobs unclosed scan
  obtain ⟨done₂, S, front, processed⟩ := processJobs_plays kept₁ work
  have escalated := tx_plays escalated
  simp only [escalateOverdue, Txn.eval_exec, Except.map, Except.ok.injEq, Prod.mk.injEq,
    true_and] at escalated
  have last : Advance [] w₂.db w'.db := by
    rw [← escalated]
    exact .same rfl rfl
  have all := (first.trans processed.advance).trans last
  have kept : Kept S w.db.jobs w'.db.jobs := by
    rw [← escalated]
    exact processed.kept.escalate early
  -- the scan appends to the queue, so that places do not change before the batch is read
  obtain ⟨new, jobs₁, -⟩ := kept₁.queue_eq
  simp only [List.not_mem_nil, not_false_eq_true, decide_true, List.filter_true] at jobs₁
  have still : ∀ x ∈ queue w.db.jobs, x ∈ queue w₁.db.jobs ∧
      place ahead w₁.db x = place ahead w.db x := by
    intro x mem
    unfold place
    rw [jobs₁, List.idxOf_append_of_mem mem]
    exact ⟨List.mem_append_left _ mem, rfl⟩
  refine ⟨S, all.ids, all.evidence, all.final, kept, ?_, ?_, ?_⟩
  · intro x mem queued
    obtain ⟨inside, wasOpen⟩ := processed.closed x mem
    rw [← (still x queued).2]
    refine ⟨((front x).mp inside).2, ?_⟩
    rw [Bool.eq_false_iff]
    intro closed
    rw [first.final x closed] at wasOpen
    cases wasOpen
  · intro x queued here far
    apply all.others
    rw [List.append_nil, List.mem_append, not_or]
    refine ⟨fun mem => not_inFlight keyed.requests here (inFlight x mem), fun mem => ?_⟩
    have near := ((front x).mp mem).2
    rw [(still x queued).2] at near
    omega
  · intro x queued here near workable
    have row := first.others x fun mem => not_inFlight keyed.requests here (inFlight x mem)
    have inside : x ∈ done₂ := (front x).mpr ⟨(still x queued).1, (still x queued).2 ▸ near⟩
    obtain ⟨closed, left⟩ := processed.served x inside ((workable_congr row first.evidence).mpr workable)
    exact ⟨last.final x closed, fun zero => left ((provenZero_congr first.evidence x).mpr zero)⟩

/-! ### Runs of passes -/

structure Waiting (db : Db) (x : Uuid) : Prop where
  queued : x ∈ queue db.jobs
  row : ∃ q, db.findRequest x = some q ∧ q.status = .reconciliationRequired ∧
    q.reservedMicros ≠ none
  tried : attemptsAt db x ≠ []

@[mk_iff]
structure Leaving (db : Db) (x : Uuid) : Prop where
  row : parked db x = true
  tried : attemptsAt db x ≠ []
  zero : ProvenZero db x

/-- A request that waits behind the batch has only jobs before it that leave, and no job was closed
while its request was in flight. -/
structure Flowing (L : Nat) (ahead : Uuid → Nat) (db : Db) : Prop where
  unclosed : ∀ j ∈ db.jobs, InFlight db j.requestId → IsOpen j
  front : ∀ x, Waiting db x → L ≤ place ahead db x →
    ∀ y ∈ (queue db.jobs).take L, ahead y = 0 ∧ Leaving db y

instance (db : Db) (x : Uuid) : Decidable (Waiting db x) :=
  decidable_of_iff (x ∈ queue db.jobs ∧
      (db.findRequest x).any (fun q =>
        q.status = .reconciliationRequired ∧ q.reservedMicros ≠ none) ∧
      attemptsAt db x ≠ [])
    ⟨fun ⟨queued, row, tried⟩ => ⟨queued, by simpa [Option.any_eq_true] using row, tried⟩,
      fun waiting => ⟨waiting.queued, by simpa [Option.any_eq_true] using waiting.row,
        waiting.tried⟩⟩

instance (db : Db) (x : Uuid) : Decidable (Leaving db x) :=
  decidable_of_iff _ (leaving_iff db x).symm

instance (L : Nat) (ahead : Uuid → Nat) (db : Db) : Decidable (Flowing L ahead db) :=
  decidable_of_iff ((∀ j ∈ db.jobs, InFlight db j.requestId → IsOpen j) ∧
      ∀ x ∈ queue db.jobs, Waiting db x → L ≤ place ahead db x →
        ∀ y ∈ (queue db.jobs).take L, ahead y = 0 ∧ Leaving db y)
    ⟨fun ⟨unclosed, front⟩ => ⟨unclosed, fun x waiting => front x waiting.queued waiting⟩,
      fun flowing => ⟨flowing.unclosed, fun x _ => flowing.front x⟩⟩

/-- `n` passes of the worker and nothing else, each from a state with `before`. -/
inductive Passes (deadline : Int) (L : Nat) (ahead : Uuid → Nat) (before : Db → Prop) :
    Nat → World → World → Prop where
  | none (w : World) : Passes deadline L ahead before 0 w w
  | pass {n : Nat} {w w₁ w' : World} (batch : Uuid → Bool) (here : before w.db)
      (ran : (runPass deadline batch).Plays (calm L ahead) w () w₁)
      (rest : Passes deadline L ahead before n w₁ w') : Passes deadline L ahead before (n + 1) w w'

section Runs

variable {L : Nat} {ahead : Uuid → Nat} {db db' : Db} {x : Uuid}

theorem Waiting.parked (waiting : Waiting db x) : Gateway.parked db x = true := by
  obtain ⟨q, found, status, -⟩ := waiting.row
  simp [Gateway.parked, found, status]

theorem open_of_parked (here : parked db x = true) : terminal db x = false := by
  unfold parked at here
  unfold terminal
  cases found : db.findRequest x with
  | none => rfl
  | some q =>
    simp only [found, Option.any_some, decide_eq_true_eq] at here
    simp [isFinal, here]

theorem Waiting.workable (waiting : Waiting db x) : Workable db x := by
  obtain ⟨q, found, -, reserved⟩ := waiting.row
  exact ⟨open_of_parked waiting.parked, waiting.tried, .inr ⟨q, found, reserved⟩⟩

theorem Leaving.workable (leaving : Leaving db x) : Workable db x :=
  ⟨open_of_parked leaving.row, leaving.tried, .inl leaving.zero⟩

theorem idxOf_filter_le {α : Type} [DecidableEq α] {p : α → Bool} {a : α} (keep : p a = true)
    (l : List α) : (l.filter p).idxOf a ≤ l.idxOf a := by
  induction l with
  | nil => simp
  | cons b l ih =>
    by_cases here : b = a
    · simp [here, keep]
    · rw [List.idxOf_cons_ne _ here, List.filter_cons]
      split
      · rw [List.idxOf_cons_ne _ here]
        omega
      · omega

theorem idxOf_filter_drop {α : Type} [DecidableEq α] {p : α → Bool} {a : α} {l : List α} {n : Nat}
    (keep : p a = true) (far : n ≤ l.idxOf a) (gone : ∀ b ∈ l.take n, p b = false) :
    (l.filter p).idxOf a + n ≤ l.idxOf a := by
  have out : a ∉ l.take n := fun mem => by
    rw [gone a mem] at keep
    cases keep
  have split : l.filter p = (l.drop n).filter p := by
    conv_lhs => rw [← List.take_append_drop n l, List.filter_append]
    rw [List.filter_eq_nil_iff.mpr (by simpa using gone), List.nil_append]
  have whole : l.idxOf a = (l.take n).length + (l.drop n).idxOf a := by
    conv_lhs => rw [← List.take_append_drop n l]
    exact List.idxOf_append_of_notMem out
  have short : n ≤ l.length := far.trans List.idxOf_le_length
  have := idxOf_filter_le keep (l.drop n)
  rw [split, whole, List.length_take, Nat.min_eq_left short]
  omega

namespace Swept

variable {S : List Uuid} (pass : Swept L ahead S db db')
include pass

theorem keyed (keyed : Keyed db) : Keyed db' := ⟨pass.ids ▸ keyed.requests, pass.kept.unique⟩

theorem stays (queued : x ∈ queue db.jobs) (out : x ∉ S) :
    x ∈ queue db'.jobs ∧ place ahead db' x =
      ((queue db.jobs).filter (fun y => y ∉ S)).idxOf x + ahead x := by
  obtain ⟨new, jobs, -⟩ := pass.kept.queue_eq
  have mem : x ∈ (queue db.jobs).filter (fun y => y ∉ S) := by simp [queued, out]
  unfold place
  rw [jobs, List.idxOf_append_of_mem mem]
  exact ⟨List.mem_append_left _ mem, rfl⟩

theorem waiting (waiting : Waiting db x) (far : L ≤ place ahead db x) : Waiting db' x where
  queued := by
    refine (pass.stays waiting.queued fun mem => ?_).1
    have near := (pass.closed x mem waiting.queued).1
    omega
  row := by
    rw [pass.behind x waiting.queued waiting.parked far]
    exact waiting.row
  tried := by
    rw [Ne, attemptsAt_nil pass.evidence]
    exact waiting.tried

theorem moves_up (flowing : Flowing L ahead db) (waiting : Waiting db x) :
    terminal db' x = true ∨ Waiting db' x ∧ place ahead db' x + L ≤ place ahead db x := by
  by_cases near : place ahead db x < L
  · exact .inl (pass.served x waiting.queued waiting.parked near waiting.workable).1
  · have far : L ≤ place ahead db x := Nat.le_of_not_lt near
    have front := flowing.front x waiting far
    have gone : ∀ y ∈ (queue db.jobs).take L, y ∈ S := by
      intro y mem
      obtain ⟨first, leaving⟩ := front y mem
      have queued := List.mem_of_mem_take mem
      have near : place ahead db y < L := by
        rw [place, first]
        exact (List.mem_take_iff_idxOf_lt queued).mp mem
      exact (pass.served y queued leaving.row near leaving.workable).2 leaving.zero
    have out : x ∉ S := fun mem => near (pass.closed x mem waiting.queued).1
    have behind : L ≤ (queue db.jobs).idxOf x := by
      by_contra ahead
      exact out (gone x ((List.mem_take_iff_idxOf_lt waiting.queued).mpr (by omega)))
    refine .inr ⟨pass.waiting waiting far, ?_⟩
    have := idxOf_filter_drop (p := fun y => decide (y ∉ S)) (by simpa using out) behind
      (by simpa using gone)
    rw [(pass.stays waiting.queued out).2, place]
    omega

end Swept

end Runs

theorem Passes.drain {L : Nat} {n : Nat}
    (passes : Passes deadline L ahead (Flowing L ahead) n w w') (keyed : Keyed w.db)
    (start : terminal w.db x = true ∨ Waiting w.db x ∧ place ahead w.db x < n * L) :
    terminal w'.db x = true := by
  induction passes with
  | none w => simpa using start
  | @pass n w w₁ w' batch flowing ran rest ih =>
    obtain ⟨S, pass⟩ := runPass_plays keyed flowing.unclosed ran
    apply ih (pass.keyed keyed)
    rcases start with closed | ⟨waiting, near⟩
    · exact .inl (pass.final x closed)
    · rcases pass.moves_up flowing waiting with closed | ⟨waiting, up⟩
      · exact .inl closed
      · refine .inr ⟨waiting, ?_⟩
        rw [Nat.succ_mul] at near
        omega

/-- With `N` pending jobs, `W` of them window-level, every waiting request is settled or released
after `⌈N / L⌉` passes, if the queue flows before each of them. -/
theorem parked_requests_drain {deadline : Int} {L W n : Nat} (batches : 1 ≤ L)
    {ahead : Uuid → Nat} {w w' : World} (windows : ∀ x ∈ queue w.db.jobs, ahead x ≤ W)
    (keyed : Keyed w.db) (enough : ((queue w.db.jobs).length + W + L - 1) / L ≤ n)
    (passes : Passes deadline L ahead (Flowing L ahead) n w w') (x : Uuid)
    (waiting : Waiting w.db x) :
    ∃ q, w'.db.findRequest x = some q ∧ (q.status = .settled ∨ q.status = .released) := by
  have inside : (queue w.db.jobs).idxOf x < (queue w.db.jobs).length :=
    List.idxOf_lt_length_of_mem waiting.queued
  have bound := windows x waiting.queued
  have covers : (queue w.db.jobs).length + W ≤ n * L := by
    have := (Nat.div_le_iff_le_mul_add_pred batches).mp enough
    rw [Nat.mul_comm] at this
    omega
  have near : place ahead w.db x < n * L := by
    unfold place
    omega
  have closed := passes.drain keyed (.inr ⟨waiting, near⟩)
  unfold terminal at closed
  obtain ⟨q, found, final⟩ := (Option.any_eq_true _ _).mp closed
  exact ⟨q, found, by simpa [isFinal] using final⟩

/-- Behind `L` pending jobs of final requests a waiting request is never reached, however many
passes follow. -/
theorem parked_requests_starve {L n : Nat}
    (passes : Passes deadline L ahead
      (fun db => ∀ j ∈ db.jobs, InFlight db j.requestId → IsOpen j) n w w')
    (keyed : Keyed w.db) (waiting : Waiting w.db x) (behind : L ≤ (queue w.db.jobs).idxOf x)
    (front : ∀ y ∈ (queue w.db.jobs).take L, terminal w.db y = true) : Waiting w'.db x := by
  induction passes with
  | none w => exact waiting
  | @pass n w w₁ w' batch unclosed ran rest ih =>
    obtain ⟨S, pass⟩ := runPass_plays keyed unclosed ran
    obtain ⟨new, jobs, -⟩ := pass.kept.queue_eq
    have far : L ≤ place ahead w.db x := by
      unfold place
      omega
    have long : L ≤ (queue w.db.jobs).length := behind.trans List.idxOf_le_length
    have stay : ((queue w.db.jobs).take L).filter (fun y => y ∉ S) = (queue w.db.jobs).take L := by
      rw [List.filter_eq_self]
      intro y mem
      have final := front y mem
      simp only [decide_eq_true_eq]
      intro left
      rw [(pass.closed y left (List.mem_of_mem_take mem)).2] at final
      cases final
    have same : (queue w₁.db.jobs).take L = (queue w.db.jobs).take L := by
      rw [jobs, ← List.take_append_drop L (queue w.db.jobs), List.filter_append, stay,
        List.append_assoc]
      simp [Nat.min_eq_left long]
    have still := pass.waiting waiting far
    refine ih (pass.keyed keyed) still ?_ ?_
    · by_contra near
      have mem := (List.mem_take_iff_idxOf_lt still.queued).mpr (Nat.lt_of_not_le near)
      rw [same, List.mem_take_iff_idxOf_lt waiting.queued] at mem
      omega
    · rw [same]
      exact fun y mem => pass.final y (front y mem)

/-! ### Two runs -/

def untroubled (L : Nat) (w : World) : (op : Op) → op.Choice
  | .listPendingReconciliationJobs => .ok fun id => w.db.jobs.any fun j =>
      j.id = id && place (fun _ => 0) w.db j.requestId < L
  | op => smooth 0 op

def passing (L : Nat) (before : Db → Prop) [DecidablePred before] : Nat → World → Option World
  | 0, w => some w
  | n + 1, w =>
    if before w.db then
      ((runPass 24 fun _ => true).play (calm L fun _ => 0) (untroubled L) w).bind
        fun r => passing L before n r.2
    else none

theorem passes_of_passing {L : Nat} {before : Db → Prop} [DecidablePred before] {n : Nat}
    (ran : passing L before n w = some w') : Passes 24 L (fun _ => 0) before n w w' := by
  induction n generalizing w with
  | zero =>
    cases ran
    exact .none _
  | succ n ih =>
    unfold passing at ran
    split_ifs at ran with here
    obtain ⟨⟨u, w₁⟩, first, rest⟩ := Option.bind_eq_some_iff.mp ran
    exact .pass _ here (Prog.plays_of_play first) (ih rest)

def parkedDb (first : AttemptStatus) (errorKind : String) : Db :=
  let request (id : Uuid) : Request :=
    ⟨id, 1, none, 5, 6, none, .reconciliationRequired, some 3, none, some 10, none, some 7, none,
      .plan, .unknown, "", none⟩
  { accounts := [⟨1, .active⟩]
    windows := [⟨10, 5, .weekly, 0, 1000, 100, 0, 14, false⟩]
    requests := [request 3, request 4]
    attempts := [⟨31, 3, 1, first, errorKind, none⟩, ⟨32, 4, 1, .streaming, "", none⟩]
    reservations := [⟨33, 3, .windowWeekly, some 10, none, 7, .held⟩,
      ⟨34, 4, .windowWeekly, some 10, none, 7, .held⟩]
    jobs := [⟨35, 3, .unknownUsage, .pending, 100⟩, ⟨36, 4, .unknownUsage, .pending, 100⟩] }

theorem parkedDb_keyed (first : AttemptStatus) (errorKind : String) :
    Keyed (parkedDb first errorKind) := ⟨by simp [parkedDb], by simp [parkedDb]⟩

theorem parked_requests_drain_refused :
    ∃ w', Passes 24 1 (fun _ => 0) (Flowing 1 fun _ => 0) 2
        ⟨parkedDb .failed "http_500", [], [], []⟩ w' ∧
      ∃ q, w'.db.findRequest 4 = some q ∧ (q.status = .settled ∨ q.status = .released) := by
  obtain ⟨w', ran⟩ := Option.isSome_iff_exists.mp (by decide +kernel :
    (passing 1 (Flowing 1 fun _ => 0) 2 ⟨parkedDb .failed "http_500", [], [], []⟩).isSome = true)
  have passes := passes_of_passing ran
  exact ⟨w', passes, parked_requests_drain (W := 0) (by decide) (fun _ _ => Nat.le_refl 0)
    (parkedDb_keyed _ _) (by decide) passes 4 (by decide +kernel)⟩

def settledFirst : World where
  db := { parkedDb .streaming "" with
    requests := (parkedDb .streaming "").requests.map fun q =>
      if q.id = 3 then { q with status := .settled } else q }

theorem parked_requests_starve_behind :
    ∃ w', Passes 24 1 (fun _ => 0) (fun db => ∀ j ∈ db.jobs, InFlight db j.requestId → IsOpen j) 2
      settledFirst w' ∧ Waiting w'.db 4 := by
  obtain ⟨w', ran⟩ := Option.isSome_iff_exists.mp (by decide +kernel : (passing 1 (fun db =>
    ∀ j ∈ db.jobs, InFlight db j.requestId → IsOpen j) 2 settledFirst).isSome = true)
  have passes := passes_of_passing ran
  exact ⟨w', passes, parked_requests_starve passes (by constructor <;> decide) (by decide +kernel)
    (by decide) (by decide +kernel)⟩

/-- The outcome of the first request is unknown: it is settled, its job stays, and the second pass
of batches of one job looks at nothing else. -/
theorem parked_request_starves :
    ∃ w w', Keyed w.db ∧ (queue w.db.jobs).length = 2 ∧ Waiting w.db 4 ∧
      Passes 24 1 (fun _ => 0) (fun _ => True) 2 w w' ∧
      (w'.db.findRequest 4).map (·.status) = some .reconciliationRequired := by
  have whole : (passing 1 (fun _ => True) 2 ⟨parkedDb .streaming "", [], [], []⟩).map
      (fun w => (w.db.findRequest 4).map (·.status)) =
        some (some .reconciliationRequired) := by decide +kernel
  obtain ⟨w', ran, status⟩ := Option.map_eq_some_iff.mp whole
  exact ⟨_, w', parkedDb_keyed _ _, by decide, by decide +kernel, passes_of_passing ran, status⟩

end YunhouUsers.Inference.Gateway
