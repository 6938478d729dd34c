import YunhouUsers.Inference.Conservation.Invariant
import YunhouUsers.Inference.Gateway.Recovery
import YunhouUsers.Inference.Postgres.Books

/-!
What the transactions of the recovery worker do to the requests and to the queue of jobs.
-/

namespace YunhouUsers.Inference.Gateway

open ReadCommitted CrashProne Table Postgres

def uncosted (a : Attempt) : Attempt := { a with cost := none }

def attemptsAt (db : Db) (x : Uuid) : List Attempt := ({ db } : World).attemptsOf x

def ProvenZero (db : Db) (x : Uuid) : Prop :=
  classify (attemptsAt db x) ((attemptsAt db x).map (fun a => (a.id, a.errorKind))) = .notSent

instance (db : Db) (x : Uuid) : Decidable (ProvenZero db x) := by
  unfold ProvenZero
  infer_instance

theorem attemptsAt_facts (db : Db) (x : Uuid) :
    (attemptsAt db x).map uncosted =
      ((facts db).filter (·.requestId = x)).insertionSort
        (fun a b => a.attemptNo ≤ b.attemptNo) := by
  have sorted := List.map_insertionSort (r := fun a b : Attempt => a.attemptNo ≤ b.attemptNo)
    (s := fun a b : Attempt => a.attemptNo ≤ b.attemptNo) uncosted
    (db.attempts.filter (·.requestId = x)) (fun _ _ _ _ => Iff.rfl)
  rw [facts, List.filter_map]
  exact sorted

section Evidence

variable {db db' : Db} (same : facts db' = facts db) (x : Uuid)
include same

theorem attemptsAt_stripped : (attemptsAt db' x).map uncosted =
    (attemptsAt db x).map uncosted := by
  rw [attemptsAt_facts, attemptsAt_facts, same]

theorem attemptsAt_nil : attemptsAt db' x = [] ↔ attemptsAt db x = [] := by
  rw [← List.map_eq_nil_iff (f := uncosted),
    attemptsAt_stripped same, List.map_eq_nil_iff]

theorem provenZero_congr : ProvenZero db' x ↔ ProvenZero db x := by
  have stripped := attemptsAt_stripped same x
  have kinds : (attemptsAt db' x).map (fun a => (a.id, a.errorKind)) =
      (attemptsAt db x).map (fun a => (a.id, a.errorKind)) := by
    have := congrArg (List.map (fun a : Attempt => (a.id, a.errorKind))) stripped
    rwa [List.map_map, List.map_map] at this
  have facts : (attemptsAt db' x).map (fun a => (a.status, a.id)) =
      (attemptsAt db x).map (fun a => (a.status, a.id)) := by
    have := congrArg (List.map (fun a : Attempt => (a.status, a.id))) stripped
    rwa [List.map_map, List.map_map] at this
  have transfer (db : Db) (kinds : List (Uuid × String)) :
      (∀ a ∈ attemptsAt db x, a.status = .failed ∧
          zeroConsumptionErrorKind (kindOf kinds a.id) = true) ↔
        ∀ f ∈ (attemptsAt db x).map (fun a => (a.status, a.id)), f.1 = .failed ∧
          zeroConsumptionErrorKind (kindOf kinds f.2) = true := by
    rw [List.forall_mem_map]
  rw [ProvenZero, ProvenZero, classify_notSent, classify_notSent, kinds, transfer, transfer, facts]

end Evidence

structure Finished (x : Uuid) (db db' : Db) : Prop where
  wasOpen : ∃ q, db.findRequest x = some q ∧ isFinal q = false
  final : ∃ q, db'.findRequest x = some q ∧ isFinal q = true
  others : ∀ id, id ≠ x → db'.findRequest id = db.findRequest id
  ids : db'.requests.map (·.id) = db.requests.map (·.id)
  evidence : facts db' = facts db

variable {x : Uuid} {db db' : Db}

theorem Finished.of_update {q : Request} {f : Request → Request}
    (found : db.findRequest x = some q) (live : isFinal q = false)
    (same : ∀ q, (f q).id = q.id) (final : ∀ q, isFinal (f q) = true)
    (rows : db'.requests = updateWhere (·.id = x) f db.requests)
    (attempts : facts db' = facts db) : Finished x db db' := by
  have find (id : Uuid) : db'.findRequest id =
      (db.findRequest id).map (fun q => if q.id = x then f q else q) := by
    have := find_updateWhere same (·.id = x) id db.requests
    simpa [Db.findRequest, rows] using this
  refine ⟨⟨q, found, live⟩, ⟨f q, ?_, final q⟩, ?_, ?_, attempts⟩
  · rw [find, found]
    simp [(find_key found).2]
  · intro id other
    rw [find]
    cases row : db.findRequest id with
    | none => rfl
    | some q => simp [(find_key row).2, other]
  · rw [rows]
    exact map_updateWhere _ _ _ same _

theorem settle_finishes {cmd : SettleCommand} {now : Int}
    (ran : (Postgres.settle cmd now).eval db = .ok ((), db')) :
    Finished cmd.requestId db db' ∧ db'.jobs = db.jobs := by
  obtain ⟨q, _, found, live, charges⟩ := settle_charges ran
  exact ⟨.of_update (f := settledRequest cmd) found (by simpa [isFinal] using live) (fun _ => rfl)
    (fun _ => rfl) charges.requests charges.attempts, charges.jobs⟩

def resolved (x : Uuid) (jobs : List ReconciliationJob) : List ReconciliationJob :=
  updateWhere (ReconciliationJob.isOpen x) (fun j => { j with status := .resolved }) jobs

theorem releaseLocked_finishes {fromReconciliation : Bool}
    (ran : (releaseLocked x fromReconciliation).eval db = .ok ((), db')) :
    Finished x db db' ∧ db'.jobs = if fromReconciliation then resolved x db.jobs else db.jobs := by
  simp only [releaseLocked, Txn.eval_bind_ok, selectOne_ok, lockAccountTx_ok, selectForUpdate_ok,
    Txn.eval_require_ok, loadHeldReservations, Txn.eval_query, updateRequestStatus,
    updateRow_ok] at ran
  obtain ⟨_, _, ⟨_, _, same⟩, _, _, ⟨_, same₁⟩, q, _, ⟨_, found, same₂⟩, _, _, ⟨live, same₃⟩, _, _,
    ⟨_, same₄⟩, rows, _, loaded, _, _, ⟨_, same₅⟩, five, db₁, released, _, db₂, voided, _, db₃,
    jobs, _, done⟩ := ran
  cases same
  cases same₁
  cases same₂
  cases same₃
  cases same₄
  cases loaded
  cases same₅
  cases done
  have live : isFinal q = false := by simpa [isFinal] using live
  have before : books db₂ = books db := by
    rw [(voidReleased_keeps books_beside _).eval voided,
      (releaseRows_keeps books_beside (fun _ _ => rfl) _ _ _).eval released]
  simp only [books, Prod.mk.injEq] at before
  obtain ⟨requests, _, _, queue, attempts⟩ := before
  have after : db₃.requests = db.requests ∧ facts db₃ = facts db ∧
      db₃.jobs = if fromReconciliation then resolved x db.jobs else db.jobs := by
    cases fromReconciliation with
    | false =>
      cases jobs
      exact ⟨requests, attempts, queue⟩
    | true =>
      simp only [Txn.when, if_true, resolveJobs, Txn.eval_bind_ok, tryUpdate_ok] at jobs
      obtain ⟨_, _, same, done⟩ := jobs
      cases same
      cases done
      refine ⟨requests, attempts, ?_⟩
      simp [resolved, queue]
  refine ⟨Finished.of_update (f := fun q => { q with status := .released, lastError := "" }) found
    live (fun _ => rfl) (fun _ => rfl) ?_ after.2.1, after.2.2⟩
  simp only [after.1]

def IsOpen (j : ReconciliationJob) : Prop := j.status = .pending ∨ j.status = .running

instance (j : ReconciliationJob) : Decidable (IsOpen j) := by
  unfold IsOpen
  infer_instance

def queue (jobs : List ReconciliationJob) : List Uuid :=
  (jobs.filter (·.status = .pending)).map (·.requestId)

def closedIn (S : List Uuid) (j : ReconciliationJob) : JobStatus :=
  if j.requestId ∈ S ∧ IsOpen j then .resolved else j.status

structure Kept (S : List Uuid) (base jobs : List ReconciliationJob) : Prop where
  moved : ∃ g new, jobs = base.map g ++ new ∧
    (∀ j ∈ base, (g j).requestId = j.requestId ∧ j.deadlineAt ≤ (g j).deadlineAt ∧
      (g j).status = closedIn S j) ∧
    ∀ n ∈ new, n.requestId ∉ base.map (·.requestId)
  unique : (jobs.map (·.requestId)).Nodup

namespace Kept

variable {S : List Uuid} {base jobs : List ReconciliationJob}

theorem refl (unique : (base.map (·.requestId)).Nodup) : Kept [] base base :=
  ⟨⟨id, [], by simp, by simp [closedIn], by simp⟩, unique⟩

variable (kept : Kept S base jobs)
include kept

theorem update {S' : List Uuid} {f : ReconciliationJob → ReconciliationJob}
    (same : ∀ j, (f j).requestId = j.requestId) (later : ∀ j, j.deadlineAt ≤ (f j).deadlineAt)
    (status : ∀ j ∈ base, ∀ j', j'.requestId = j.requestId → j.deadlineAt ≤ j'.deadlineAt →
      j'.status = closedIn S j → (f j').status = closedIn S' j) :
    Kept S' base (jobs.map f) := by
  obtain ⟨g, new, rfl, old, fresh⟩ := kept.moved
  refine ⟨⟨f ∘ g, new.map f, by simp, ?_, ?_⟩, ?_⟩
  · intro j mem
    obtain ⟨id, deadline, is⟩ := old j mem
    exact ⟨(same _).trans id, deadline.trans (later _), status j mem (g j) id deadline is⟩
  · intro n mem
    obtain ⟨n, there, rfl⟩ := List.mem_map.mp mem
    rw [same]
    exact fresh n there
  · rw [List.map_map]
    simpa only [Function.comp_def, same] using kept.unique

theorem resolve (x : Uuid) : Kept (x :: S) base (resolved x jobs) := by
  refine kept.update (fun j => ?_) (fun j => ?_) fun j mem j' id _ is => ?_
  · split <;> rfl
  · split <;> exact Int.le_refl _
  · simp only [ReconciliationJob.isOpen, id, is, Bool.and_eq_true, Bool.or_eq_true,
      decide_eq_true_eq]
    unfold closedIn
    by_cases mine : j.requestId = x
    · subst mine
      by_cases isOpen : IsOpen j
      · by_cases before : j.requestId ∈ S
        · simp [before, isOpen, is, closedIn]
        · have live : j.status = .pending ∨ j.status = .running := isOpen
          simp [isOpen, before, live]
      · have shut : ¬ (j.status = .pending ∨ j.status = .running) := isOpen
        simp [isOpen, shut, is, closedIn]
    · simp [mine, is, closedIn]

theorem status_of_mem {j : ReconciliationJob} (mem : j ∈ base) :
    ∃ j' ∈ jobs, j'.requestId = j.requestId ∧ j'.status = closedIn S j := by
  obtain ⟨g, new, rfl, old, _⟩ := kept.moved
  obtain ⟨id, _, status⟩ := old j mem
  exact ⟨g j, List.mem_append_left _ (List.mem_map_of_mem mem), id, status⟩

theorem enqueue (new : ReconciliationJob) (is : new.requestId = x)
    (live : ∀ j ∈ base, j.requestId = x → x ∉ S ∧ IsOpen j) :
    Kept S base (if jobs.any (·.requestId = x) then
      updateWhere (·.requestId = x) (fun j => ReconciliationJob.merge j new) jobs
    else jobs ++ [new]) := by
  split_ifs with filed
  · refine kept.update (fun j => ?_) (fun j => ?_) fun j mem j' id _ status => ?_
    · split <;> rfl
    · split
      · exact Int.le_max_left _ _
      · exact Int.le_refl _
    · by_cases mine : j'.requestId = x
      · obtain ⟨outside, isOpen⟩ := live j mem (id ▸ mine)
        have same : closedIn S j = j.status := by simp [closedIn, id ▸ mine, outside]
        rw [same] at status ⊢
        rcases isOpen with pending | running
        · simp [mine, ReconciliationJob.merge, status, pending]
        · simp [mine, ReconciliationJob.merge, status, running]
      · simp [mine, status]
  · simp only [List.any_eq_true, decide_eq_true_eq, not_exists, not_and] at filed
    obtain ⟨g, extra, split, old, fresh⟩ := kept.moved
    refine ⟨⟨g, extra ++ [new], by simp [split], old, ?_⟩, ?_⟩
    · refine Table.forall_mem_concat fresh ?_
      intro there
      obtain ⟨j, memj, same⟩ := List.mem_map.mp there
      obtain ⟨j', memj', same', _⟩ := kept.status_of_mem memj
      exact filed j' memj' (same'.trans (same.trans is))
    · exact Table.nodup_concat kept.unique fun j mem same => filed j mem (same.trans is)

theorem escalate {at_ : Int} {batch : Uuid → Bool}
    (early : ∀ j ∈ base, IsOpen j → at_ < j.deadlineAt) :
    Kept S base (updateWhere (fun j => (j.status = .pending || j.status = .running) &&
      j.deadlineAt ≤ at_ && batch j.id) (fun j => { j with status := .escalated }) jobs) := by
  refine kept.update (fun j => ?_) (fun j => ?_) fun j mem j' id deadline status => ?_
  · split <;> rfl
  · split <;> exact Int.le_refl _
  · have spared : ((decide (j'.status = .pending) || decide (j'.status = .running)) &&
        decide (j'.deadlineAt ≤ at_) && batch j'.id) = false := by
      by_cases isOpen : IsOpen j
      · have := early j mem isOpen
        simp [show ¬ j'.deadlineAt ≤ at_ by omega]
      · have shut : ¬ (j.status = .pending ∨ j.status = .running) := isOpen
        have same : closedIn S j = j.status := by simp [closedIn, isOpen]
        rw [same] at status
        rw [not_or] at shut
        simp [status, shut]
    simp only [spared, Bool.false_eq_true, if_false]
    exact status

theorem queue_eq : ∃ new : List ReconciliationJob,
    queue jobs = (queue base).filter (fun x => x ∉ S) ++ queue new ∧
      (∀ n ∈ new, n.requestId ∉ base.map (·.requestId)) := by
  obtain ⟨g, new, rfl, old, fresh⟩ := kept.moved
  refine ⟨new, ?_, fresh⟩
  rw [queue, List.filter_append, List.map_append]
  congr 1
  rw [queue, List.filter_map, List.map_map, List.filter_map, List.filter_filter]
  have same : base.filter ((fun j => decide (j.status = .pending)) ∘ g) =
      base.filter (fun j => ((fun x => decide (x ∉ S)) ∘ fun j => j.requestId) j &&
        decide (j.status = .pending)) := by
    apply List.filter_congr
    intro j mem
    simp only [Function.comp_apply, (old j mem).2.2, closedIn]
    by_cases inside : j.requestId ∈ S
    · by_cases pending : j.status = .pending
      · simp [inside, pending, IsOpen]
      · by_cases isOpen : IsOpen j
        · simp [inside, isOpen]
        · simp [isOpen, pending]
    · simp [inside]
  rw [same]
  apply List.map_congr_left
  intro j mem
  exact (old j (List.mem_filter.mp mem).1).1

end Kept

theorem mem_queue {jobs : List ReconciliationJob} :
    x ∈ queue jobs ↔ ∃ j ∈ jobs, j.status = .pending ∧ j.requestId = x := by
  simp [queue, and_assoc]

end YunhouUsers.Inference.Gateway
