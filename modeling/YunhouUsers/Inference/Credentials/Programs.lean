import YunhouUsers.Inference.Credentials.Writers

/-!
Every call keeps to the terms: reauthorization, dispatch, and the programs around the
transactions.
-/

namespace YunhouUsers.Inference.Credentials

open ReadCommitted Table

variable {α : Type} {svc : Service} {tight careful : Prop} {call : Call} {K : Db → Prop}
  {held : Locks} {pending : Db → Db}

/-! ### Reauthorization -/

theorem Call.Rejects.unchanged {later earlier : Credential} (rejects : call.Rejects svc earlier)
    (key : later.id = earlier.id) (follows : later.Follows earlier)
    (same : later.generation = earlier.generation) : call.Rejects svc later := by
  have bundle : svc.bundle later = svc.bundle earlier :=
    Service.bundle_unchanged key follows same
  have expires : later.expiresAt = earlier.expiresAt := (follows.unchanged same).2
  cases call with
  | refresh r id =>
    simpa only [Call.Rejects, RefreshCall.Rejects, expired, bundle, expires] using rejects
  | markReauthRequired id rejected => exact same.trans rejects
  | probe p =>
    simpa only [Call.Rejects, ProbeCall.Rejects, RefreshCall.Rejects, expired, bundle, expires]
      using rejects
  | _ => exact rejects

def Still (careful : Prop) (cred : Credential) (db : Db) : Prop :=
  Seen cred db ∧ (careful → db.generation cred.id = some cred.generation)

variable {cred : Credential}

theorem still_stable (p : Point Stmt)
    (spares : ∀ db db', (terms tight careful).spares p held db db' → careful →
      db'.generation cred.id = db.generation cred.id) :
    (terms tight careful).StableAt p held (Still careful cred) := by
  rintro other db db' compatible sound sound' lawful spared ⟨seen, same⟩
  refine ⟨seen_stable cred other db db' compatible sound sound' lawful seen, fun asked => ?_⟩
  rw [spares db db' spared asked]
  exact same asked

theorem still_propagate :
    (terms tight careful).StableAt (.before (.propagate cred.id)) held (Still careful cred) :=
  still_stable _ fun _ _ spared asked => spared asked

theorem still_commit (locked : (.refresh cred.id, .update) ∈ held) :
    (terms tight careful).StableAt .commit held (Still careful cred) :=
  still_stable _ fun _ _ spared asked => spared asked cred.id locked

theorem Still.rejects {db : Db} (still : Still careful cred db)
    (rejects : careful → call.Rejects svc cred) (asked : careful) {c : Credential}
    (found : db.findCredential cred.id = some c) : call.Rejects svc c := by
  obtain ⟨⟨c', found', follows⟩, same⟩ := still
  rw [found] at found'
  cases found'
  have generation := same asked
  rw [Db.generation, found, Option.map_some, Option.some.injEq] at generation
  exact (rejects asked).unchanged (find_key found).2 follows generation

theorem stableAt_and {p : Point Stmt} {K' : Db → Prop}
    (h : (terms tight careful).StableAt p held K) (h' : (terms tight careful).StableAt p held K') :
    (terms tight careful).StableAt p held fun db => K db ∧ K' db :=
  fun other db db' c i i' g s k => ⟨h other db db' c i i' g s k.1, h' other db db' c i i' g s k.2⟩

theorem endAllBindings_meets {id : Uuid} {post : Unit → (Db → Prop) → Locks → (Db → Db) → Prop}
    (accountIds : List Uuid)
    (stable : ∀ held', held ⊆ held' →
      (terms tight careful).StableAt (.before (.propagate id)) held' K)
    (done : ∀ held' pending', held ⊆ held' → (∀ d, (pending' d).rows = (pending d).rows) →
      post () K held' pending') :
    (endAllBindings id accountIds).Meets (terms tight careful) K held pending post := by
  induction accountIds generalizing held pending with
  | nil => exact done held pending (List.Subset.refl _) fun _ => rfl
  | cons accountId rest ih =>
    apply Txn.Meets.bind
    rw [endSessionBindingsForAccountTx, endBindings]
    apply Txn.Meets.exec (stable held (List.Subset.refl _))
    intro db _ known _
    refine ⟨trivial, fun _ _ => ⟨K, known, ?_⟩⟩
    apply ih
    · intro held' more
      exact stable held' fun x mem => more (List.mem_append_right _ mem)
    · intro held' pending' more rows
      refine done held' pending' (fun x mem => more (List.mem_append_right _ mem)) fun d => ?_
      rw [rows d]
      rfl

def propagates (id : Uuid) (a : UpstreamAccount) : Bool :=
  a.credentialId = id && [.active, .refreshing, .cooldown].contains a.status

theorem reauthorization_ends {hits : List Uuid}
    (idle : ∀ d, call ≠ .dispatch d) (rejects : careful → call.Rejects svc cred)
    (locked : ∀ id ∈ hits, (.account id, .noKeyUpdate) ∈ held)
    (lockedRefresh : (.refresh cred.id, .update) ∈ held)
    (rows : ∀ d : Db, (pending d).rows = (d.credentials,
      updateWhere (fun a => hits.contains a.id) (moveTo .reauthRequired) d.accounts)) :
    Ends svc tight careful call
      (fun db => Still careful cred db ∧ Standing hits (fun a => propagates cred.id a = true) db)
      held pending := by
  apply ends_of_updated (f := moveTo .reauthRequired) (fun _ => rfl) (fun _ => rfl) locked
    (stableAt_and (still_commit lockedRefresh) ((standing_stable locked).at _)) rows
  · intro db a _ _ hit disabled
    simp [propagates, disabled] at hit
  · intro db still standing
    refine .of_credentials (congrArg Prod.fst (rows db)) idle ?_
    intro asked id a a' found found' fine waits c bound _
    have key : a.id = id := (find_key found).2
    rw [findAccount_update (f := moveTo .reauthRequired) (fun _ => rfl)
      (congrArg Prod.snd (rows db)), found] at found'
    cases found'
    dsimp only at waits
    split at waits
    · rename_i hit
      obtain ⟨old, was, moved⟩ := standing id (by simpa [key] using hit)
      rw [found] at was
      cases was
      simp only [propagates, Bool.and_eq_true, decide_eq_true_eq] at moved
      exact still.rejects rejects asked (moved.1 ▸ bound)
    · exact absurd waits fine

theorem markBody_ends (idle : ∀ d, call ≠ .dispatch d) (rejects : careful → call.Rejects svc cred) :
    TxEnds svc tight careful call (markBody cred.id cred.generation) (Seen cred) := by
  apply Txn.Meets.bind
  apply Txn.Meets.queryLocking ((seen_stable cred).at _)
  intro db _ seen _
  refine ⟨trivial, Seen cred, seen, ?_⟩
  apply Txn.Meets.bind
  apply Txn.Meets.bind
  apply Txn.Meets.query ((seen_stable cred).at _)
  intro db _ seen _
  cases found : db.findCredential cred.id with
  | none => exact ⟨trivial, fun _ => True, trivial, trivial⟩
  | some current =>
    by_cases same : current.generation = cred.generation
    · have still : Still careful cred db := ⟨seen, fun _ => by simp [Db.generation, found, same]⟩
      refine ⟨trivial, Still careful cred, still, ?_⟩
      apply Txn.Meets.bind
      apply Txn.Meets.require
      intro _
      apply Txn.Meets.bind
      apply updateAccounts_meets
      · exact fun _ => rfl
      · exact still_propagate
      intro db sound still hits hit
      refine ⟨fun db => Still careful cred db ∧ Standing hits (fun a => propagates cred.id a = true) db,
        ⟨still, ?_⟩, ?_⟩
      · rw [hit]
        exact standing_of_hit sound fun _ h => h
      have locked : ∀ id ∈ hits, ((.account id, .noKeyUpdate) : LockKey × LockMode) ∈
          hits.map (fun id => (.account id, .noKeyUpdate)) ++ [(.refresh cred.id, .update)] := by
        intro id mem
        simp [mem]
      apply endAllBindings_meets
      · intro held' more
        exact stableAt_and still_propagate
          ((standing_stable fun id mem => more (locked id mem)).at _)
      · intro held' pending' more rows
        exact reauthorization_ends idle rejects (fun id mem => more (locked id mem))
          (more (by simp)) rows
    · refine ⟨trivial, fun _ => True, trivial, ?_⟩
      apply Txn.Meets.bind
      apply Txn.Meets.require
      intro fine
      simp [same] at fine

def Static (a : UpstreamAccount) (cred : Credential) (db : Db) : Prop := Bound a db ∧ Seen cred db

variable {a : UpstreamAccount}

theorem markAccountReauthBody_ends
    (idle : ∀ d, call ≠ .dispatch d) (bound : a.credentialId = cred.id)
    (static : cred.authType ≠ .oauth) :
    TxEnds svc tight careful call (markAccountReauthBody a) (Static a cred) := by
  have stable : (terms tight careful).Stable [] (Static a cred) :=
    (bound_stable a).and (seen_stable cred)
  apply Txn.Meets.bind
  apply setConditional_meets stable
  intro flipped hits held' more locked
  have here := standing_commit (P := fun b => flips a.id [.active, .cooldown, .refreshing] b = true)
    (stable.mono more) locked
  apply Txn.Meets.bind
  apply Txn.Meets.require
  intro _
  apply Txn.Meets.bind
  apply ends_after (endBindings_keeps _ _ _) here
  intro _ held'' pending' more' rows
  apply ends_of_updated (f := moveTo .reauthRequired) (fun _ => rfl) (fun _ => rfl)
    (fun id mem => more' (locked id mem)) ((here.mono more').at _) rows
  · intro db b _ _ hit disabled
    simp [flips, disabled] at hit
  · rintro db ⟨⟨a', found', same⟩, seen⟩ standing
    refine .of_credentials (congrArg Prod.fst (rows db)) idle ?_
    intro _ id old new was is_ fine waits c stored oauth
    have key : old.id = id := (find_key was).2
    rw [findAccount_update (f := moveTo .reauthRequired) (fun _ => rfl)
      (congrArg Prod.snd (rows db)), was] at is_
    cases is_
    dsimp only at waits
    split at waits
    · rename_i hit
      obtain ⟨old', was', moved⟩ := standing id (by simpa [key] using hit)
      rw [was] at was'
      cases was'
      simp only [flips, Bool.and_eq_true, decide_eq_true_eq] at moved
      rw [← key, moved.1, found'] at was
      cases was
      obtain ⟨c', stored', follows⟩ := seen
      rw [same, bound, stored'] at stored
      cases stored
      exact absurd (follows.authType.symm.trans oauth) static
    · exact absurd waits fine

/-! ### Dispatch -/

theorem onStore_keeps {t : Postgres.Tx α} : (onStore t).Keeps Db.rows := by
  apply Txn.zoom_keeps
  intro _ _
  rfl

theorem takeIntoUse_ends (d : DispatchCall) :
    TxEnds svc tight careful (.dispatch d) (takeIntoUse d) (fun _ => True) := by
  apply Txn.Meets.bind
  apply Txn.Meets.require
  intro _
  apply Txn.Meets.bind
  apply Txn.Meets.queryLocking (true_stable.at _)
  intro db _ _ _
  refine ⟨trivial, ?_⟩
  cases found : db.findAccount d.candidate.accountId with
  | none =>
    refine ⟨fun _ => True, trivial, ?_⟩
    apply Txn.Meets.bind
    apply Txn.Meets.require
    intro active
    simp at active
  | some a =>
    have key : a.id = d.candidate.accountId := (find_key found).2
    refine ⟨fun db => db.findAccount d.candidate.accountId = some a, found, ?_⟩
    apply Txn.Meets.bind
    apply Txn.Meets.require
    intro active
    have here : (terms tight careful).Stable [(.account a.id, .share)]
        (fun db => db.findAccount d.candidate.accountId = some a) := by
      rw [← key]
      exact account_stable (m := .share) rfl (by simp)
    apply ends_after onStore_keeps here
    intro _ held' pending' more rows
    refine ⟨(here.mono more).at _, fun db sound found => ?_⟩
    obtain ⟨credentials, accounts⟩ := rows_eq (rows db)
    refine commits_same sound credentials accounts ?_
    rintro _ ⟨⟩
    exact ⟨a, found, by simpa using active⟩

/-! ### Programs -/

def Keeping (svc : Service) (tight careful : Prop) (call : Call) (p : Program) (K : Db → Prop) :
    Prop :=
  p.Meets (terms tight careful) (fun _ => call.Terms svc careful) K [] id

section Rules

theorem Keeping.weaken {p : Program} {K' : Db → Prop} (keeping : Keeping svc tight careful call p K)
    (stable : (terms tight careful).Stable [] K') (implies : ∀ db, K' db → K db) :
    Keeping svc tight careful call p K' := Proc.Meets.weaken keeping stable implies

theorem Keeping.of_true {p : Program} (keeping : Keeping svc tight careful call p fun _ => True)
    (stable : (terms tight careful).Stable [] K) : Keeping svc tight careful call p K :=
  keeping.weaken stable fun _ _ => trivial

theorem keeping_done (r : Reply) : Keeping svc tight careful call (.done r) K := trivial

theorem keeping_demand {ok : Bool} {code : Code} {message : String} {p : Program}
    (h : ok = true → Keeping svc tight careful call p K) :
    Keeping svc tight careful call (demand ok code message p) K := by
  unfold demand
  split
  · rename_i fine
    exact h fine
  · trivial

theorem keeping_inTx {t : Tx α} {k : Except Fail α → Program}
    (body : TxEnds svc tight careful call t K)
    (rest : ∀ r, Keeping svc tight careful call (k r) fun _ => True) :
    Keeping svc tight careful call (t.inTx k) K := by
  apply Txn.Meets.inTx (g := fun _ => True) (fun a _ => rest (.ok a)) (fun e => rest (.error e))
  apply body.mono
  rintro a K held pending ⟨stable, commits⟩
  refine ⟨trivial, ⟨stable, fun db sound known => ?_⟩, fun db sound known => ?_⟩
  · exact ⟨(commits db sound known).sound, (commits db sound known).lawful⟩
  · exact (commits db sound known).terms

theorem keeping_runAtomic {t : Tx α} {reply : α → Reply}
    (body : TxEnds svc tight careful call t K) :
    Keeping svc tight careful call (runAtomic t reply) K := by
  apply keeping_inTx body
  intro r
  cases r <;> trivial

theorem keeping_autocommit {t : Tx α} {k : Program} (body : TxEnds svc tight careful call t K)
    (rest : Keeping svc tight careful call k fun _ => True) :
    Keeping svc tight careful call (autocommit t k) K := keeping_inTx body fun _ => rest

theorem keeping_read {stmt : Stmt} {f : Db → α} {k : α → Program}
    (stable : (terms tight careful).Stable [] K)
    (h : ∀ db, Sound tight db → K db → (terms tight careful).ready stmt db →
      ∃ K', K' db ∧ Keeping svc tight careful call (k (f db)) K') :
    Keeping svc tight careful call (read stmt f k) K :=
  ⟨stable.at _, fun db sound known ready => ⟨trivial, h db sound known ready⟩⟩

theorem keeping_readRow {op : String} {f : Db → Option α} {k : α → Program}
    (stable : (terms tight careful).Stable [] K)
    (h : ∀ db row, K db → f db = some row →
      ∃ K', K' db ∧ Keeping svc tight careful call (k row) K') :
    Keeping svc tight careful call (readRow op f k) K := by
  apply keeping_read stable
  intro db _ known _
  cases found : f db with
  | none => exact ⟨fun _ => True, trivial, trivial⟩
  | some row => exact h db row known found

theorem keeping_getCredential {id : Uuid} {k : Credential → Program}
    (stable : (terms tight careful).Stable [] K)
    (h : ∀ cred, Keeping svc tight careful call (k cred) K) :
    Keeping svc tight careful call (getCredential id k) K :=
  keeping_readRow stable fun _ cred known _ => ⟨K, known, h cred⟩

theorem keeping_lookUp {stmt : Stmt} {id : Uuid} {k : Except Err Credential → Program}
    (stable : (terms tight careful).Stable [] K)
    (h : ∀ db cred, K db → (terms tight careful).ready stmt db →
      db.findCredential id = some cred →
      Keeping svc tight careful call (k (.ok cred)) fun db => K db ∧ Seen cred db)
    (missing : ∀ e, Keeping svc tight careful call (k (.error e)) K) :
    Keeping svc tight careful call (lookUpCredential stmt id k) K := by
  apply keeping_read stable
  intro db _ known ready
  cases found : db.findCredential id with
  | none => exact ⟨K, known, missing _⟩
  | some cred => exact ⟨_, ⟨known, seen_of_find found⟩, h db cred known ready found⟩

end Rules

section Refresh

def Settled : Except Err RefreshOutcome → Prop
  | .ok o => (o.rotated || o.converged || o.reauthRequired) = true
  | .error _ => True

variable {k : Except Err RefreshOutcome → Program}

theorem markReauthRequired_keeping (idle : ∀ d, call ≠ .dispatch d)
    (rejects : careful → call.Rejects svc cred)
    (rest : ∀ r, Settled r → Keeping svc tight careful call (k r) fun _ => True) :
    Keeping svc tight careful call (markReauthRequired cred k) (Seen cred) := by
  apply keeping_inTx (markBody_ends idle rejects)
  intro r
  match r with
  | .ok () => exact rest _ rfl
  | .error (.converged g) => exact rest _ rfl
  | .error (.err e) => exact rest _ trivial
  | .error .generationMoved => exact rest _ trivial

theorem storeRefreshed_keeping {secret : Sealed} {expiry : Option Int}
    (idle : ∀ d, call ≠ .dispatch d)
    (exchanged : ∀ r, call.refresher = some r → Exchanged svc r cred secret expiry)
    (rest : ∀ r, Settled r → Keeping svc tight careful call (k r) fun _ => True) :
    Keeping svc tight careful call (storeRefreshed cred secret expiry k) (Seen cred) := by
  apply keeping_inTx (refreshBody_ends idle exchanged)
  intro r
  match r with
  | .ok () => exact rest _ rfl
  | .error (.converged g) => exact rest _ rfl
  | .error (.err e) => exact rest _ trivial
  | .error .generationMoved =>
    apply keeping_lookUp true_stable
    · intro _ latest _ _ _
      exact Keeping.of_true (rest _ rfl) (true_stable.and (seen_stable latest))
    · intro e
      exact rest _ trivial

variable {r : RefreshCall}

structure Call.RefreshesAs (svc : Service) (call : Call) (r : RefreshCall) : Prop where
  idle : ∀ d, call ≠ .dispatch d
  refresher : ∀ r', call.refresher = some r' → r' = r
  rejects : ∀ c, r.Rejects svc c → call.Rejects svc c

theorem refreshWith_keeping {vault : Vault} {bundle : OAuthBundle}
    (as_ : call.RefreshesAs svc r) (vaulted : svc.vault = some vault)
    (sealed : svc.bundle cred = some bundle) (stable : (terms tight careful).Stable [] K)
    (seen : ∀ db, K db → Seen cred db)
    (rest : ∀ r, Settled r → Keeping svc tight careful call (k r) fun _ => True)
    (kept : ∀ o, Keeping svc tight careful call (k (.ok o)) K) :
    Keeping svc tight careful call (refreshWith svc vault r cred bundle k) K := by
  unfold refreshWith
  split
  · rename_i none_
    split
    · rename_i expired_
      refine (markReauthRequired_keeping as_.idle (fun _ => as_.rejects cred ?_) rest).weaken stable
        seen
      exact ⟨bundle, sealed, .inr ⟨none_, expired_⟩⟩
    · exact kept _
  · split
    · exact (rest (.error _) trivial).of_true stable
    · split
      · rename_i answer
        refine (markReauthRequired_keeping as_.idle (fun _ => as_.rejects cred ?_) rest).weaken
          stable seen
        exact ⟨bundle, sealed, .inl answer⟩
      · exact (rest (.error _) trivial).of_true stable
      · exact (rest (.error _) trivial).of_true stable
      · rename_i ts answer
        split
        · exact (rest (.error _) trivial).of_true stable
        · rename_i secret encrypted
          refine (storeRefreshed_keeping as_.idle (fun r' refreshes => ?_) rest).weaken stable seen
          rw [as_.refresher r' refreshes]
          exact ⟨vault, bundle, ts, vaulted, sealed, answer, encrypted, rfl⟩

theorem refreshCredential_keeping {id : Uuid} (as_ : call.RefreshesAs svc r)
    (stable : (terms tight careful).Stable [] K)
    (rest : ∀ r, Settled r → Keeping svc tight careful call (k r) fun _ => True)
    (kept : ∀ o, Keeping svc tight careful call (k (.ok o)) K) :
    Keeping svc tight careful call (refreshCredential svc r id k) K := by
  unfold refreshCredential
  split
  · exact (rest (.error _) trivial).of_true stable
  · rename_i vault vaulted
    apply keeping_lookUp stable
    · intro _ cred _ _ _
      have stable' : (terms tight careful).Stable [] fun db => K db ∧ Seen cred db :=
        stable.and (seen_stable cred)
      have failed : ∀ e, Keeping svc tight careful call (k (.error e)) fun db => K db ∧ Seen cred db :=
        fun e => (rest (.error e) trivial).of_true stable'
      dsimp only
      split
      · exact failed _
      · split
        · exact failed _
        · split
          · exact failed _
          · rename_i plain decrypted
            split
            · exact failed _
            · rename_i bundle parsed
              apply refreshWith_keeping as_ vaulted _ stable' (fun _ known => known.2) rest
              · intro o
                exact (kept o).weaken stable' fun _ known => known.1
              · simp [Service.bundle, vaulted, decrypted, parsed]
    · intro e
      exact (rest (.error _) trivial).of_true stable

theorem markReauthRequiredOutside_keeping {id : Uuid} {rejected : Int}
    (idle : ∀ d, call ≠ .dispatch d) (stable : (terms tight careful).Stable [] K)
    (rejects : ∀ db cred, K db → db.findCredential id = some cred →
      cred.generation = rejected → call.Rejects svc cred)
    (rest : ∀ r, Keeping svc tight careful call (k r) fun _ => True) :
    Keeping svc tight careful call (markReauthRequiredOutside id rejected k) K := by
  apply keeping_lookUp stable
  · intro db cred known ready found
    have stable' : (terms tight careful).Stable [] fun db => K db ∧ Seen cred db :=
      stable.and (seen_stable cred)
    dsimp only
    split
    · exact (rest _).of_true stable'
    · split
      · exact (rest _).of_true stable'
      · refine (markReauthRequired_keeping idle (fun asked => ?_) fun r _ => rest r).weaken stable'
          fun _ known => known.2
        exact rejects db cred known found (ready asked cred found)
  · intro e
    exact (rest _).of_true stable

end Refresh

/-! ### Probes -/

section Probes

variable {c : ProbeCall} {k : Program}

theorem probe_idle (c : ProbeCall) (d : DispatchCall) : Call.probe c ≠ .dispatch d := by
  intro same
  cases same

theorem probe_refreshesAs (svc : Service) (c : ProbeCall) :
    (Call.probe c).RefreshesAs svc c.toRefreshCall := by
  refine ⟨probe_idle c, fun r' same => ?_, fun _ rejects => .inl rejects⟩
  exact (Option.some.inj same).symm

theorem onHealthy_keeping (a : UpstreamAccount) (stable : (terms tight careful).Stable [] K)
    (rest : Keeping svc tight careful (.probe c) k fun _ => True) :
    Keeping svc tight careful (.probe c) (onHealthy a k) K := by
  unfold onHealthy
  split
  · exact rest.of_true stable
  · exact keeping_autocommit
      (setConditional_ends (probe_idle c) stable (by decide) (by decide)) rest

theorem onRetryableFailure_keeping (a : UpstreamAccount)
    (stable : (terms tight careful).Stable [] K)
    (rest : Keeping svc tight careful (.probe c) k fun _ => True) :
    Keeping svc tight careful (.probe c) (onRetryableFailure a k) K := by
  unfold onRetryableFailure
  split
  · exact rest.of_true stable
  · exact keeping_autocommit
      (setConditional_ends (probe_idle c) stable (by decide) (by decide)) rest

theorem observeQuota_keeping (a : UpstreamAccount) (accessToken : String)
    (stable : (terms tight careful).Stable [] K)
    (rest : Keeping svc tight careful (.probe c) k fun _ => True) :
    Keeping svc tight careful (.probe c) (observeQuota c a accessToken k) K := by
  unfold observeQuota
  split
  · exact rest.of_true stable
  · exact keeping_autocommit (updateUpstreamAccountQuota_ends (probe_idle c) _ _ stable) rest

theorem afterRejection_keeping {bundle : OAuthBundle} (sealed : svc.bundle cred = some bundle)
    (refused : c.health bundle.accessToken = .error .reauthRequired) :
    Keeping svc tight careful (.probe c) (afterRejection svc c a cred) (Seen cred) := by
  apply refreshCredential_keeping (probe_refreshesAs svc c) (seen_stable cred)
  · intro r settled
    match r with
    | .error e => exact onRetryableFailure_keeping a true_stable (keeping_done _)
    | .ok o =>
      dsimp only
      split
      · exact keeping_done _
      · rename_i waits
        simp only [Settled, waits, Bool.or_false] at settled
        rw [if_pos settled]
        exact onHealthy_keeping a true_stable (keeping_done _)
  · intro o
    dsimp only
    split
    · exact keeping_done _
    · split
      · exact onHealthy_keeping a (seen_stable cred) (keeping_done _)
      · apply markReauthRequiredOutside_keeping (probe_idle c) (seen_stable cred)
        · rintro db current ⟨stored, found', follows⟩ found same
          rw [found] at found'
          cases found'
          exact .inr ⟨bundle,
            (Service.bundle_unchanged (find_key found).2 follows same).trans sealed, refused⟩
        · intro r
          match r with
          | .error e => exact keeping_done _
          | .ok o =>
            dsimp only
            split
            · exact keeping_done _
            · exact onHealthy_keeping a true_stable (keeping_done _)

theorem probeOAuth_keeping (a : UpstreamAccount) (cred : Credential) :
    Keeping svc tight careful (.probe c) (probeOAuth svc c a cred) (Seen cred) := by
  unfold probeOAuth
  split
  · exact keeping_done _
  · split
    · exact keeping_done _
    · rename_i bundle sealed
      split
      · exact onHealthy_keeping a (seen_stable cred)
          (observeQuota_keeping a _ true_stable (keeping_done _))
      · rename_i refused
        exact afterRejection_keeping sealed refused
      · exact onRetryableFailure_keeping a (seen_stable cred) (keeping_done _)

theorem probeStatic_keeping (bound : a.credentialId = cred.id) (static : cred.authType ≠ .oauth) :
    Keeping svc tight careful (.probe c) (probeStatic svc c a cred) (Static a cred) := by
  have stable : (terms tight careful).Stable [] (Static a cred) :=
    (bound_stable a).and (seen_stable cred)
  apply keeping_read stable
  intro db _ known _
  refine ⟨Static a cred, known, ?_⟩
  split
  · exact keeping_done _
  · split
    · exact keeping_done _
    · exact keeping_done _
    · split
      · exact onHealthy_keeping a stable (keeping_done _)
      · exact keeping_autocommit (markAccountReauthBody_ends (probe_idle c) bound static)
          (keeping_done _)
      · exact onRetryableFailure_keeping a stable (keeping_done _)

theorem probe_keeping (c : ProbeCall) :
    Keeping svc tight careful (.probe c) (probe svc c) fun _ => True := by
  apply keeping_read true_stable
  intro db _ _ _
  cases listed : (db.findAccount c.accountId).filter c.lists with
  | none => exact ⟨fun _ => True, trivial, trivial⟩
  | some a =>
    have found : db.findAccount c.accountId = some a :=
      (Option.filter_eq_some_iff.mp listed).1
    refine ⟨Bound a, bound_of_find found, ?_⟩
    apply keeping_lookUp (bound_stable a)
    · intro db cred _ _ stored
      have bound : a.credentialId = cred.id := ((find_key stored).2).symm
      have stable : (terms tight careful).Stable [] fun db => Bound a db ∧ Seen cred db :=
        (bound_stable a).and (seen_stable cred)
      dsimp only
      split
      · exact keeping_autocommit
          (setConditional_ends (probe_idle c) stable (by decide) (by decide)) (keeping_done _)
      · split
        · exact (probeOAuth_keeping a cred).weaken stable fun _ known => known.2
        · rename_i static
          exact probeStatic_keeping bound static
    · intro e
      exact keeping_done _

end Probes

/-! ### Calls -/

section Calls

theorem createCredential_keeping (i : CreateCredentialInput) :
    Keeping svc tight careful (.createCredential i) (createCredential svc i) fun _ => True := by
  unfold createCredential
  split
  · trivial
  · trivial
  · trivial
  · apply keeping_demand
    intro _
    split
    · trivial
    · exact keeping_runAtomic
        (insertCredentialTx_ends ⟨rfl, fun _ same => by cases same⟩ _)

theorem rotate_keeping (id : Uuid) (newPlaintext : String) :
    Keeping svc tight careful (.rotate id newPlaintext) (rotate svc id newPlaintext)
      fun _ => True := by
  unfold rotate
  split
  · trivial
  · apply keeping_demand
    intro _
    apply keeping_getCredential true_stable
    intro cred
    apply keeping_demand
    intro _
    split
    · trivial
    · exact keeping_runAtomic
        (rotateCredentialSecret_ends ⟨rfl, fun _ same => by cases same⟩ _ _ true_stable)

theorem setStatus_keeping (id : Uuid) (status : Option CredentialStatus) :
    Keeping svc tight careful (.setStatus id status) (setStatus id status) fun _ => True := by
  unfold setStatus
  split
  · trivial
  · apply keeping_getCredential true_stable
    intro cred
    exact keeping_runAtomic (setStatusBody_ends ⟨rfl, fun _ same => by cases same⟩ _ _ true_stable)

theorem createAccount_keeping (i : CreateAccountInput) (newId : Uuid) (now : Int) :
    Keeping svc tight careful (.createAccount i newId now) (createAccount i newId now)
      fun _ => True := by
  unfold createAccount
  split
  · trivial
  · apply keeping_readRow true_stable
    intro _ prov _ _
    refine ⟨fun _ => True, trivial, ?_⟩
    apply keeping_demand
    intro _
    apply keeping_getCredential true_stable
    intro cred
    apply keeping_demand
    intro _
    apply keeping_demand
    intro _
    apply keeping_demand
    intro _
    apply keeping_inTx (createAccountBody_ends ⟨rfl, fun _ same => by cases same⟩ _ true_stable)
    intro r
    match r with
    | .ok () => trivial
    | .error (.converged g) => trivial
    | .error .generationMoved => trivial
    | .error (.err e) =>
      simp only [createConflictView]
      split
      · apply keeping_read true_stable
        intro db _ _ _
        refine ⟨fun _ => True, trivial, ?_⟩
        split <;> trivial
      · trivial

theorem setAccountStatus_keeping (id : Uuid) (to_ : Option Gateway.UpstreamAccountStatus)
    (reason : String) :
    Keeping svc tight careful (.setAccountStatus id to_ reason) (setAccountStatus id to_ reason)
      fun _ => True := by
  have idle : ∀ d, Call.setAccountStatus id to_ reason ≠ .dispatch d := fun _ same => by cases same
  apply keeping_demand
  intro _
  split
  · trivial
  · apply keeping_readRow true_stable
    intro db account _ found
    refine ⟨Bound account, bound_of_find found, ?_⟩
    split
    · apply keeping_getCredential (bound_stable account)
      intro cred
      apply keeping_demand
      intro _
      split
      · exact keeping_runAtomic (assertCredentialActiveTx_ends idle _ (bound_stable account))
      · apply keeping_demand
        intro _
        exact keeping_runAtomic (activateBody_ends idle account)
    · split
      · trivial
      · exact keeping_runAtomic (disableBody_ends idle account (bound_stable account))

theorem updateAccount_keeping (id : Uuid) (displayName : Option String)
    (concurrencyLimit : Option Int) (reason : String) :
    Keeping svc tight careful (.updateAccount id displayName concurrencyLimit reason)
      (updateAccount id displayName concurrencyLimit reason) fun _ => True := by
  apply keeping_demand
  intro _
  split
  · trivial
  · trivial
  · trivial
  · apply keeping_readRow true_stable
    intro _ account _ _
    refine ⟨fun _ => True, trivial, ?_⟩
    exact keeping_runAtomic
      (updateUpstreamAccountProfileTx_ends (fun _ same => by cases same) _ _ _ true_stable)

theorem consumeOAuthGrant_keeps (state : String) (now : Int) :
    (consumeOAuthGrant state now).Keeps Db.rows := Txn.Keeps.exec fun _ _ => rfl

theorem handleCallback_keeping (c : CallbackCall) :
    Keeping svc tight careful (.callback c) (handleCallback svc c) fun _ => True := by
  unfold handleCallback
  split
  · trivial
  · apply keeping_demand
    intro _
    apply keeping_inTx
      (ends_of_keeps (consumeOAuthGrant_keeps _ _) (fun _ same => by cases same) true_stable)
    intro r
    match r with
    | .error e => trivial
    | .ok grant =>
      apply keeping_demand
      intro _
      apply keeping_demand
      intro _
      split
      · trivial
      · dsimp only
        split
        · trivial
        · exact keeping_runAtomic
            (callbackBody_ends ⟨rfl, fun _ same => by cases same⟩ _ _ rfl
              (fun revoked => by cases revoked))

theorem refresh_keeping (r : RefreshCall) (id : Uuid) :
    Keeping svc tight careful (.refresh r id)
      (refreshCredential svc r id fun r => .done (.ofRefresh r)) fun _ => True := by
  apply refreshCredential_keeping (r := r) _ true_stable
  · intro _ _
    exact keeping_done _
  · intro _
    exact keeping_done _
  · refine ⟨(fun _ same => by cases same), fun r' same => ?_, fun _ rejects => rejects⟩
    exact (Option.some.inj same).symm

theorem markReauthRequired_call_keeping (id : Uuid) (rejected : Int) :
    Keeping svc tight careful (.markReauthRequired id rejected)
      (markReauthRequiredOutside id rejected fun r => .done (.ofRefresh r)) fun _ => True := by
  apply markReauthRequiredOutside_keeping (fun _ same => by cases same) true_stable
  · intro _ _ _ _ same
    exact same
  · intro _
    exact keeping_done _

theorem Call.keeping (svc : Service) (tight careful : Prop) (call : Call) :
    Keeping svc tight careful call (call.program svc) fun _ => True := by
  cases call with
  | createCredential i => exact createCredential_keeping i
  | rotate id newPlaintext => exact rotate_keeping id newPlaintext
  | setStatus id status => exact setStatus_keeping id status
  | createAccount i newId now => exact createAccount_keeping i newId now
  | setAccountStatus id to_ reason => exact setAccountStatus_keeping id to_ reason
  | updateAccount id displayName concurrencyLimit reason =>
    exact updateAccount_keeping id displayName concurrencyLimit reason
  | callback c => exact handleCallback_keeping c
  | refresh r id => exact refresh_keeping r id
  | markReauthRequired id rejected => exact markReauthRequired_call_keeping id rejected
  | probe c => exact probe_keeping c
  | dispatch d => exact keeping_runAtomic (takeIntoUse_ends d)

end Calls

end YunhouUsers.Inference.Credentials
