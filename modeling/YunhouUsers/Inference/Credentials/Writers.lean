import YunhouUsers.Inference.Credentials.Commits

/-!
Every statement and every transaction of credentials and accounts keeps to the terms.
-/

namespace YunhouUsers.Inference.Credentials

open ReadCommitted Table

variable {α : Type} {svc : Service} {tight careful : Prop} {call : Call} {K : Db → Prop}
  {held : Locks} {pending : Db → Db}

def Ends (svc : Service) (tight careful : Prop) (call : Call) (K : Db → Prop) (held : Locks)
    (pending : Db → Db) : Prop :=
  (terms tight careful).StableAt .commit held K ∧
    ∀ db, Sound tight db → K db → Commits svc tight careful call held db (pending db)

abbrev TxEnds (svc : Service) (tight careful : Prop) (call : Call) (t : Tx α) (K : Db → Prop) :
    Prop :=
  t.Meets (terms tight careful) K [] (fun d => d) fun _ => Ends svc tight careful call

def Db.rows (db : Db) : List Credential × List UpstreamAccount := (db.credentials, db.accounts)

variable {db : Db}

theorem rows_eq {db' : Db} (same : db'.rows = db.rows) :
    db'.credentials = db.credentials ∧ db'.accounts = db.accounts :=
  ⟨congrArg Prod.fst same, congrArg Prod.snd same⟩

theorem hitsCredential_iff {id : Uuid} {p : Credential → Bool} :
    db.hitsCredential id p = true ↔ ∃ c, db.findCredential id = some c ∧ p c = true := by
  unfold Db.hitsCredential
  cases db.findCredential id <;> simp

variable {p : UpstreamAccount → Bool} {f : UpstreamAccount → UpstreamAccount}

/-! ### Statements -/

section Statements

variable {post : Unit → (Db → Prop) → Locks → (Db → Db) → Prop}

theorem insertCredentialTx_meets {new : Credential}
    (h : post () (fun db => db.findCredential new.id = none) [(.credentialPkey new.id, .update)]
      (fun d => { d with credentials := d.credentials ++ [new] })) :
    (insertCredentialTx new).Meets (terms tight careful) (fun _ => True) [] id post := by
  apply Txn.Meets.exec (true_stable.at _)
  intro db _ _ _
  refine ⟨trivial, fun _ accepted => ⟨_, ?_, h⟩⟩
  by_contra present
  rw [← ne_eq, Option.ne_none_iff_isSome] at present
  simp [present] at accepted

theorem insertUpstreamAccountTx_meets {new : UpstreamAccount} (stable : (terms tight careful).Stable held K)
    (untouched : ∀ d, (pending d).accounts = d.accounts)
    (h : ∀ held', held ⊆ held' → (.accountPkey new.id, .update) ∈ held' →
      post () (fun db => K db ∧ db.findAccount new.id = none) held'
        (fun d => { pending d with accounts := (pending d).accounts ++ [new] })) :
    (insertUpstreamAccountTx new).Meets (terms tight careful) K held pending post := by
  apply Txn.Meets.exec (stable.at _)
  intro db _ known _
  refine ⟨trivial, fun _ accepted => ⟨_, ⟨known, ?_⟩, h _ (List.subset_append_right _ _) (by simp)⟩⟩
  rw [← findAccount_same (untouched db)]
  by_contra present
  rw [← ne_eq, Option.ne_none_iff_isSome] at present
  have violated : accountViolation new (pending db) ≠ none := by
    unfold accountViolation
    split_ifs <;> simp_all
  split at accepted
  · cases accepted
  · rename_i fine
    exact violated fine

theorem updateCredential_meets {op : String} {id : Uuid} {p : Credential → Bool}
    {f : Credential → Credential} {missed : Fail} (stable : (terms tight careful).Stable held K)
    (h : ∀ db c, K db → db.findCredential id = some c → p c = true → ∃ K', K' db ∧
      post () K' ((.credential id, .noKeyUpdate) :: held)
        (fun d => { d with credentials := updateWhere (·.id = id) f d.credentials })) :
    (updateCredential op id p f missed).Meets (terms tight careful) K held (fun d => d) post := by
  apply Txn.Meets.exec (stable.at _)
  intro db _ known _
  refine ⟨trivial, fun _ accepted => ?_⟩
  by_cases hit : db.hitsCredential id p = true
  · obtain ⟨c, found, fits⟩ := hitsCredential_iff.mp hit
    obtain ⟨K', known', done⟩ := h db c known found fits
    exact ⟨K', known', by simpa only [hit, if_true, List.cons_append, List.nil_append] using done⟩
  · simp [hit] at accepted

theorem updateAccounts_meets {stmt : Stmt}
    {post : List Uuid → (Db → Prop) → Locks → (Db → Db) → Prop}
    (untouched : ∀ d, (pending d).accounts = d.accounts)
    (stable : (terms tight careful).StableAt (.before stmt) held K)
    (h : ∀ db, Sound tight db → K db → ∀ hits, hits = db.hitAccounts p → ∃ K', K' db ∧
      post hits K' (hits.map (fun id => (.account id, .noKeyUpdate)) ++ held)
        (fun d => { pending d with
          accounts := updateWhere (fun a => hits.contains a.id) f d.accounts })) :
    (updateAccounts stmt p f).Meets (terms tight careful) K held pending post := by
  apply Txn.Meets.exec stable
  intro db sound known _
  refine ⟨trivial, ?_⟩
  rintro _ ⟨⟩
  have hits : (pending db).hitAccounts p = db.hitAccounts p := by
    simp only [Db.hitAccounts, untouched db]
  obtain ⟨K', known', done⟩ := h db sound known _ rfl
  refine ⟨K', known', ?_⟩
  simpa only [hits, untouched] using done

end Statements

theorem ends_after {t : Tx α} (keeps : t.Keeps Db.rows) (stable : (terms tight careful).Stable held K)
    {post : α → (Db → Prop) → Locks → (Db → Db) → Prop}
    (ends : ∀ a held' pending', held ⊆ held' → (∀ d, (pending' d).rows = (pending d).rows) →
      post a K held' pending') :
    t.Meets (terms tight careful) K held pending post := by
  apply keeps.meets (fun _ _ _ _ => trivial) stable
  intro a held' pending' more _ same
  exact ends a held' pending' more same

theorem endBindings_keeps (stmt : Stmt) (p : Db → SessionBinding → Bool) (reason : String) :
    (endBindings stmt p reason).Keeps Db.rows := Txn.Keeps.exec fun _ _ => rfl

/-! ### Credentials -/

theorem insertCredentialTx_ends (plain : call.Plain) (new : Credential) :
    (insertCredentialTx new).Meets (terms tight careful) (fun _ => True) [] id
      (fun _ => Ends svc tight careful call) := by
  apply insertCredentialTx_meets
  refine ⟨(credential_missing_stable (by simp)).at _, fun db sound _ => ?_⟩
  exact commits_insertCredential sound plain (by simp) rfl rfl

theorem putSecret_follows (secret : Sealed) (c : Credential) : (putSecret secret c).Follows c := by
  refine ⟨rfl, rfl, .inl ?_⟩
  simp [putSecret]

theorem putExpiring_follows (secret : Sealed) (expiresAt : Option Int) (c : Credential) :
    (putExpiring secret expiresAt c).Follows c := by
  refine ⟨rfl, rfl, .inl ?_⟩
  simp [putExpiring, putSecret]

theorem putStatus_follows (status : CredentialStatus) (c : Credential) :
    (putStatus status c).Follows c := ⟨rfl, rfl, .inr ⟨rfl, rfl, rfl⟩⟩

theorem rotateCredentialSecret_ends (plain : call.Plain) (id : Uuid) (secret : Sealed)
    (stable : (terms tight careful).Stable [] K) :
    TxEnds svc tight careful call (rotateCredentialSecret id secret) K := by
  apply updateCredential_meets stable
  intro db c known found _
  refine ⟨K, known, (stable.append [_]).at _, fun db sound _ => ?_⟩
  refine ⟨?_, ⟨?_, .of_eq rfl⟩, .of_plain plain (.of_same rfl)⟩
  · exact sound_updateCredential (f := putSecret secret) sound (fun _ => rfl) (fun _ h => h) rfl
      rfl
  · exact lawful_updateCredential (f := putSecret secret) (fun _ => rfl) (by simp)
      (fun c _ => putSecret_follows secret c) rfl

theorem Credential.Follows.unchanged {later earlier : Credential} (follows : later.Follows earlier)
    (same : later.generation = earlier.generation) :
    later.secret = earlier.secret ∧ later.expiresAt = earlier.expiresAt := by
  rcases follows.secret with less | ⟨-, secret, expiresAt⟩
  · omega
  · exact ⟨secret, expiresAt⟩

def Exchanged (svc : Service) (r : RefreshCall) (cred : Credential) (secret : Sealed)
    (expiry : Option Int) : Prop :=
  ∃ vault bundle ts, svc.vault = some vault ∧ svc.bundle cred = some bundle ∧
    r.refreshToken bundle.refreshToken = .ok ts ∧
    vault.encrypt cred.id cred.providerId (svc.marshalBundle (renewed bundle ts r.now)) =
      some secret ∧
    expiry = ts.expiry

theorem Service.bundle_unchanged {svc : Service} {later earlier : Credential}
    (key : later.id = earlier.id) (follows : later.Follows earlier)
    (same : later.generation = earlier.generation) : svc.bundle later = svc.bundle earlier := by
  rw [Service.bundle, Service.bundle, key, follows.providerId, (follows.unchanged same).1]

theorem Exchanged.obtained {r : RefreshCall} {cred c : Credential} {secret : Sealed}
    {expiry : Option Int} (exchanged : Exchanged svc r cred secret expiry) (key : c.id = cred.id)
    (follows : c.Follows cred) (same : c.generation = cred.generation) :
    Obtained svc r c (putExpiring secret expiry c) := by
  obtain ⟨vault, bundle, ts, vaulted, sealed, answered, encrypted, expires⟩ := exchanged
  refine ⟨rfl, vault, bundle, ts, vaulted, ?_, answered, ?_, expires⟩
  · rw [Service.bundle_unchanged key follows same, sealed]
  · rw [key, follows.providerId]
    exact encrypted

theorem refreshBody_ends {cred : Credential} {secret : Sealed} {expiry : Option Int}
    (idle : ∀ d, call ≠ .dispatch d)
    (exchanged : ∀ r, call.refresher = some r → Exchanged svc r cred secret expiry) :
    TxEnds svc tight careful call (refreshBody cred.id cred.generation secret expiry) (Seen cred) := by
  apply Txn.Meets.bind
  apply Txn.Meets.queryLocking ((seen_stable cred).at _)
  intro db _ seen _
  refine ⟨trivial, Seen cred, seen, ?_⟩
  apply Txn.Meets.bind
  apply Txn.Meets.bind
  apply Txn.Meets.query ((seen_stable cred).at _)
  intro db _ seen _
  refine ⟨trivial, Seen cred, seen, ?_⟩
  apply Txn.Meets.orThrow
  intro current _
  apply Txn.Meets.bind
  apply Txn.Meets.require
  intro _
  apply Txn.Meets.bind
  apply Txn.Meets.require
  intro _
  apply updateCredential_meets (seen_stable cred)
  intro db c seen found moved
  have key : c.id = cred.id := (find_key found).2
  obtain ⟨c', found', follows⟩ := seen
  rw [found] at found'
  cases found'
  refine ⟨fun db => db.findCredential cred.id = some c, found,
    (credential_stable .noKeyUpdate rfl (by simp)).at _, fun db sound found => ?_⟩
  refine ⟨?_, ⟨?_, .of_eq rfl⟩, ?_, ?_, ?_⟩
  · exact sound_updateCredential (f := putExpiring secret expiry) sound (fun _ => rfl)
      (fun _ h => h) rfl rfl
  · exact lawful_updateCredential (f := putExpiring secret expiry) (fun _ => rfl) (by simp)
      (fun c _ => putExpiring_follows secret expiry c) rfl
  · intro r refreshes id old new was is_ changed
    rw [findCredential_update (f := putExpiring secret expiry) (fun _ => rfl) rfl, was] at is_
    cases is_
    dsimp only at changed ⊢
    split at changed
    · rename_i mine
      rw [if_pos mine]
      have : id = cred.id := (find_key was).2.symm.trans mine
      rw [this, found] at was
      cases was
      exact (exchanged r refreshes).obtained key follows (by simpa using moved)
    · exact absurd rfl changed
  · intro _ id a a' was is_ fine waits
    exact absurd (Unmoved.of_same rfl id a a' was is_ waits) fine
  · intro d isDispatch
    exact absurd isDispatch (idle d)

def Covered (id : Uuid) (hits : List Uuid) (db : Db) : Prop :=
  (db.findCredential id).isSome ∧
    ∀ a ∈ db.accounts, a.credentialId = id → a.status = .disabled ∨ a.id ∈ hits

variable {hits : List Uuid}

theorem covered_stable {id : Uuid} (locked : (.credential id, .noKeyUpdate) ∈ held) :
    (terms tight careful).Stable held (Covered id hits) := by
  rintro other db db' compatible sound sound' lawful ⟨known, covered⟩
  have excluded : (.credential id, .update) ∉ other := compatible.not_mem locked rfl
  constructor
  · exact known_stable id other db db' compatible sound sound' lawful known
  · intro a' mem' bound
    have found' := sound'.find mem'
    cases found : db.findAccount a'.id with
    | none =>
      rcases lawful.accounts.binds _ a' found found' with theirs | missing
      · exact absurd (bound ▸ theirs) excluded
      · rw [bound] at missing
        simp [missing] at known
    | some a =>
      have key : a.id = a'.id := (find_key found).2
      obtain ⟨a'', found'', same, -, opens⟩ := lawful.accounts.old _ a found
      rw [found'] at found''
      cases found''
      have bound' : a.credentialId = id := same.symm.trans bound
      rcases covered a (List.mem_of_find?_eq_some found) bound' with shut | hit
      · rcases opens shut with shut' | theirs
        · exact .inl shut'
        · exact absurd (bound' ▸ theirs) excluded
      · exact .inr (key ▸ hit)

theorem covered_of_hit {id : Uuid} (known : (db.findCredential id).isSome) :
    Covered id (db.hitAccounts fun a => a.credentialId = id && a.status ≠ .disabled) db := by
  refine ⟨known, fun a mem bound => ?_⟩
  by_cases shut : a.status = .disabled
  · exact .inl shut
  · exact .inr (mem_hitAccounts mem (by simp [bound, shut]))

theorem commits_revocation {db' : Db} {id : Uuid} (sound : Sound tight db)
    (plain : call.Plain) (covered : Covered id hits db)
    (lockedCredential : (.credential id, .noKeyUpdate) ∈ held)
    (locked : ∀ id ∈ hits, (.account id, .noKeyUpdate) ∈ held)
    (credentials : db'.credentials =
      updateWhere (·.id = id) (putStatus .revoked) db.credentials)
    (accounts : db'.accounts =
      updateWhere (fun a => hits.contains a.id) (moveTo .disabled) db.accounts) :
    Commits svc tight careful call held db db' := by
  refine ⟨?_, ⟨?_, ?_⟩, .of_plain plain ?_⟩
  · apply sound_updateAccounts (f := moveTo .disabled) sound (fun _ => rfl) (fun _ => rfl) accounts
    · exact findCredential_isSome_update (f := putStatus .revoked) (fun _ => rfl) credentials
    · intro asked a found c bound revoked
      split
      · rfl
      · rename_i missed
        have mem := List.mem_of_find?_eq_some found
        by_cases mine : a.credentialId = id
        · rcases covered.2 a mem mine with shut | hit
          · exact shut
          · exact absurd (by simpa using hit) missed
        · rw [findCredential_update (f := putStatus .revoked) (fun _ => rfl) credentials] at bound
          obtain ⟨old, was, rfl⟩ := Option.map_eq_some_iff.mp bound
          have key : old.id = a.credentialId := (find_key was).2
          rw [if_neg (by rwa [key])] at revoked
          exact sound.airtight asked a mem old was revoked
  · exact lawful_updateCredential (f := putStatus .revoked) (fun _ => rfl) lockedCredential
      (fun c _ => putStatus_follows .revoked c) credentials
  · exact lawful_updateAccounts (f := moveTo .disabled) (fun _ => rfl) (fun _ => rfl) locked
      (fun _ _ _ _ _ => .inl rfl) accounts
  · exact .of_update (f := moveTo .disabled) (fun _ => rfl) accounts (fun _ waits => by cases waits)

theorem setStatusBody_ends (plain : call.Plain) (id : Uuid) (status : CredentialStatus)
    (stable : (terms tight careful).Stable [] K) :
    TxEnds svc tight careful call (setStatusBody id status) K := by
  apply Txn.Meets.bind
  apply updateCredential_meets stable
  intro db c known found _
  by_cases revokes : status = .revoked
  · subst revokes
    refine ⟨fun db => (db.findCredential id).isSome, by simp [found], ?_⟩
    simp only [Txn.when, decide_true, if_true]
    apply Txn.Meets.bind
    apply updateAccounts_meets
    · exact fun _ => rfl
    · exact (known_stable id).at _
    intro db _ known hits same
    refine ⟨Covered id hits, by rw [same]; exact covered_of_hit known, ?_⟩
    apply Txn.Meets.bind
    apply ends_after (endBindings_keeps _ _ _) (covered_stable (by simp))
    intro _ held' pending' more rows
    refine ⟨(covered_stable (more (by simp))).at _, fun db sound covered => ?_⟩
    obtain ⟨credentials, accounts⟩ := rows_eq (rows db)
    exact commits_revocation sound plain covered (more (by simp))
      (fun id mem => more (by simp [mem])) credentials accounts
  · refine ⟨K, known, ?_⟩
    simp only [Txn.when, revokes, decide_false]
    refine ⟨(stable.append [_]).at _, fun db sound _ => ?_⟩
    refine ⟨?_, ⟨?_, .of_eq rfl⟩, .of_plain plain (.of_same rfl)⟩
    · exact sound_updateCredential (f := putStatus status) sound (fun _ => rfl)
        (fun _ shut => absurd shut revokes) rfl rfl
    · exact lawful_updateCredential (f := putStatus status) (fun _ => rfl) (by simp)
        (fun c _ => putStatus_follows status c) rfl

/-! ### Accounts -/

theorem ends_of_keeps {t : Tx α} (keeps : t.Keeps Db.rows) (idle : ∀ d, call ≠ .dispatch d)
    (stable : (terms tight careful).Stable [] K) : TxEnds svc tight careful call t K := by
  apply keeps.meets (fun _ _ _ _ => trivial) stable
  intro _ held' pending' _ stable' rows
  refine ⟨stable'.at _, fun db sound _ => ?_⟩
  obtain ⟨credentials, accounts⟩ := rows_eq (rows db)
  exact commits_same sound credentials accounts fun d isDispatch => absurd isDispatch (idle d)

theorem getCredentialForUpdateTx_meets {id : Uuid}
    {post : Credential → (Db → Prop) → Locks → (Db → Db) → Prop}
    (stable : (terms tight careful).Stable held K)
    (h : ∀ c, post c (fun db => K db ∧ db.findCredential id = some c)
      ((.credential id, .update) :: held) (fun d => d)) :
    (getCredentialForUpdateTx id).Meets (terms tight careful) K held (fun d => d) post := by
  apply Txn.Meets.bind
  apply Txn.Meets.queryLocking (stable.at _)
  intro db _ known _
  refine ⟨trivial, ?_⟩
  cases found : db.findCredential id with
  | none => exact ⟨fun _ => True, trivial, trivial⟩
  | some c =>
    have key : c.id = id := (find_key found).2
    refine ⟨fun db => K db ∧ db.findCredential id = some c, ⟨known, found⟩, ?_⟩
    simp only [Option.toList_some, List.map_cons, List.map_nil, key]
    exact h c

theorem createAccountBody_ends (plain : call.Plain) (new : UpstreamAccount)
    (stable : (terms tight careful).Stable [] K) :
    TxEnds svc tight careful call (createAccountBody new) K := by
  apply Txn.Meets.bind
  apply getCredentialForUpdateTx_meets stable
  intro fresh
  apply Txn.Meets.bind
  apply Txn.Meets.require
  intro active
  have here : (terms tight careful).Stable [(.credential new.credentialId, .update)]
      (fun db => K db ∧ db.findCredential new.credentialId = some fresh) :=
    (stable.append [_]).and (credential_stable .update rfl (by simp))
  apply insertUpstreamAccountTx_meets here (fun _ => rfl)
  intro held' more locked
  constructor
  · exact ((here.mono more).and (account_missing_stable locked)).at _
  · rintro db sound ⟨⟨-, found⟩, missing⟩
    refine commits_insertAccount sound plain (.of_eq rfl) locked (.inl (more (by simp))) missing
      rfl ?_ ?_
    · intro id c' found' _
      exact found'
    · refine ⟨fresh, found, ?_⟩
      intro revoked
      simp [revoked] at active

theorem callbackBody_ends (plain : call.Plain) (cred : Credential) (account : UpstreamAccount)
    (bound : account.credentialId = cred.id) (open_ : cred.status ≠ .revoked) :
    TxEnds svc tight careful call (callbackBody cred account) (fun _ => True) := by
  apply Txn.Meets.bind
  apply insertCredentialTx_meets
  have here : (terms tight careful).Stable [(.credentialPkey cred.id, .update)]
      (fun db => db.findCredential cred.id = none) := credential_missing_stable (by simp)
  apply insertUpstreamAccountTx_meets here
  · exact fun _ => rfl
  intro held' more locked
  constructor
  · exact ((here.mono more).and (account_missing_stable locked)).at _
  · rintro db sound ⟨missing, missingAccount⟩
    dsimp only
    generalize stored : ({ db with
      credentials := db.credentials ++ [cred]
      accounts := db.accounts ++ [account] } : Db) = db'
    have credentials : db'.credentials = db.credentials ++ [cred] := by rw [← stored]
    have accounts : db'.accounts = db.accounts ++ [account] := by rw [← stored]
    have inserted := findCredential_insert credentials
    apply commits_insertAccount sound plain
      (lawful_insertCredential (more (by simp)) credentials) locked (.inr (bound ▸ missing))
      missingAccount accounts
    · intro id c' found' revoked
      rw [inserted] at found'
      cases old : db.findCredential id with
      | some c =>
        rw [old] at found'
        exact found'
      | none =>
        rw [old, Option.none_or] at found'
        split at found'
        · cases found'
          exact absurd revoked open_
        · cases found'
    · exact ⟨cred, by simp [inserted, bound, missing], open_⟩

theorem ends_of_updated (same : ∀ a, (f a).id = a.id)
    (binding : ∀ a, (f a).credentialId = a.credentialId)
    (locked : ∀ id ∈ hits, (.account id, .noKeyUpdate) ∈ held)
    (stable : (terms tight careful).StableAt .commit held
      fun db => K db ∧ Standing hits (fun a => p a = true) db)
    (rows : ∀ d : Db, (pending d).rows =
      (d.credentials, updateWhere (fun a => hits.contains a.id) f d.accounts))
    (safe : ∀ db a, K db → db.findAccount a.id = some a → p a = true → a.status = .disabled →
      (f a).status = .disabled ∨ Open held db a.credentialId)
    (owed : ∀ db, K db → Standing hits (fun a => p a = true) db →
      call.Terms svc careful db (pending db)) :
    Ends svc tight careful call (fun db => K db ∧ Standing hits (fun a => p a = true) db) held
      pending := by
  refine ⟨stable, ?_⟩
  rintro db sound ⟨known, standing⟩
  have credentials : (pending db).credentials = db.credentials := congrArg Prod.fst (rows db)
  have written : (pending db).accounts =
      updateWhere (fun a => hits.contains a.id) f db.accounts := congrArg Prod.snd (rows db)
  refine commits_updateAccounts sound same binding locked ?_ credentials written
    (owed db known standing)
  intro id mem
  obtain ⟨a, found, hit⟩ := standing id mem
  have key : a.id = id := (find_key found).2
  exact ⟨a, found, safe db a known (key ▸ found) hit⟩

theorem owed_of_unmoved {db' : Db} (idle : ∀ d, call ≠ .dispatch d) (same : ∀ a, (f a).id = a.id)
    (status : ∀ a, (f a).status = .reauthRequired → a.status = .reauthRequired)
    (rows : db'.rows =
      (db.credentials, updateWhere (fun a => hits.contains a.id) f db.accounts)) :
    call.Terms svc careful db db' := by
  refine .of_credentials (congrArg Prod.fst rows) idle ?_
  intro _ id a a' found found' fine waits
  exact absurd (Unmoved.of_update same (congrArg Prod.snd rows) status id a a' found found' waits)
    fine

def flips (id : Uuid) (starts : List Gateway.UpstreamAccountStatus) (a : UpstreamAccount) :
    Bool := a.id = id && starts.contains a.status

variable {starts : List Gateway.UpstreamAccountStatus}
  {to_ : Gateway.UpstreamAccountStatus}

theorem setConditional_meets {id : Uuid} {post : Bool → (Db → Prop) → Locks → (Db → Db) → Prop}
    (stable : (terms tight careful).Stable held K)
    (h : ∀ flipped hits held', held ⊆ held' →
      (∀ id ∈ hits, (.account id, .noKeyUpdate) ∈ held') →
      post flipped (fun db => K db ∧ Standing hits (fun a => flips id starts a = true) db) held'
        (fun d => { d with
          accounts := updateWhere (fun a => hits.contains a.id) (moveTo to_) d.accounts })) :
    (setUpstreamAccountStatusConditional id starts to_).Meets (terms tight careful) K held
      (fun d => d) post := by
  apply Txn.Meets.bind
  apply updateAccounts_meets
  · exact fun _ => rfl
  · exact stable.at _
  intro db sound known hits same
  refine ⟨fun db => K db ∧ Standing hits (fun a => flips id starts a = true) db, ⟨known, ?_⟩, ?_⟩
  · rw [same]
    exact standing_of_hit sound fun _ hit => hit
  · exact h _ hits _ (List.subset_append_right _ _) fun id mem => by simp [mem]

theorem standing_commit {P : UpstreamAccount → Prop} (stable : (terms tight careful).Stable held K)
    (locked : ∀ id ∈ hits, (.account id, .noKeyUpdate) ∈ held) :
    (terms tight careful).Stable held fun db => K db ∧ Standing hits P db :=
  stable.and (standing_stable locked)

theorem setConditional_ends {id : Uuid} (idle : ∀ d, call ≠ .dispatch d)
    (stable : (terms tight careful).Stable [] K)
    (fine : to_ ≠ .reauthRequired) (safe : .disabled ∉ starts) :
    TxEnds svc tight careful call (setUpstreamAccountStatusConditional id starts to_) K := by
  apply setConditional_meets stable
  intro _ hits held' more locked
  apply ends_of_updated (f := moveTo to_) (fun _ => rfl) (fun _ => rfl) locked
    ((standing_commit (stable.mono more) locked).at _) (fun _ => rfl)
  · intro db a _ _ hit disabled
    simp only [flips, disabled, Bool.and_eq_true, List.contains_iff_mem] at hit
    exact absurd hit.2 safe
  · intro db _ _
    exact owed_of_unmoved (f := moveTo to_) idle (fun _ => rfl) (fun _ waits => absurd waits fine)
      rfl

theorem disableBody_ends (idle : ∀ d, call ≠ .dispatch d) (account : UpstreamAccount)
    (stable : (terms tight careful).Stable [] K) :
    TxEnds svc tight careful call (disableBody account) K := by
  apply Txn.Meets.bind
  apply setConditional_meets stable
  intro flipped hits held' more locked
  have here := standing_commit (P := fun a => flips account.id
    [.active, .refreshing, .cooldown, .reauthRequired] a = true) (stable.mono more) locked
  apply Txn.Meets.bind
  apply Txn.Meets.require
  intro _
  apply Txn.Meets.bind
  apply ends_after (endBindings_keeps _ _ _) here
  intro _ held'' pending' more' rows
  have locked' : ∀ id ∈ hits, (.account id, .noKeyUpdate) ∈ held'' := fun id mem =>
    more' (locked id mem)
  apply ends_of_updated (f := moveTo .disabled) (fun _ => rfl) (fun _ => rfl) locked'
    ((here.mono more').at _) rows
  · intro _ _ _ _ _ _
    exact .inl rfl
  · intro db _ _
    exact owed_of_unmoved (f := moveTo .disabled) idle (fun _ => rfl) (fun _ waits => by cases waits)
      (rows db)

theorem assertCredentialActiveTx_meets {id : Uuid}
    {post : Unit → (Db → Prop) → Locks → (Db → Db) → Prop}
    (stable : (terms tight careful).Stable held K)
    (h : ∀ c : Credential, c.status ≠ .revoked →
      post () (fun db => K db ∧ db.findCredential id = some c) ((.credential id, .update) :: held)
        (fun d => d)) :
    (assertCredentialActiveTx id).Meets (terms tight careful) K held (fun d => d) post := by
  apply Txn.Meets.bind
  apply getCredentialForUpdateTx_meets stable
  intro c
  apply Txn.Meets.require
  intro open_
  exact h c (by simpa using open_)

theorem assertCredentialActiveTx_ends (idle : ∀ d, call ≠ .dispatch d) (id : Uuid)
    (stable : (terms tight careful).Stable [] K) :
    TxEnds svc tight careful call (assertCredentialActiveTx id) K := by
  apply assertCredentialActiveTx_meets stable
  intro c _
  refine ⟨((stable.append [_]).and (credential_stable .update rfl (by simp))).at _, fun db sound _ => ?_⟩
  exact commits_same sound rfl rfl fun d isDispatch => absurd isDispatch (idle d)

theorem activateBody_ends (idle : ∀ d, call ≠ .dispatch d) (account : UpstreamAccount) :
    TxEnds svc tight careful call (activateBody account) (Bound account) := by
  apply Txn.Meets.bind
  apply assertCredentialActiveTx_meets (bound_stable account)
  intro c open_
  have here : (terms tight careful).Stable [(.credential account.credentialId, .update)]
      (fun db => Bound account db ∧ db.findCredential account.credentialId = some c) :=
    (bound_stable account).and (credential_stable .update rfl (by simp))
  apply Txn.Meets.bind
  apply setConditional_meets here
  intro flipped hits held' more locked
  apply Txn.Meets.require
  intro _
  apply ends_of_updated (f := moveTo .active) (fun _ => rfl) (fun _ => rfl) locked
    ((standing_commit (here.mono more) locked).at _) (fun _ => rfl)
  · rintro db a ⟨⟨a', found', bound⟩, found⟩ present hit _
    have key : a.id = account.id := by
      simp only [flips, Bool.and_eq_true, decide_eq_true_eq] at hit
      exact hit.1
    rw [key, found'] at present
    cases present
    rw [bound]
    exact .inr ⟨more (by simp), c, found, open_⟩
  · intro db _ _
    exact owed_of_unmoved (f := moveTo .active) idle (fun _ => rfl) (fun _ waits => by cases waits)
      rfl

theorem updateAccounts_ends {stmt : Stmt} (idle : ∀ d, call ≠ .dispatch d)
    (same : ∀ a, (f a).id = a.id) (binding : ∀ a, (f a).credentialId = a.credentialId)
    (status : ∀ a, (f a).status = a.status) (stable : (terms tight careful).Stable [] K) :
    TxEnds svc tight careful call (updateAccounts stmt p f) K := by
  apply updateAccounts_meets
  · exact fun _ => rfl
  · exact stable.at _
  intro db sound known hits hit
  refine ⟨fun db => K db ∧ Standing hits (fun a => p a = true) db, ⟨known, ?_⟩, ?_⟩
  · rw [hit]
    exact standing_of_hit sound fun _ h => h
  · have locked : ∀ id ∈ hits, (.account id, .noKeyUpdate) ∈
        hits.map (fun id => ((.account id, .noKeyUpdate) : LockKey × LockMode)) ++ [] := by
      intro id mem
      simp [mem]
    apply ends_of_updated same binding locked ((standing_commit (stable.append _) locked).at _)
      (fun _ => rfl)
    · intro db a _ _ _ disabled
      rw [status]
      exact .inl disabled
    · intro db _ _
      exact owed_of_unmoved idle same (fun a waits => status a ▸ waits) rfl

theorem updateUpstreamAccountProfileTx_ends (idle : ∀ d, call ≠ .dispatch d) (id : Uuid)
    (displayName : Option String) (concurrencyLimit : Option Int)
    (stable : (terms tight careful).Stable [] K) :
    TxEnds svc tight careful call (updateUpstreamAccountProfileTx id displayName concurrencyLimit)
      K := by
  apply Txn.Meets.bind
  apply (updateAccounts_ends (f := putProfile displayName concurrencyLimit) idle (fun _ => rfl)
    (fun _ => rfl) (fun _ => rfl) stable).mono
  intro ids K held pending ends
  exact Txn.Meets.require fun _ => ends

theorem updateUpstreamAccountQuota_ends (idle : ∀ d, call ≠ .dispatch d) (id : Uuid)
    (q : UpstreamQuota) (stable : (terms tight careful).Stable [] K) :
    TxEnds svc tight careful call (updateUpstreamAccountQuota id q) K := by
  apply Txn.Meets.bind
  apply (updateAccounts_ends (f := observe q) idle (fun _ => rfl) (fun _ => rfl) (fun _ => rfl)
    stable).mono
  intro ids K held pending ends
  exact ends

end YunhouUsers.Inference.Credentials
