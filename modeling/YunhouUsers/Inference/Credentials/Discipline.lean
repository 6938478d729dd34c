import YunhouUsers.Inference.Credentials.Refresh

/-!
What one commit may do to credentials and accounts.
-/

namespace YunhouUsers.Inference.Credentials

open ReadCommitted Table

/-- The row some commits later: a new secret comes with a higher generation. -/
structure Credential.Follows (later earlier : Credential) : Prop where
  providerId : later.providerId = earlier.providerId
  authType : later.authType = earlier.authType
  secret : earlier.generation < later.generation ∨ later.generation = earlier.generation ∧
    later.secret = earlier.secret ∧ later.expiresAt = earlier.expiresAt

theorem Credential.Follows.refl (c : Credential) : c.Follows c := ⟨rfl, rfl, .inr ⟨rfl, rfl, rfl⟩⟩

variable {c : Credential}

theorem Credential.Follows.trans {a b : Credential} (ab : b.Follows a) (bc : c.Follows b) :
    c.Follows a := by
  refine ⟨bc.providerId.trans ab.providerId, bc.authType.trans ab.authType, ?_⟩
  rcases ab.secret with less | ⟨gen, sec, exp⟩
  · rcases bc.secret with less' | ⟨gen', -, -⟩
    · exact .inl (less.trans less')
    · exact .inl (gen' ▸ less)
  · rcases bc.secret with less' | ⟨gen', sec', exp'⟩
    · exact .inl (gen ▸ less')
    · exact .inr ⟨gen'.trans gen, sec'.trans sec, exp'.trans exp⟩

def Airtight (db : Db) : Prop :=
  ∀ a ∈ db.accounts, ∀ c, db.findCredential a.credentialId = some c → c.status = .revoked →
    a.status = .disabled

/-- The keys of the schema, and where it is asked for no hole. -/
structure Sound (tight : Prop) (db : Db) : Prop where
  unique : (db.accounts.map fun a => a.id).Nodup
  bound : ∀ a ∈ db.accounts, (db.findCredential a.credentialId).isSome
  airtight : tight → Airtight db

abbrev Locks := List (LockKey × LockMode)

structure LawfulCredentials (held : Locks) (db db' : Db) : Prop where
  old : ∀ id c, db.findCredential id = some c → ∃ c', db'.findCredential id = some c' ∧
    c'.Follows c ∧ (c' = c ∨ (.credential id, .noKeyUpdate) ∈ held)
  fresh : ∀ id, db.findCredential id = none →
    db'.findCredential id = none ∨ (.credentialPkey id, .update) ∈ held

/-- An account leaves `disabled`, and a new one is bound to a stored credential, under the row
lock of the credential only. -/
structure LawfulAccounts (held : Locks) (db db' : Db) : Prop where
  old : ∀ id a, db.findAccount id = some a → ∃ a', db'.findAccount id = some a' ∧
    a'.credentialId = a.credentialId ∧ (a' = a ∨ (.account id, .noKeyUpdate) ∈ held) ∧
    (a.status = .disabled → a'.status = .disabled ∨ (.credential a.credentialId, .update) ∈ held)
  fresh : ∀ id, db.findAccount id = none →
    db'.findAccount id = none ∨ (.accountPkey id, .update) ∈ held
  binds : ∀ id a', db.findAccount id = none → db'.findAccount id = some a' →
    (.credential a'.credentialId, .update) ∈ held ∨ db.findCredential a'.credentialId = none

structure Lawful (held : Locks) (db db' : Db) : Prop where
  credentials : LawfulCredentials held db db'
  accounts : LawfulAccounts held db db'

variable {held : Locks} {db db' : Db}

theorem LawfulCredentials.of_eq
    (same : db'.credentials = db.credentials) : LawfulCredentials held db db' := by
  have find : ∀ id, db'.findCredential id = db.findCredential id := by
    intro id
    simp only [Db.findCredential, same]
  constructor
  · intro id c found
    exact ⟨c, (find id).trans found, .refl c, .inl rfl⟩
  · intro id missing
    exact .inl ((find id).trans missing)

theorem LawfulAccounts.of_eq (same : db'.accounts = db.accounts) : LawfulAccounts held db db' := by
  have find : ∀ id, db'.findAccount id = db.findAccount id := by
    intro id
    simp only [Db.findAccount, same]
  constructor
  · intro id a found
    exact ⟨a, (find id).trans found, rfl, .inl rfl, .inl⟩
  · intro id missing
    exact .inl ((find id).trans missing)
  · intro id a' missing found
    rw [find id, missing] at found
    contradiction

def Db.generation (db : Db) (id : Uuid) : Option Int :=
  (db.findCredential id).map fun c => c.generation

/-- The terms of every writer.  A careful schedule lets no new generation in while a
reauthorization stands between its re-read and its end, and reads the credential for one only
while the generation that was rejected is stored. -/
def terms (tight careful : Prop) : Contract Db LockKey Stmt where
  inv := Sound tight
  guarantee := Lawful
  idle _ _ := ⟨.of_eq rfl, .of_eq rfl⟩
  ready l db :=
    match l with
    | .getRejected id g => careful → ∀ c, db.findCredential id = some c → c.generation = g
    | _ => True
  spares p held db db' :=
    match p with
    | .before (.propagate id) => careful → db'.generation id = db.generation id
    | .commit => careful → ∀ id, (.refresh id, .update) ∈ held →
        db'.generation id = db.generation id
    | _ => True

variable {a : UpstreamAccount} {id : Uuid}

section Knowledge

variable {tight careful : Prop} {held : Locks}

def Seen (cred : Credential) (db : Db) : Prop :=
  ∃ c, db.findCredential cred.id = some c ∧ c.Follows cred

def Bound (a : UpstreamAccount) (db : Db) : Prop :=
  ∃ a', db.findAccount a.id = some a' ∧ a'.credentialId = a.credentialId

theorem seen_of_find {cred : Credential}
    (found : db.findCredential id = some cred) : Seen cred db := by
  have key : cred.id = id := (find_key found).2
  exact ⟨cred, by rw [key, found], .refl cred⟩

theorem bound_of_find (found : db.findAccount id = some a) : Bound a db := by
  have key : a.id = id := (find_key found).2
  exact ⟨a, by rw [key, found], rfl⟩

theorem seen_stable (cred : Credential) : (terms tight careful).Stable held (Seen cred) := by
  rintro other db db' - - - lawful ⟨c, found, follows⟩
  obtain ⟨c', found', follows', -⟩ := lawful.credentials.old _ c found
  exact ⟨c', found', follows.trans follows'⟩

theorem bound_stable (a : UpstreamAccount) : (terms tight careful).Stable held (Bound a) := by
  rintro other db db' - - - lawful ⟨a', found, same⟩
  obtain ⟨a'', found', same', -, -⟩ := lawful.accounts.old _ a' found
  exact ⟨a'', found', same'.trans same⟩

theorem known_stable (id : Uuid) :
    (terms tight careful).Stable held fun db => (db.findCredential id).isSome := by
  intro other db db' _ _ _ lawful known
  obtain ⟨c, found⟩ := Option.isSome_iff_exists.mp known
  obtain ⟨c', found', -⟩ := lawful.credentials.old id c found
  simp [found']

theorem credential_stable (mode : LockMode) (strong : mode.conflicts .noKeyUpdate = true)
    (locked : (.credential id, mode) ∈ held) :
    (terms tight careful).Stable held fun db => db.findCredential id = some c := by
  intro other db db' compatible _ _ lawful found
  obtain ⟨c', found', -, same | theirs⟩ := lawful.credentials.old id c found
  · rw [found', same]
  · exact absurd theirs (compatible.not_mem locked strong)

theorem credential_missing_stable (locked : (.credentialPkey id, .update) ∈ held) :
    (terms tight careful).Stable held fun db => db.findCredential id = none := by
  intro other db db' compatible _ _ lawful missing
  rcases lawful.credentials.fresh id missing with missing' | theirs
  · exact missing'
  · exact absurd theirs (compatible.not_mem locked rfl)

theorem account_missing_stable (locked : (.accountPkey id, .update) ∈ held) :
    (terms tight careful).Stable held fun db => db.findAccount id = none := by
  intro other db db' compatible _ _ lawful missing
  rcases lawful.accounts.fresh id missing with missing' | theirs
  · exact missing'
  · exact absurd theirs (compatible.not_mem locked rfl)

theorem account_stable {m : LockMode}
    (excludes : m.conflicts .noKeyUpdate = true) (locked : (.account id, m) ∈ held) :
    (terms tight careful).Stable held fun db => db.findAccount id = some a := by
  intro other db db' compatible _ _ lawful found
  obtain ⟨a', found', -, same | theirs, -⟩ := lawful.accounts.old id a found
  · rw [found', same]
  · exact absurd theirs (compatible.not_mem locked excludes)

theorem true_stable : (terms tight careful).Stable held fun _ => True :=
  (terms tight careful).stable_true held

end Knowledge

section Writes

variable {tight : Prop}

theorem findCredential_update {f : Credential → Credential} (same : ∀ c, (f c).id = c.id)
    (written : db'.credentials = updateWhere (·.id = id) f db.credentials) (other : Uuid) :
    db'.findCredential other =
      (db.findCredential other).map fun c => if c.id = id then f c else c := by
  unfold Db.findCredential
  rw [written, find_updateWhere same]
  simp only [decide_eq_true_eq]

variable {f : UpstreamAccount → UpstreamAccount} {hits : List Uuid}

theorem findAccount_update (same : ∀ a, (f a).id = a.id)
    (written : db'.accounts = updateWhere (fun a => hits.contains a.id) f db.accounts) (id : Uuid) :
    db'.findAccount id =
      (db.findAccount id).map fun a => if hits.contains a.id then f a else a := by
  unfold Db.findAccount
  rw [written, find_updateWhere same]

theorem lawful_updateCredential {f : Credential → Credential} (same : ∀ c, (f c).id = c.id)
    (locked : (.credential id, .noKeyUpdate) ∈ held)
    (follows : ∀ c, db.findCredential id = some c → (f c).Follows c)
    (written : db'.credentials = updateWhere (·.id = id) f db.credentials) :
    LawfulCredentials held db db' := by
  constructor
  · intro other c found
    have key : c.id = other := (find_key found).2
    rw [findCredential_update same written, found]
    refine ⟨_, rfl, ?_⟩
    dsimp only
    split
    · rename_i mine
      have isMine : other = id := key.symm.trans mine
      exact ⟨follows c (isMine ▸ found), .inr (isMine ▸ locked)⟩
    · exact ⟨.refl c, .inl rfl⟩
  · intro other missing
    exact .inl (by rw [findCredential_update same written, missing]; rfl)

theorem findCredential_insert (written : db'.credentials = db.credentials ++ [c]) (id : Uuid) :
    db'.findCredential id = (db.findCredential id).or (if c.id = id then some c else none) := by
  unfold Db.findCredential
  rw [written, List.find?_append]
  congr 1
  simp only [List.find?_cons, List.find?_nil]
  by_cases h : c.id = id <;> simp [h]

theorem findAccount_insert (written : db'.accounts = db.accounts ++ [a]) (id : Uuid) :
    db'.findAccount id = (db.findAccount id).or (if a.id = id then some a else none) := by
  unfold Db.findAccount
  rw [written, List.find?_append]
  congr 1
  simp only [List.find?_cons, List.find?_nil]
  by_cases h : a.id = id <;> simp [h]

theorem lawful_insertCredential (locked : (.credentialPkey c.id, .update) ∈ held)
    (written : db'.credentials = db.credentials ++ [c]) : LawfulCredentials held db db' := by
  constructor
  · intro id old found
    exact ⟨old, by rw [findCredential_insert written, found]; rfl, .refl old, .inl rfl⟩
  · intro id missing
    rw [findCredential_insert written, missing]
    by_cases mine : c.id = id
    · exact .inr (mine ▸ locked)
    · exact .inl (by simp [mine])

theorem lawful_insertAccount (locked : (.accountPkey a.id, .update) ∈ held)
    (binds : (.credential a.credentialId, .update) ∈ held ∨
      db.findCredential a.credentialId = none)
    (written : db'.accounts = db.accounts ++ [a]) : LawfulAccounts held db db' := by
  constructor
  · intro id old found
    exact ⟨old, by rw [findAccount_insert written, found]; rfl, rfl, .inl rfl, .inl⟩
  · intro id missing
    rw [findAccount_insert written, missing]
    by_cases mine : a.id = id
    · exact .inr (mine ▸ locked)
    · exact .inl (by simp [mine])
  · intro id a' missing found
    rw [findAccount_insert written, missing] at found
    by_cases mine : a.id = id
    · simp only [mine, if_true, Option.none_or, Option.some.injEq] at found
      exact found ▸ binds
    · simp [mine] at found

theorem sound_insertAccount (sound : Sound tight db)
    (missing : db.findAccount a.id = none) (written : db'.accounts = db.accounts ++ [a])
    (old : ∀ id c', db'.findCredential id = some c' → c'.status = .revoked →
      db.findCredential id = some c')
    (kept : ∀ id, (db.findCredential id).isSome → (db'.findCredential id).isSome)
    (target : ∃ c, db'.findCredential a.credentialId = some c ∧ c.status ≠ .revoked) : Sound tight db' := by
  obtain ⟨c, found, open_⟩ := target
  constructor
  · rw [written]
    refine nodup_concat sound.unique fun x mem same => ?_
    have := List.find?_eq_none.mp missing x mem
    simp [same] at this
  · intro x mem
    rw [written, List.mem_append, List.mem_singleton] at mem
    rcases mem with mem | rfl
    · exact kept _ (sound.bound x mem)
    · simp [found]
  · intro asked x mem c' found' revoked
    rw [written, List.mem_append, List.mem_singleton] at mem
    rcases mem with mem | rfl
    · exact sound.airtight asked x mem c' (old _ _ found' revoked) revoked
    · rw [found] at found'
      cases found'
      exact absurd revoked open_

theorem lawful_updateAccounts (same : ∀ a, (f a).id = a.id)
    (binding : ∀ a, (f a).credentialId = a.credentialId)
    (locked : ∀ id ∈ hits, (.account id, .noKeyUpdate) ∈ held)
    (safe : ∀ id ∈ hits, ∀ a, db.findAccount id = some a → a.status = .disabled →
      (f a).status = .disabled ∨ (.credential a.credentialId, .update) ∈ held)
    (written : db'.accounts = updateWhere (fun a => hits.contains a.id) f db.accounts) :
    LawfulAccounts held db db' := by
  constructor
  · intro id a found
    have key : a.id = id := (find_key found).2
    rw [findAccount_update same written, found]
    refine ⟨_, rfl, ?_⟩
    dsimp only
    split
    · rename_i hit
      have mem : id ∈ hits := by simpa [key] using hit
      exact ⟨binding a, .inr (locked id mem), safe id mem a found⟩
    · exact ⟨rfl, .inl rfl, .inl⟩
  · intro id missing
    exact .inl (by rw [findAccount_update same written, missing]; rfl)
  · intro id a' missing found
    rw [findAccount_update same written, missing] at found
    cases found

theorem Sound.find (sound : Sound tight db) (mem : a ∈ db.accounts) :
    db.findAccount a.id = some a := find_of_mem sound.unique mem

theorem sound_updateAccounts (sound : Sound tight db) (same : ∀ a, (f a).id = a.id)
    (binding : ∀ a, (f a).credentialId = a.credentialId)
    (written : db'.accounts = updateWhere (fun a => hits.contains a.id) f db.accounts)
    (kept : ∀ id, (db.findCredential id).isSome → (db'.findCredential id).isSome)
    (shut : tight → ∀ a, db.findAccount a.id = some a → ∀ c,
      db'.findCredential a.credentialId = some c → c.status = .revoked →
        (if hits.contains a.id then f a else a).status = .disabled) : Sound tight db' := by
  constructor
  · rw [written, map_updateWhere _ _ _ same]
    exact sound.unique
  · intro x mem
    rw [written, mem_updateWhere] at mem
    obtain ⟨a, mem, rfl⟩ := mem
    have bound := kept _ (sound.bound a mem)
    split
    · rw [binding]
      exact bound
    · exact bound
  · intro asked x mem c found revoked
    rw [written, mem_updateWhere] at mem
    obtain ⟨a, mem, rfl⟩ := mem
    refine shut asked a (sound.find mem) c ?_ revoked
    revert found
    split
    · rw [binding]
      exact id
    · exact id

end Writes

end YunhouUsers.Inference.Credentials
