import YunhouUsers.Inference.Credentials.Discipline

/-!
What a call owes at each of its commits, and what each kind of write gives.
-/

namespace YunhouUsers.Inference.Credentials

open ReadCommitted Table

variable (svc : Service)

def Service.bundle (c : Credential) : Option OAuthBundle :=
  svc.vault.bind fun vault => (vault.decrypt c.id c.providerId c.secret).bind svc.unmarshalBundle

/-- `new` holds what the vendor gave for the refresh token in `old`. -/
structure Obtained (svc : Service) (r : RefreshCall) (old new : Credential) : Prop where
  generation : new.generation = old.generation + 1
  exchanged : ∃ vault bundle ts, svc.vault = some vault ∧ svc.bundle old = some bundle ∧
    r.refreshToken bundle.refreshToken = .ok ts ∧
    vault.encrypt old.id old.providerId (svc.marshalBundle (renewed bundle ts r.now)) =
      some new.secret ∧
    new.expiresAt = ts.expiry

/-- The vendor rejects the refresh token in `c`; or there is none, and the access token has
expired. -/
def RefreshCall.Rejects (r : RefreshCall) (c : Credential) : Prop :=
  ∃ bundle, svc.bundle c = some bundle ∧
    (r.refreshToken bundle.refreshToken = .error .reauthRequired ∨
      bundle.refreshToken = "" ∧ expired c r.now = true)

def ProbeCall.Rejects (p : ProbeCall) (c : Credential) : Prop :=
  p.toRefreshCall.Rejects svc c ∨
    ∃ bundle, svc.bundle c = some bundle ∧ p.health bundle.accessToken = .error .reauthRequired

def Call.refresher : Call → Option RefreshCall
  | .refresh r _ => some r
  | .probe p => some p.toRefreshCall
  | _ => none

def Call.Rejects : Call → Credential → Prop
  | .refresh r _, c => r.Rejects svc c
  | .markReauthRequired _ rejected, c => c.generation = rejected
  | .probe p, c => p.Rejects svc c
  | _, _ => False

structure Call.Terms (svc : Service) (careful : Prop) (call : Call) (db db' : Db) : Prop where
  obtained : ∀ r, call.refresher = some r → ∀ id c c', db.findCredential id = some c →
    db'.findCredential id = some c' → c' ≠ c → Obtained svc r c c'
  rejected : careful → ∀ id a a', db.findAccount id = some a → db'.findAccount id = some a' →
    a.status ≠ .reauthRequired → a'.status = .reauthRequired →
    ∀ c, db.findCredential a.credentialId = some c → c.authType = .oauth → call.Rejects svc c
  dispatched : ∀ d, call = .dispatch d →
    ∃ a, db.findAccount d.candidate.accountId = some a ∧ a.status = .active

structure Commits (svc : Service) (tight careful : Prop) (call : Call) (held : Locks)
    (db db' : Db) : Prop where
  sound : Sound tight db'
  lawful : Lawful held db db'
  terms : call.Terms svc careful db db'

section

variable {svc : Service} {tight careful : Prop} {call : Call} {held : Locks} {db db' : Db}

theorem findCredential_same (same : db'.credentials = db.credentials) (id : Uuid) :
    db'.findCredential id = db.findCredential id := by
  simp only [Db.findCredential, same]

theorem findAccount_same (same : db'.accounts = db.accounts) (id : Uuid) :
    db'.findAccount id = db.findAccount id := by
  simp only [Db.findAccount, same]

def Unmoved (db db' : Db) : Prop :=
  ∀ id a a', db.findAccount id = some a → db'.findAccount id = some a' →
    a'.status = .reauthRequired → a.status = .reauthRequired

theorem Unmoved.of_same (same : db'.accounts = db.accounts) : Unmoved db db' := by
  intro id a a' found found' waits
  rw [findAccount_same same, found] at found'
  cases found'
  exact waits

theorem Unmoved.of_insert {new : UpstreamAccount} (written : db'.accounts = db.accounts ++ [new]) :
    Unmoved db db' := by
  intro id a a' found found' waits
  rw [findAccount_insert written, found] at found'
  cases found'
  exact waits

variable {hits : List Uuid} {f : UpstreamAccount → UpstreamAccount}

theorem Unmoved.of_update (same : ∀ a, (f a).id = a.id)
    (written : db'.accounts = updateWhere (fun a => hits.contains a.id) f db.accounts)
    (status : ∀ a, (f a).status = .reauthRequired → a.status = .reauthRequired) :
    Unmoved db db' := by
  intro id a a' found found' waits
  rw [findAccount_update same written, found] at found'
  cases found'
  dsimp only at waits
  split at waits
  · exact status a waits
  · exact waits

structure Call.Plain (call : Call) : Prop where
  refresher : call.refresher = none
  dispatch : ∀ d, call ≠ .dispatch d

theorem Call.Terms.of_plain (plain : call.Plain) (unmoved : Unmoved db db') :
    call.Terms svc careful db db' := by
  constructor
  · intro r refreshes
    rw [plain.refresher] at refreshes
    cases refreshes
  · intro _ id a a' found found' fine waits
    exact absurd (unmoved id a a' found found' waits) fine
  · intro d isDispatch
    exact absurd isDispatch (plain.dispatch d)

theorem Call.Terms.of_credentials (same : db'.credentials = db.credentials)
    (idle : ∀ d, call ≠ .dispatch d)
    (rejected : careful → ∀ id a a', db.findAccount id = some a → db'.findAccount id = some a' →
      a.status ≠ .reauthRequired → a'.status = .reauthRequired →
      ∀ c, db.findCredential a.credentialId = some c → c.authType = .oauth →
        call.Rejects svc c) :
    call.Terms svc careful db db' := by
  refine ⟨?_, rejected, ?_⟩
  · intro r _ id c c' found found' changed
    rw [findCredential_same same, found] at found'
    cases found'
    exact absurd rfl changed
  · intro d isDispatch
    exact absurd isDispatch (idle d)

theorem Sound.of_accounts (sound : Sound tight db) (same : db'.accounts = db.accounts)
    (kept : ∀ id, (db.findCredential id).isSome → (db'.findCredential id).isSome)
    (revoked : ∀ id c c', db.findCredential id = some c → db'.findCredential id = some c' →
      c'.status = .revoked → c.status = .revoked) : Sound tight db' := by
  constructor
  · rw [same]
    exact sound.unique
  · intro a mem
    rw [same] at mem
    exact kept _ (sound.bound a mem)
  · intro asked a mem c' found' shut
    rw [same] at mem
    obtain ⟨c, found⟩ := Option.isSome_iff_exists.mp (sound.bound a mem)
    exact sound.airtight asked a mem c found (revoked _ c c' found found' shut)

theorem Sound.of_same (sound : Sound tight db) (credentials : db'.credentials = db.credentials)
    (accounts : db'.accounts = db.accounts) : Sound tight db' := by
  apply sound.of_accounts accounts
  · intro id
    rw [findCredential_same credentials]
    exact fun known => known
  · intro id c c' found found' shut
    rw [findCredential_same credentials, found] at found'
    cases found'
    exact shut

theorem commits_same (sound : Sound tight db) (credentials : db'.credentials = db.credentials)
    (accounts : db'.accounts = db.accounts)
    (dispatched : ∀ d, call = .dispatch d →
      ∃ a, db.findAccount d.candidate.accountId = some a ∧ a.status = .active) :
    Commits svc tight careful call held db db' := by
  refine ⟨sound.of_same credentials accounts, ⟨.of_eq credentials, .of_eq accounts⟩, ?_⟩
  refine ⟨?_, ?_, dispatched⟩
  · intro r _ id c c' found found' changed
    rw [findCredential_same credentials, found] at found'
    cases found'
    exact absurd rfl changed
  · intro _ id a a' found found' fine waits
    exact absurd (Unmoved.of_same accounts id a a' found found' waits) fine

theorem commits_insertCredential {new : Credential} (sound : Sound tight db) (plain : call.Plain)
    (locked : (.credentialPkey new.id, .update) ∈ held)
    (written : db'.credentials = db.credentials ++ [new]) (same : db'.accounts = db.accounts) :
    Commits svc tight careful call held db db' := by
  have old : ∀ id c, db.findCredential id = some c → db'.findCredential id = some c := by
    intro id c found
    rw [findCredential_insert written, found]
    rfl
  refine ⟨?_, ⟨lawful_insertCredential locked written, .of_eq same⟩,
    .of_plain plain (.of_same same)⟩
  apply sound.of_accounts same
  · intro id known
    obtain ⟨c, found⟩ := Option.isSome_iff_exists.mp known
    rw [old id c found]
    rfl
  · intro id c c' found found' shut
    rw [old id c found] at found'
    cases found'
    exact shut

theorem findCredential_isSome_update {id : Uuid} {f : Credential → Credential}
    (same : ∀ c, (f c).id = c.id)
    (written : db'.credentials = updateWhere (·.id = id) f db.credentials) (other : Uuid)
    (known : (db.findCredential other).isSome) : (db'.findCredential other).isSome := by
  rw [findCredential_update same written]
  simpa using known

theorem sound_updateCredential {id : Uuid} {f : Credential → Credential} (sound : Sound tight db)
    (same : ∀ c, (f c).id = c.id)
    (status : ∀ c, (f c).status = .revoked → c.status = .revoked)
    (written : db'.credentials = updateWhere (·.id = id) f db.credentials)
    (accounts : db'.accounts = db.accounts) : Sound tight db' := by
  apply sound.of_accounts accounts (findCredential_isSome_update same written)
  intro other c c' found found' shut
  rw [findCredential_update same written, found] at found'
  cases found'
  dsimp only at shut
  split at shut
  · exact status c shut
  · exact shut

theorem commits_insertAccount {new : UpstreamAccount} (sound : Sound tight db) (plain : call.Plain)
    (lawful : LawfulCredentials held db db')
    (locked : (.accountPkey new.id, .update) ∈ held)
    (binds : (.credential new.credentialId, .update) ∈ held ∨
      db.findCredential new.credentialId = none)
    (missing : db.findAccount new.id = none)
    (written : db'.accounts = db.accounts ++ [new])
    (old : ∀ id c', db'.findCredential id = some c' → c'.status = .revoked →
      db.findCredential id = some c')
    (target : ∃ c, db'.findCredential new.credentialId = some c ∧ c.status ≠ .revoked) :
    Commits svc tight careful call held db db' := by
  refine ⟨sound_insertAccount sound missing written old ?_ target,
    ⟨lawful, lawful_insertAccount locked binds written⟩, .of_plain plain (.of_insert written)⟩
  intro id known
  obtain ⟨c, found⟩ := Option.isSome_iff_exists.mp known
  obtain ⟨c', found', -⟩ := lawful.old id c found
  rw [found']
  rfl

def Standing (hits : List Uuid) (P : UpstreamAccount → Prop) (db : Db) : Prop :=
  ∀ id ∈ hits, ∃ a, db.findAccount id = some a ∧ P a

variable {P : UpstreamAccount → Prop}

theorem standing_stable (locked : ∀ id ∈ hits, (.account id, .noKeyUpdate) ∈ held) :
    (terms tight careful).Stable held (Standing hits P) := by
  intro other db db' compatible inv inv' lawful standing id mem
  obtain ⟨a, found, holds⟩ := standing id mem
  exact ⟨a, account_stable rfl (locked id mem) other db db' compatible inv inv' lawful found, holds⟩

variable {p : UpstreamAccount → Bool}

theorem standing_of_hit (sound : Sound tight db) (implies : ∀ a, p a = true → P a) :
    Standing (db.hitAccounts p) P db := by
  intro id hit
  rw [Db.hitAccounts, List.mem_map] at hit
  obtain ⟨a, mem, rfl⟩ := hit
  rw [List.mem_filter] at mem
  exact ⟨a, sound.find mem.1, implies a mem.2⟩

theorem mem_hitAccounts {a : UpstreamAccount} (mem : a ∈ db.accounts)
    (hit : p a = true) : a.id ∈ db.hitAccounts p :=
  List.mem_map.mpr ⟨a, List.mem_filter.mpr ⟨mem, hit⟩, rfl⟩

def Open (held : Locks) (db : Db) (id : Uuid) : Prop :=
  (.credential id, .update) ∈ held ∧ ∃ c, db.findCredential id = some c ∧ c.status ≠ .revoked

theorem commits_updateAccounts (sound : Sound tight db) (same : ∀ a, (f a).id = a.id)
    (binding : ∀ a, (f a).credentialId = a.credentialId)
    (locked : ∀ id ∈ hits, (.account id, .noKeyUpdate) ∈ held)
    (safe : Standing hits (fun a => a.status = .disabled →
      (f a).status = .disabled ∨ Open held db a.credentialId) db)
    (credentials : db'.credentials = db.credentials)
    (written : db'.accounts = updateWhere (fun a => hits.contains a.id) f db.accounts)
    (owed : call.Terms svc careful db db') : Commits svc tight careful call held db db' := by
  have stands : ∀ id ∈ hits, ∀ a, db.findAccount id = some a → a.status = .disabled →
      (f a).status = .disabled ∨ Open held db a.credentialId := by
    intro id mem a found
    obtain ⟨a', found', keeps⟩ := safe id mem
    rw [found] at found'
    cases found'
    exact keeps
  refine ⟨?_, ⟨.of_eq credentials, ?_⟩, owed⟩
  · apply sound_updateAccounts sound same binding written
    · intro id
      rw [findCredential_same credentials]
      exact fun known => known
    · intro asked a found c bound revoked
      rw [findCredential_same credentials] at bound
      have shut := sound.airtight asked a (List.mem_of_find?_eq_some found) c bound revoked
      split
      · rename_i hit
        rcases stands a.id (by simpa using hit) a found shut with shut' | ⟨-, c', bound', open_⟩
        · exact shut'
        · rw [bound] at bound'
          cases bound'
          exact absurd revoked open_
      · exact shut
  · apply lawful_updateAccounts same binding locked _ written
    intro id mem a found disabled
    exact (stands id mem a found disabled).imp_right And.left

end

end YunhouUsers.Inference.Credentials
