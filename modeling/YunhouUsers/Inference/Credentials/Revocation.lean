import YunhouUsers.Inference.Credentials.Programs

/-!
Revocation is airtight under every schedule.
-/

namespace YunhouUsers.Inference.Credentials

open ReadCommitted

variable {ι η : Type} [DecidableEq ι] {tight : Prop}

theorem elsewhere_allowed (careful : Prop) (outside : η → Db → Db) :
    Config.EnvAllowed (terms tight careful).toDiscipline fun e => elsewhere (outside e) := by
  intro e db sound
  exact ⟨sound.of_same rfl rfl, ⟨.of_eq rfl, .of_eq rfl⟩⟩

theorem spares_of_careless (p : Point Stmt) (held : Locks) (db db' : Db) :
    (terms tight False).spares p held db db' := by
  cases p with
  | commit => exact False.elim
  | out => trivial
  | before l =>
    cases l with
    | propagate id => exact False.elim
    | sql op => trivial
    | getRejected id g => trivial

theorem ready_of_careless (l : Stmt) (db : Db) : (terms tight False).ready l db := by
  cases l with
  | getRejected id g => exact False.elim
  | sql op => trivial
  | propagate id => trivial

theorem admissible_of_careless {env : η → Db → Db} {c : Config Db LockKey Stmt Reply ι}
    (as : List (Action ι η)) :
    c.Along env (Config.Admissible (terms tight False) env) as := by
  refine (Config.along_true as).mono fun c a _ => ?_
  cases a with
  | env e => exact fun j => spares_of_careless _ _ _ _
  | kill i => trivial
  | step i =>
    simp only [Config.Admissible]
    split
    · exact ready_of_careless _ _
    · exact fun j _ => spares_of_careless _ _ _ _
    · trivial

def opening (svc : Service) (calls : ι → Call) (db : Db) : Config Db LockKey Stmt Reply ι :=
  .start db fun i => (calls i).program svc

theorem opening_meeting (svc : Service) (calls : ι → Call) (careful : Prop) {db : Db}
    (sound : Sound tight db) :
    (opening svc calls db).Meeting (terms tight careful)
      fun i _ => (calls i).Terms svc careful :=
  Config.meeting_start sound fun i => (calls i).keeping svc tight careful

/-- A session that took an account into use commits while the account is active and its
credential is not revoked. -/
def DispatchesOpen (calls : ι → Call) (c : Config Db LockKey Stmt Reply ι) (a : Action ι η) :
    Prop :=
  ∀ i d n, a = .step i → calls i = .dispatch d → (c.session i).code = .commit n →
    ∃ account, c.db.findAccount d.candidate.accountId = some account ∧
      account.status = .active ∧
      ∀ cred, c.db.findCredential account.credentialId = some cred → cred.status ≠ .revoked

/-- From a state without a hole, whatever runs together in whatever order, every committed state
is without one. -/
theorem revocation_airtight (svc : Service) (calls : ι → Call) (outside : η → Db → Db) {db : Db}
    (sound : Sound True db) (as : List (Action ι η)) :
    (∀ c', (opening svc calls db).run (fun e => elsewhere (outside e)) as = some c' →
      Airtight c'.db) ∧
    (opening svc calls db).Along (fun e => elsewhere (outside e)) (DispatchesOpen calls) as := by
  have meeting := opening_meeting svc calls False sound
  have free : (opening svc calls db).Along (fun e => elsewhere (outside e))
      (Config.Admissible (terms True False) fun e => elsewhere (outside e)) as :=
    admissible_of_careless as
  constructor
  · intro c' ran
    have after := meeting.run (elsewhere_allowed False outside) free ran
    exact after.inv.airtight trivial
  · have along := meeting.along (elsewhere_allowed False outside) (I := fun _ => True)
      (fun _ _ _ _ _ _ _ => trivial) trivial free
    refine along.mono ?_
    rintro c a ⟨passes, inv, -⟩ i d n rfl isDispatch code
    simp only [Config.Passes, code] at passes
    obtain ⟨account, found, active⟩ := passes.2.dispatched d isDispatch
    refine ⟨account, found, active, fun cred bound revoked => ?_⟩
    have shut := inv.airtight trivial account (List.mem_of_find?_eq_some found) cred bound revoked
    rw [active] at shut
    cases shut

def plainService : Service where
  vault := some ⟨fun _ _ text => some ⟨text, 1⟩, fun _ _ secret => some secret.ciphertext⟩
  marshalBundle bundle := bundle.refreshToken
  unmarshalBundle text := some ⟨"", text, "bearer", 0⟩
  registry _ := true

def keyedDb : Db where
  credentials := [⟨1, 7, "main", .apiKey, ⟨"secret", 1⟩, 1, none, .active, ""⟩]
  accounts := [⟨2, 7, 1, "", "main", .active, 4, {}⟩]
  providers := [⟨7, true, false⟩]

def revokeAndActivate : Bool → Call
  | true => .setStatus 1 (some .revoked)
  | false => .setAccountStatus 2 (some .active) "try again"

theorem keyedDb_sound : Sound True keyedDb := by
  refine ⟨by decide, by decide, fun _ => ?_⟩
  intro a mem cred found revoked
  simp only [keyedDb, List.mem_singleton] at mem
  subst mem
  cases found
  cases revoked

def revokeBetween : List (ReadCommitted.Action Bool Unit) :=
  [.step false, .step true, .step false, .step true, .step true, .step true, .step true,
    .step false, .step false]

theorem revocation_airtight_beside_activation :
    Sound True keyedDb ∧
    ((opening plainService revokeAndActivate keyedDb).run (fun _ => elsewhere fun db => db)
      revokeBetween).map (fun c => c.db.accounts.map fun a => a.status) = some [.disabled] ∧
    ∀ c', (opening plainService revokeAndActivate keyedDb).run (fun _ => elsewhere fun db => db)
      revokeBetween = some c' → Airtight c'.db :=
  ⟨keyedDb_sound, by decide +kernel, (revocation_airtight plainService revokeAndActivate
    (fun _ db => db) keyedDb_sound revokeBetween).1⟩

end YunhouUsers.Inference.Credentials
