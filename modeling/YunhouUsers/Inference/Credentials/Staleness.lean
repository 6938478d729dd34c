import Mathlib.Data.Fintype.Basic
import YunhouUsers.Inference.Credentials.Revocation

/-!
A stale refresh result does no harm, as long as nobody stores a secret between the re-read and the
end of a reauthorization.
-/

namespace YunhouUsers.Inference.Credentials

open ReadCommitted

variable {ι η : Type} [DecidableEq ι]

def AtCommit (P : ι → Db → Db → Prop) (c : Config Db LockKey Stmt Reply ι) (a : Action ι η) : Prop :=
  ∀ i n, a = .step i → (c.session i).code = .commit n → P i c.db (c.view i)

def Advances (db db' : Db) : Prop :=
  ∀ id cred, db.findCredential id = some cred →
    ∃ cred', db'.findCredential id = some cred' ∧ cred'.Follows cred

def StoresObtained (svc : Service) (call : Call) (db db' : Db) : Prop :=
  ∀ r, call.refresher = some r → ∀ id cred cred', db.findCredential id = some cred →
    db'.findCredential id = some cred' → cred' ≠ cred → Obtained svc r cred cred'

/-- An account waits for an authorization only when the stored tokens are those that were
rejected. -/
def MovesRejected (svc : Service) (call : Call) (db db' : Db) : Prop :=
  ∀ id a a', db.findAccount id = some a → db'.findAccount id = some a' →
    a.status ≠ .reauthRequired → a'.status = .reauthRequired →
    ∀ cred, db.findCredential a.credentialId = some cred → cred.authType = .oauth →
      call.Rejects svc cred

variable (c : Config Db LockKey Stmt Reply ι)

def reauthorizing (j : ι) : List Uuid :=
  match (c.session j).code with
  | .stmt (.propagate id) _ _ _ => [id]
  | .commit _ => (c.locksOf j).filterMap fun
    | (.refresh id, .update) => some id
    | _ => none
  | _ => []

def CarefulAt (i : ι) : Program → Prop
  | .stmt (.getRejected id rejected) _ _ _ => (c.db.generation id).getD rejected = rejected
  | .commit _ => ∀ j, j ≠ i → ∀ id ∈ reauthorizing c j,
      (c.view i).generation id = c.db.generation id
  | _ => True

instance [Fintype ι] (c : Config Db LockKey Stmt Reply ι) (i : ι) :
    (p : Program) → Decidable (CarefulAt c i p)
  | .stmt (.getRejected _ _) _ _ _ => inferInstanceAs (Decidable (_ = _))
  | .stmt (.sql _) _ _ _ => .isTrue trivial
  | .stmt (.propagate _) _ _ _ => .isTrue trivial
  | .commit _ => inferInstanceAs (Decidable (∀ _, _))
  | .done _ => .isTrue trivial
  | .killed => .isTrue trivial
  | .rollback _ => .isTrue trivial

def Careful : Action ι η → Prop
  | .step i => CarefulAt c i (c.session i).code
  | _ => True

instance [Fintype ι] (c : Config Db LockKey Stmt Reply ι) :
    (a : Action ι η) → Decidable (Careful c a)
  | .step _ => inferInstanceAs (Decidable (CarefulAt _ _ _))
  | .kill _ => .isTrue trivial
  | .env _ => .isTrue trivial

variable {tight : Prop}

theorem spares_of_generation {careful : Prop} {held : Locks} {db db' : Db} (p : Point Stmt)
    (same : ∀ id, db'.generation id = db.generation id) :
    (terms tight careful).spares p held db db' := by
  cases p with
  | commit => exact fun _ id _ => same id
  | out => trivial
  | before l =>
    cases l with
    | propagate id => exact fun _ => same id
    | sql op => trivial
    | getRejected id g => trivial

variable {c : Config Db LockKey Stmt Reply ι}

theorem spares_of_careful {j : ι} {db' : Db}
    (same : ∀ id ∈ reauthorizing c j, db'.generation id = c.db.generation id) :
    (terms tight True).spares (c.session j).code.point (c.locksOf j) c.db db' := by
  unfold reauthorizing at same
  cases code : (c.session j).code with
  | done r => trivial
  | killed => trivial
  | rollback n => trivial
  | commit n =>
    intro _ id locked
    rw [code] at same
    exact same id (List.mem_filterMap.mpr ⟨_, locked, rfl⟩)
  | stmt l ks w n =>
    rw [code] at same
    cases l with
    | propagate id => exact fun _ => same id (by simp)
    | sql op => trivial
    | getRejected id g => trivial

theorem admissible_of_careful {outside : η → Db → Db} {a : Action ι η} (careful : Careful c a) :
    c.Admissible (terms tight True) (fun e => elsewhere (outside e)) a := by
  cases a with
  | env e => exact fun j => spares_of_generation _ fun _ => rfl
  | kill i => trivial
  | step i =>
    simp only [Config.Admissible]
    simp only [Careful] at careful
    split
    · rename_i l ks w n code
      rw [code] at careful
      cases l with
      | getRejected id rejected =>
        intro _ cred found
        simpa [CarefulAt, Db.generation, found] using careful
      | sql op => trivial
      | propagate id => trivial
    · rename_i n code
      rw [code] at careful
      intro j ne
      exact spares_of_careful (careful j ne)
    · trivial

/-- Whatever runs together: a stored secret always comes with a higher generation, and a refresh
stores only what the token it replaces was exchanged for.  Along a careful schedule accounts wait
for an authorization only when the stored tokens were rejected. -/
theorem stale_refresh_harmless (svc : Service) (calls : ι → Call) (outside : η → Db → Db) {db : Db}
    (sound : Sound False db) (as : List (Action ι η)) :
    (opening svc calls db).Along (fun e => elsewhere (outside e))
      (AtCommit fun i db db' => Advances db db' ∧ StoresObtained svc (calls i) db db') as ∧
    ((opening svc calls db).Along (fun e => elsewhere (outside e)) Careful as →
      (opening svc calls db).Along (fun e => elsewhere (outside e))
        (AtCommit fun i => MovesRejected svc (calls i)) as) := by
  constructor
  · have meeting := opening_meeting svc calls False sound
    refine (meeting.along (elsewhere_allowed False outside) (I := fun _ => True)
      (fun _ _ _ _ _ _ _ => trivial) trivial (admissible_of_careless as)).mono ?_
    rintro c a ⟨passes, -, -⟩ i n rfl code
    simp only [Config.Passes, code] at passes
    refine ⟨fun id cred found => ?_, passes.2.obtained⟩
    obtain ⟨cred', found', follows, -⟩ := passes.1.credentials.old id cred found
    exact ⟨cred', found', follows⟩
  · intro careful
    have meeting := opening_meeting svc calls True sound
    refine (meeting.along (elsewhere_allowed True outside) (I := fun _ => True)
      (fun _ _ _ _ _ _ _ => trivial) trivial
      (careful.mono fun c a => admissible_of_careful)).mono ?_
    rintro c a ⟨passes, -, -⟩ i n rfl code
    simp only [Config.Passes, code] at passes
    exact passes.2.rejected trivial

/-! A vendor that refuses the token `"old"`. -/

def refusingCall : RefreshCall where
  now := 0
  refreshToken token :=
    if token = "old" then .error .reauthRequired else .ok ⟨"access", "", "bearer", none, ""⟩

def oauthDb : Db where
  credentials := [⟨1, 7, "main", .oauth, ⟨"old", 1⟩, 1, none, .active, "vendor"⟩]
  accounts := [⟨2, 7, 1, "", "main", .active, 4, {}⟩]
  providers := [⟨7, true, false⟩]

theorem oauthDb_sound (tight : Prop) : Sound tight oauthDb := by
  refine ⟨by decide, by decide, fun _ => ?_⟩
  intro a mem cred found revoked
  simp only [oauthDb, List.mem_singleton] at mem
  subst mem
  cases found
  cases revoked

def refreshAndRotate : Bool → Call
  | true => .refresh refusingCall 1
  | false => .rotate 1 "new"

def refreshFirst : List (ReadCommitted.Action Bool Unit) :=
  [.step false, .step false, .step true, .step true, .step true, .step true, .step true,
    .step true, .step false]

theorem stale_refresh_harmless_refused :
    Sound False oauthDb ∧
    ((opening plainService refreshAndRotate oauthDb).run (fun _ => elsewhere fun db => db)
      refreshFirst).map (fun c => (c.db.generation 1, c.db.accounts.map fun a => a.status)) =
        some (some 2, [.reauthRequired]) ∧
    (opening plainService refreshAndRotate oauthDb).Along (fun _ => elsewhere fun db => db)
      (AtCommit fun i => MovesRejected plainService (refreshAndRotate i)) refreshFirst :=
  ⟨oauthDb_sound False, by decide +kernel,
    (stale_refresh_harmless plainService refreshAndRotate (fun _ db => db) (oauthDb_sound False)
      refreshFirst).2 (by decide +kernel)⟩

/-- The rotation commits between the re-read of the refresh and its end. -/
def rotatedMeanwhile : List (ReadCommitted.Action Bool Unit) :=
  [.step true, .step true, .step true, .step false, .step false, .step false, .step true,
    .step true]

/-- The vendor takes the stored token, and its account has to be authorized again. -/
theorem rotated_credential_reauthorized :
    ¬ (opening plainService refreshAndRotate oauthDb).Along (fun _ => elsewhere fun db => db)
      (AtCommit fun i => MovesRejected plainService (refreshAndRotate i))
      (rotatedMeanwhile ++ [.step true]) := by
  intro along
  have reached : ((opening plainService refreshAndRotate oauthDb).run
      (fun _ => elsewhere fun db => db) rotatedMeanwhile).isSome := by decide +kernel
  obtain ⟨c, ran⟩ := Option.isSome_iff_exists.mp reached
  have facts : ((opening plainService refreshAndRotate oauthDb).run
      (fun _ => elsewhere fun db => db) rotatedMeanwhile).all (fun c =>
        c.db.findCredential 1 = some ⟨1, 7, "main", .oauth, ⟨"new", 1⟩, 2, none, .active, "vendor"⟩ &&
        c.db.findAccount 2 = some ⟨2, 7, 1, "", "main", .active, 4, {}⟩ &&
        (c.view true).findAccount 2 = some ⟨2, 7, 1, "", "main", .reauthRequired, 4, {}⟩ &&
        match (c.session true).code with
        | .commit _ => true
        | _ => false) = true := by decide +kernel
  rw [ran] at facts
  simp only [Option.all_some, Bool.and_eq_true, decide_eq_true_eq] at facts
  obtain ⟨⟨⟨stored, account⟩, moved⟩, commits⟩ := facts
  have last := ((Config.along_append.mp along).2 c ran).1
  split at commits
  · rename_i n code
    have rejects := last true n rfl code 2 _ _ account moved (by decide) rfl _ stored rfl
    obtain ⟨bundle, sealed, refused | ⟨none_, -⟩⟩ := rejects
    · cases sealed
      cases refused
    · cases sealed
      exact absurd none_ (by decide)
  · cases commits

end YunhouUsers.Inference.Credentials
