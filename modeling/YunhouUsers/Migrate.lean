import Mathlib.Data.List.Nodup
import Mathlib.Data.List.Infix
import YunhouUsers.History

/-!
Migrations (`migrate/migrate.go`), with any number of `Apply` calls over several connection pools.

The advisory lock belongs to the session of a connection: the end of a transaction does not release
it, the end of the session does.
-/

namespace YunhouUsers.Migrate

structure Migration where
  id : String
  sql : String
deriving DecidableEq

/-- Where an `Apply` call stands; `s` is the session of its lock transaction. -/
inductive Phase where
  | ledgerDDL
  | begin
  | acquire (s : Nat)
  | selectApplied (s : Nat)
  | migrating (s : Nat) (appliedSet : List String) (rest : List Migration)
  /-- `applyOne` has executed the SQL. -/
  | executed (s : Nat) (appliedSet : List String) (m : Migration) (rest : List Migration)
  /-- `applyOne` has inserted the row. -/
  | recorded (s : Nat) (appliedSet : List String) (m : Migration) (rest : List Migration)
  | returned
deriving DecidableEq

def Phase.lockedBy : Phase → Option Nat
  | .selectApplied s | .migrating s _ _ | .executed s _ _ _ | .recorded s _ _ _ => some s
  | _ => none

structure Db where
  /-- `_migrations`, in the order of the commits. -/
  ledger : List String
  ran : List Migration := []
  /-- The ids of rows that are inserted and not committed. -/
  inserted : List String := []
deriving DecidableEq

structure World where
  db : Db
  holder : Option Nat
  idle : Nat → List Nat
  sessions : Nat
  calls : Nat → Phase

/-- What becomes of a statement; `lost` is a commit whose answer did not arrive. -/
inductive Fate where
  | done
  | failed
  | lost
deriving DecidableEq

inductive Act where
  /-- `pick` is the idle connection the pool offers, `keep` whether it takes one back. -/
  | call (i : Nat) (fate : Fate) (pick : Nat) (keep : Bool)
  | close (pool s : Nat)

def Db.commitOne (db : Db) (m : Migration) : Db :=
  ⟨db.ledger ++ [m.id], db.ran ++ [m], db.inserted.erase m.id⟩

namespace World

def goto (w : World) (i : Nat) (p : Phase) : World :=
  { w with calls := Function.update w.calls i p }

def endSession (w : World) (s : Nat) : World :=
  { w with holder := if w.holder = some s then none else w.holder }

def leave (poolOf : Nat → Nat) (w : World) (i s : Nat) (keep : Bool) : World :=
  (if keep then { w with idle := Function.update w.idle (poolOf i) (s :: w.idle (poolOf i)) }
    else w.endSession s).goto i .returned

variable (files : List Migration)

def apply (poolOf : Nat → Nat) (w : World) (i : Nat) (fate : Fate)
    (pick : Nat) (keep : Bool) : World :=
  match w.calls i with
  | .ledgerDDL => w.goto i (if fate = .done then .begin else .returned)
  | .begin =>
    if fate ≠ .done then w.goto i .returned
    else if pick ∈ w.idle (poolOf i) then
      { w with idle := Function.update w.idle (poolOf i) ((w.idle (poolOf i)).erase pick) }.goto i
        (.acquire pick)
    else { w with sessions := w.sessions + 1 }.goto i (.acquire w.sessions)
  | .acquire s =>
    if fate ≠ .done then w.leave poolOf i s keep
    else if w.holder = none ∨ w.holder = some s then
      { w with holder := some s }.goto i (.selectApplied s)
    else w
  | .selectApplied s =>
    if fate ≠ .done then w.leave poolOf i s keep else w.goto i (.migrating s w.db.ledger files)
  | .migrating s _ [] => w.leave poolOf i s keep
  | .migrating s appliedSet (m :: rest) =>
    if m.id ∈ appliedSet then w.goto i (.migrating s appliedSet rest)
    else if fate ≠ .done then w.leave poolOf i s keep
    else w.goto i (.executed s appliedSet m rest)
  | .executed s appliedSet m rest =>
    if fate ≠ .done then w.leave poolOf i s keep
    else if m.id ∈ w.db.inserted then w
    else if m.id ∈ w.db.ledger then w.leave poolOf i s keep
    else { w with db.inserted := m.id :: w.db.inserted }.goto i (.recorded s appliedSet m rest)
  | .recorded s appliedSet m rest =>
    match fate with
    | .done => { w with db := w.db.commitOne m }.goto i (.migrating s appliedSet rest)
    | .failed => { w with db.inserted := w.db.inserted.erase m.id }.leave poolOf i s keep
    | .lost => { w with db := w.db.commitOne m }.leave poolOf i s keep
  | .returned => w

def step (poolOf : Nat → Nat) (w : World) : Act → World
  | .call i fate pick keep => w.apply files poolOf i fate pick keep
  | .close pool s =>
    if s ∈ w.idle pool then
      { w with idle := Function.update w.idle pool ((w.idle pool).erase s) }.endSession s
    else w

def start (ledger : List String) : World :=
  ⟨⟨ledger, [], []⟩, none, fun _ => [], 0, fun _ => .ledgerDDL⟩

def run (poolOf : Nat → Nat) (old : List String) (acts : List Act) :
    World := acts.foldl (step files poolOf) (start old)

variable {poolOf : Nat → Nat} (w : World) (i s : Nat) (keep : Bool)

@[simp] theorem leave_db : (w.leave poolOf i s keep).db = w.db := by
  cases keep <;> rfl

@[simp] theorem leave_calls :
    (w.leave poolOf i s keep).calls = Function.update w.calls i .returned := by
  cases keep <;> rfl

end World

def Phase.ahead : Phase → Option (List String × List Migration)
  | .migrating _ appliedSet rest => some (appliedSet, rest)
  | .executed _ appliedSet m rest | .recorded _ appliedSet m rest => some (appliedSet, m :: rest)
  | _ => none

def Phase.recording : Phase → Option String
  | .recorded _ _ m _ => some m.id
  | _ => none

def Passed (files : List Migration) (ledger : List String) (p : Phase) : Prop :=
  ∀ appliedSet rest, p.ahead = some (appliedSet, rest) →
    appliedSet ⊆ ledger ∧ ∃ before, files = before ++ rest ∧ ∀ m ∈ before, m.id ∈ ledger

structure Once (files : List Migration) (old : List String) (db : Db) (calls : Nat → Phase) :
    Prop where
  booked : db.ledger = old ++ db.ran.map (·.id)
  order : db.ran <+: files.filter fun m => m.id ∉ old
  passed : ∀ i, Passed files db.ledger (calls i)
  unbooked : ∀ i id, (calls i).recording = some id → id ∉ db.ledger ∧ id ∈ db.inserted
  apart : ∀ i j id, (calls i).recording = some id → (calls j).recording = some id → i = j

section Once

open History (update_all)

variable {files : List Migration} {old : List String} {db : Db} {calls : Nat → Phase} {i : Nat}
  {p : Phase} {m : Migration}

theorem Passed.mono {ledger ledger' : List String} (passed : Passed files ledger p)
    (more : ledger ⊆ ledger') : Passed files ledger' p := by
  intro appliedSet rest here
  obtain ⟨known, before, split, booked⟩ := passed appliedSet rest here
  exact ⟨List.Subset.trans known more, before, split, fun m mem => more (booked m mem)⟩

theorem prefix_concat {α : Type} {xs front back : List α} {a : α} (pre : xs <+: front ++ a :: back)
    (distinct : (front ++ a :: back).Nodup) (inside : front ⊆ xs) (new : a ∉ xs) :
    xs ++ [a] <+: front ++ a :: back := by
  obtain ⟨more, split⟩ := pre
  have exactly : xs = front := by
    rcases List.append_eq_append_iff.mp split with ⟨tail, longer, -⟩ | ⟨tail, longer, shared⟩
    · cases tail with
      | nil => simpa using longer.symm
      | cons x tail =>
        have twice : (xs ++ x :: tail).Nodup := longer ▸ distinct.of_append_left
        have mem : x ∈ xs := inside (by simp [longer])
        exact absurd mem (fun mem => (List.nodup_append.mp twice).2.2 x mem x (by simp) rfl)
    · cases tail with
      | nil => simpa using longer
      | cons x tail =>
        cases shared
        exact absurd (by simp [longer]) new
  exact ⟨back, by simp [exactly]⟩

namespace Once

theorem apart_update (once : Once files old db calls) (quiet : p.recording = none) (j k : Nat)
    (id : String) (mine : (Function.update calls i p j).recording = some id)
    (theirs : (Function.update calls i p k).recording = some id) : j = k := by
  have running : ∀ j, (Function.update calls i p j).recording = some id →
      (calls j).recording = some id :=
    update_all (Q := fun j (p : Phase) => p.recording = some id → (calls j).recording = some id)
      (by simp [quiet]) fun _ _ here => here
  exact once.apart j k id (running j mine) (running k theirs)

theorem move (once : Once files old db calls) (quiet : p.recording = none)
    (passed : Passed files db.ledger p) : Once files old db (Function.update calls i p) where
  booked := once.booked
  order := once.order
  passed := update_all passed fun j _ => once.passed j
  unbooked := by
    apply update_all (Q := fun _ (p : Phase) => ∀ id, p.recording = some id →
      id ∉ db.ledger ∧ id ∈ db.inserted)
    · simp [quiet]
    · exact fun j _ => once.unbooked j
  apart := once.apart_update quiet

theorem record (once : Once files old db calls) (free : m.id ∉ db.inserted)
    (new : m.id ∉ db.ledger) (records : p.recording = some m.id)
    (passed : Passed files db.ledger p) :
    Once files old { db with inserted := m.id :: db.inserted } (Function.update calls i p) where
  booked := once.booked
  order := once.order
  passed := update_all passed fun j _ => once.passed j
  unbooked := by
    apply update_all (Q := fun _ (p : Phase) => ∀ id, p.recording = some id →
      id ∉ db.ledger ∧ id ∈ m.id :: db.inserted)
    · intro id here
      rw [records] at here
      cases here
      exact ⟨new, List.mem_cons_self⟩
    · intro j _ id here
      obtain ⟨unbooked, inside⟩ := once.unbooked j id here
      exact ⟨unbooked, List.mem_cons_of_mem _ inside⟩
  apart := by
    have others : ∀ j, j ≠ i → (calls j).recording ≠ some m.id :=
      fun j _ here => free (once.unbooked j m.id here).2
    intro j k id mine theirs
    by_cases first : j = i <;> by_cases second : k = i
    · rw [first, second]
    · subst first
      simp only [Function.update_self, records, Option.some.injEq] at mine
      simp only [Function.update_of_ne second] at theirs
      exact absurd (mine ▸ theirs) (others k second)
    · subst second
      simp only [Function.update_self, records, Option.some.injEq] at theirs
      simp only [Function.update_of_ne first] at mine
      exact absurd (theirs ▸ mine) (others j first)
    · simp only [Function.update_of_ne first] at mine
      simp only [Function.update_of_ne second] at theirs
      exact once.apart j k id mine theirs

theorem others_differ (once : Once files old db calls) (here : (calls i).recording = some m.id)
    {j : Nat} (other : j ≠ i) {id : String} (theirs : (calls j).recording = some id) :
    id ≠ m.id := by
  rintro rfl
  exact other (once.apart j i _ theirs here)

theorem rollback (once : Once files old db calls) (here : (calls i).recording = some m.id) :
    Once files old { db with inserted := db.inserted.erase m.id }
      (Function.update calls i .returned) where
  booked := once.booked
  order := once.order
  passed := update_all nofun fun j _ => once.passed j
  unbooked := by
    apply update_all (Q := fun _ (p : Phase) => ∀ id, p.recording = some id →
      id ∉ db.ledger ∧ id ∈ db.inserted.erase m.id)
    · exact nofun
    · intro j other id theirs
      obtain ⟨unbooked, inside⟩ := once.unbooked j id theirs
      exact ⟨unbooked, (List.mem_erase_of_ne (once.others_differ here other theirs)).mpr inside⟩
  apart := once.apart_update rfl

theorem commit (once : Once files old db calls) (distinct : (files.map (·.id)).Nodup)
    {s : Nat} {appliedSet : List String} {rest : List Migration}
    (here : calls i = .recorded s appliedSet m rest) (quiet : p.recording = none)
    (passed : Passed files (db.commitOne m).ledger p) :
    Once files old (db.commitOne m) (Function.update calls i p) where
  booked := by simp [Db.commitOne, once.booked]
  order := by
    obtain ⟨-, before, split, booked⟩ := once.passed i _ _ (by rw [here]; rfl)
    have new := (once.unbooked i m.id (by rw [here]; rfl)).1
    rw [once.booked, List.mem_append, not_or] at new
    have todo : files.filter (fun m => m.id ∉ old) =
        before.filter (fun m => m.id ∉ old) ++ m :: rest.filter (fun m => m.id ∉ old) := by
      simp [split, List.filter_append, new.1]
    have order := once.order
    rw [todo] at order ⊢
    apply prefix_concat order
    · exact todo ▸ (List.Nodup.of_map _ distinct).filter _
    · -- what was missing before `m` has run by now
      intro x mem
      obtain ⟨mem, missing⟩ := List.mem_filter.mp mem
      have known := booked x mem
      rw [once.booked, List.mem_append] at known
      obtain ⟨y, ran, same⟩ := List.mem_map.mp (known.resolve_left (by simpa using missing))
      have inside : y ∈ files := List.mem_of_mem_filter (once.order.subset ran)
      have : x ∈ files := split ▸ List.mem_append_left _ mem
      rwa [← List.inj_on_of_nodup_map distinct inside this same]
    · exact fun ran => new.2 (List.mem_map_of_mem ran)
  passed := update_all passed fun j _ => (once.passed j).mono (List.subset_append_left _ _)
  unbooked := by
    apply update_all (Q := fun _ (p : Phase) => ∀ id, p.recording = some id →
      id ∉ db.ledger ++ [m.id] ∧ id ∈ db.inserted.erase m.id)
    · simp [quiet]
    · intro j other id theirs
      obtain ⟨unbooked, inside⟩ := once.unbooked j id theirs
      have differ := once.others_differ (m := m) (by rw [here]; rfl) other theirs
      exact ⟨by simp [unbooked, differ], (List.mem_erase_of_ne differ).mpr inside⟩
  apart := once.apart_update quiet

theorem step {w : World} (once : Once files old w.db w.calls) (distinct : (files.map (·.id)).Nodup)
    (poolOf : Nat → Nat) (a : Act) :
    Once files old (w.step files poolOf a).db (w.step files poolOf a).calls := by
  cases a with
  | close pool s =>
    simp only [World.step]
    split
    · exact once
    · exact once
  | call i fate pick keep =>
    have left : ∀ s, Once files old (w.leave poolOf i s keep).db (w.leave poolOf i s keep).calls := by
      intro s
      rw [World.leave_db, World.leave_calls]
      exact once.move rfl nofun
    have passed := once.passed i
    simp only [World.step, World.apply]
    split
    · split
      · exact once.move rfl nofun
      · exact once.move rfl nofun
    · split
      · exact once.move rfl nofun
      · split
        · exact once.move rfl nofun
        · exact once.move rfl nofun
    · split
      · exact left _
      · split
        · exact once.move rfl nofun
        · exact once
    · split
      · exact left _
      · apply once.move rfl
        rintro _ _ ⟨⟩
        exact ⟨List.Subset.refl _, [], rfl, nofun⟩
    · exact left _
    · rename_i s appliedSet m rest phase
      rw [phase] at passed
      obtain ⟨known, before, files_eq, booked⟩ := passed appliedSet (m :: rest) rfl
      split
      · rename_i applied
        apply once.move rfl
        rintro _ _ ⟨⟩
        refine ⟨known, before ++ [m], by simp [files_eq], ?_⟩
        intro x mem
        rcases List.mem_append.mp mem with mem | mem
        · exact booked x mem
        · rw [List.mem_singleton.mp mem]
          exact known applied
      · split
        · exact left _
        · exact once.move rfl passed
    · rename_i s appliedSet m rest phase
      rw [phase] at passed
      split
      · exact left _
      · split
        · exact once
        · rename_i free
          split
          · exact left _
          · rename_i new
            exact once.record free new rfl passed
    · rename_i s appliedSet m rest phase
      have here : (w.calls i).recording = some m.id := by rw [phase]; rfl
      rw [phase] at passed
      cases fate with
      | done =>
        apply once.commit distinct phase rfl
        rintro _ _ ⟨⟩
        obtain ⟨known, before, files_eq, booked⟩ := passed appliedSet (m :: rest) rfl
        refine ⟨List.subset_append_of_subset_left _ known, before ++ [m], by simp [files_eq], ?_⟩
        intro x mem
        rcases List.mem_append.mp mem with mem | mem
        · exact List.mem_append_left _ (booked x mem)
        · rw [List.mem_singleton.mp mem]
          exact List.mem_append_right _ List.mem_cons_self
      | failed =>
        simp only [World.leave_db, World.leave_calls]
        exact once.rollback here
      | lost =>
        simp only [World.leave_db, World.leave_calls]
        exact once.commit distinct phase rfl nofun
    · exact once

end Once

end Once

def Released (w : World) : Prop :=
  ∀ s, w.holder = some s → ∃ i, (w.calls i).lockedBy = some s

/-- A call that ends while it has the lock has its session closed. -/
def ClosesLocked (w : World) : Act → Prop
  | .call i _ _ keep => (w.calls i).lockedBy.isSome → keep = false
  | .close _ _ => True

namespace Released

variable {w w' : World} {i : Nat} {p : Phase}

theorem move (released : Released w) (calls : w'.calls = Function.update w.calls i p)
    (holder : ∀ s, w'.holder = some s → w.holder = some s)
    (kept : ∀ s, w'.holder = some s → (w.calls i).lockedBy = some s → p.lockedBy = some s) :
    Released w' := by
  intro s held
  obtain ⟨k, locked⟩ := released s (holder s held)
  rw [calls]
  by_cases mine : k = i
  · subst mine
    exact ⟨k, by simpa using kept s held locked⟩
  · exact ⟨k, by simpa [mine] using locked⟩

theorem endSession (s s' : Nat) (held : (w.endSession s).holder = some s') :
    w.holder = some s' ∧ s' ≠ s := by
  unfold World.endSession at held
  dsimp only at held
  split at held
  · cases held
  · rename_i other
    exact ⟨held, fun same => other (same ▸ held)⟩

theorem leave (released : Released w) {poolOf : Nat → Nat} {s : Nat} {keep : Bool}
    (locked : ∀ s', (w.calls i).lockedBy = some s' → keep = false ∧ s' = s) :
    Released (w.leave poolOf i s keep) := by
  cases keep with
  | true => exact released.move rfl (fun _ held => held) fun s' _ mine => nomatch (locked s' mine).1
  | false =>
    apply released.move rfl
    · exact fun s' held => (endSession s s' held).1
    · exact fun s' held mine => absurd (locked s' mine).2 (endSession s s' held).2

theorem step (released : Released w) (files : List Migration) (poolOf : Nat → Nat) {a : Act}
    (closes : ClosesLocked w a) : Released (w.step files poolOf a) := by
  cases a with
  | close pool s =>
    simp only [World.step]
    split
    · exact fun s' held => released s' (endSession s s' held).1
    · exact released
  | call i fate pick keep =>
    have stays : ∀ p db idle sessions, p.lockedBy = (w.calls i).lockedBy → Released
        (World.goto ⟨db, w.holder, idle, sessions, w.calls⟩ i p) := by
      intro p db idle sessions same
      exact released.move rfl (fun _ held => held) fun s _ mine => same.trans mine
    have leaves : ∀ s, (w.calls i).lockedBy = some s → ∀ db, Released
        (World.leave poolOf { w with db } i s keep) := by
      intro s locked db
      have shut : keep = false := closes (by simp [locked])
      apply leave (w := { w with db }) released
      intro s' mine
      exact ⟨shut, Option.some.inj (mine.symm.trans locked)⟩
    simp only [World.step, World.apply]
    split
    · rename_i phase
      split
      · exact stays _ _ _ _ (by rw [phase]; rfl)
      · exact stays _ _ _ _ (by rw [phase]; rfl)
    · rename_i phase
      split
      · exact stays _ _ _ _ (by rw [phase]; rfl)
      · split
        · exact stays _ _ _ _ (by rw [phase]; rfl)
        · exact stays _ _ _ _ (by rw [phase]; rfl)
    · rename_i s phase
      split
      · apply released.leave
        rw [phase]
        nofun
      · split
        · intro s' held
          cases held
          exact ⟨i, by simp [World.goto, Phase.lockedBy]⟩
        · exact released
    · rename_i s phase
      split
      · exact leaves s (by rw [phase]; rfl) w.db
      · exact stays _ _ _ _ (by rw [phase]; rfl)
    · rename_i s appliedSet phase
      exact leaves s (by rw [phase]; rfl) w.db
    · rename_i s appliedSet m rest phase
      split
      · exact stays _ _ _ _ (by rw [phase]; rfl)
      · split
        · exact leaves s (by rw [phase]; rfl) w.db
        · exact stays _ _ _ _ (by rw [phase]; rfl)
    · rename_i s appliedSet m rest phase
      split
      · exact leaves s (by rw [phase]; rfl) w.db
      · split
        · exact released
        · split
          · exact leaves s (by rw [phase]; rfl) w.db
          · exact stays _ _ _ _ (by rw [phase]; rfl)
    · rename_i s appliedSet m rest phase
      cases fate with
      | done => exact stays _ _ _ _ (by rw [phase]; rfl)
      | failed => exact leaves s (by rw [phase]; rfl) _
      | lost => exact leaves s (by rw [phase]; rfl) _
    · exact released

end Released

/-- Whatever fails, every missing migration is committed at most once, in the order of the files and
with its row of the ledger.  If sessions that have the lock are closed when their call ends, nobody
holds the lock for a call that has returned. -/
theorem migrations_once (files : List Migration) (distinct : (files.map (·.id)).Nodup)
    (poolOf : Nat → Nat) (old : List String) (acts : List Act) :
    (World.run files poolOf old acts).db.ledger =
        old ++ (World.run files poolOf old acts).db.ran.map (·.id)
      ∧ (World.run files poolOf old acts).db.ran <+: files.filter (fun m => m.id ∉ old)
      ∧ (World.run files poolOf old acts).db.ran.Nodup
      ∧ (History.Along (World.step files poolOf) ClosesLocked (World.start old) acts →
        Released (World.run files poolOf old acts)) := by
  have start : Once files old (World.start old).db (World.start old).calls :=
    ⟨by simp [World.start], List.nil_prefix, nofun, nofun, nofun⟩
  have once := History.foldl_keeps (I := fun w : World => Once files old w.db w.calls)
    (P := fun _ _ => True) (fun w a once _ => once.step distinct poolOf a) start
    (History.along_of_forall fun a (_ : a ∈ acts) => trivial)
  have todo : (files.filter fun m => m.id ∉ old).Nodup := (List.Nodup.of_map _ distinct).filter _
  refine ⟨once.booked, once.order, todo.sublist once.order.sublist, fun closes => ?_⟩
  exact History.foldl_keeps (fun w a released closes => released.step files poolOf closes) nofun
    closes

def initSql : List Migration := [⟨"001_init", "CREATE TABLE users ()"⟩]

def smoothly (i n : Nat) (keep : Bool) : List Act := List.replicate n (.call i .done 0 keep)

theorem closed_session_frees_lock :
    (World.run initSql id [] (smoothly 0 8 false)).db = ⟨["001_init"], initSql, []⟩
      ∧ (World.run initSql id [] (smoothly 0 8 false)).calls 0 = .returned
      ∧ Released (World.run initSql id [] (smoothly 0 8 false)) :=
  ⟨by decide, by decide, (migrations_once initSql (by decide) id [] (smoothly 0 8 false)).2.2.2
    (by simp [smoothly, History.Along, List.replicate, ClosesLocked])⟩

/-- The first call has returned; its idle connection keeps the second one from another pool out. -/
theorem finished_call_blocks :
    (World.run initSql id [] (smoothly 0 8 true ++ smoothly 1 9 true)).calls 0 = .returned
      ∧ (World.run initSql id [] (smoothly 0 8 true ++ smoothly 1 9 true)).holder = some 0
      ∧ (World.run initSql id [] (smoothly 0 8 true ++ smoothly 1 9 true)).idle 0 = [0]
      ∧ (World.run initSql id [] (smoothly 0 8 true ++ smoothly 1 9 true)).calls 1 = .acquire 1 := by
  decide

end YunhouUsers.Migrate
