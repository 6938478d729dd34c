import Mathlib.Order.Nat
import YunhouUsers.History

/-!
The catalog snapshot cache (`catalog/revision.go`), with any number of calls of `Current` at once.

A snapshot is named by the id of the revision it was parsed from.  The source never fails.
-/

namespace YunhouUsers.Inference.Catalog

structure SnapshotCache where
  current : Option Nat := none
  lastProbe : Option Int := none

def headProbeTTL : Int := 1000000000

inductive Phase where
  | start
  | cached (old : Nat)
  | probe
  | probed (headID : Nat)
  | hit (old : Nat)
  | load
  | loaded (rev : Nat)
  | absorb
  | returned (snapshot : Option Nat)
deriving DecidableEq

def Phase.carries : Phase → Option Nat
  | .cached x | .probed x | .hit x | .loaded x => some x
  | _ => none

def Phase.held : Phase → Option Nat
  | .cached x | .hit x => some x
  | _ => none

variable (parses : Nat → Bool)

/-- One atomic step of `Current`; `head` is the active revision and `now` what the clock says. -/
def SnapshotCache.step (head : Nat) (now : Int) (c : SnapshotCache) : Phase → SnapshotCache × Phase
  | .start => (c, (c.current.map .cached).getD .probe)
  | .cached old =>
    (c, if c.lastProbe.any (fun t => now - t < headProbeTTL) then .returned (some old) else .probe)
  | .probe => (c, .probed head)
  | .probed headID => (c, if c.current = some headID then .hit headID else .load)
  | .hit old => ({ c with lastProbe := some now }, .returned (some old))
  | .load => (c, .loaded head)
  | .loaded rev =>
    if parses rev then ({ c with current := some rev }, .returned (some rev)) else (c, .absorb)
  | .absorb => (c, .returned c.current)
  | .returned snapshot => (c, .returned snapshot)

inductive Event where
  | started (call : Nat)
  | returned (call revision : Nat)
deriving DecidableEq

structure World where
  cache : SnapshotCache
  head : Nat
  calls : Nat → Phase
  /-- Newest first. -/
  log : List Event

inductive Act where
  | call (i : Nat) (now : Int)
  | activate (revision : Nat)

def note (i : Nat) : Phase → Phase → List Event
  | .start, _ => [.started i]
  | .returned _, _ => []
  | _, .returned (some r) => [.returned i r]
  | _, _ => []

def World.step (w : World) : Act → World
  | .activate revision => if w.head < revision then { w with head := revision } else w
  | .call i now =>
    let (cache, phase) := w.cache.step parses w.head now (w.calls i)
    { w with
      cache
      calls := Function.update w.calls i phase
      log := note i (w.calls i) phase ++ w.log }

def World.opened (head : Nat) : World := ⟨{}, head, fun _ => .start, []⟩

/-- A call that starts after another one returned does not return an older snapshot. -/
def NeverBackwards (log : List Event) : Prop :=
  ∀ i j r r', List.Sublist [.returned j r', .started j, .returned i r] log → r ≤ r'

def StoresNewer (w : World) : Act → Prop
  | .activate _ => True
  | .call i _ =>
    match w.calls i, w.cache.current with
    | .loaded rev, some old => parses rev = true → old ≤ rev
    | _, _ => True

/-- What later calls have to return at least: every snapshot returned so far is still in the
cache, or a newer one. -/
structure Ordered (w : World) : Prop where
  active : ∀ c, w.cache.current = some c → c ≤ w.head
  carried : ∀ i x, (w.calls i).carries = some x → x ≤ w.head
  kept : ∀ i x, (w.calls i).held = some x → ∃ c, w.cache.current = some c ∧ x ≤ c
  past : ∀ i r, .returned i r ∈ w.log → ∃ c, w.cache.current = some c ∧ r ≤ c
  fresh : ∀ i, w.calls i = .start → .started i ∉ w.log
  floor : ∀ i j r x, List.Sublist [.started j, .returned i r] w.log →
    (w.calls j).carries = some x → r ≤ x
  never : NeverBackwards w.log

namespace Ordered

open History (update_all)

variable {w : World} {i : Nat} {p : Phase} {cache : SnapshotCache}

theorem past_le_head (ordered : Ordered w) {k r : Nat} (mem : .returned k r ∈ w.log) :
    r ≤ w.head := by
  obtain ⟨c, here, le⟩ := ordered.past k r mem
  exact le.trans (ordered.active c here)

theorem activate (ordered : Ordered w) {revision : Nat} (newer : w.head < revision) :
    Ordered { w with head := revision } :=
  { ordered with
    active := fun c here => (ordered.active c here).trans newer.le
    carried := fun i x here => (ordered.carried i x here).trans newer.le }

theorem move (ordered : Ordered w) (later : p ≠ .start) (same : cache.current = w.cache.current)
    (carries : ∀ x, p.carries = some x → x ≤ w.head ∧
      ∀ k r, List.Sublist [.started i, .returned k r] w.log → r ≤ x)
    (holds : ∀ x, p.held = some x → w.cache.current = some x) :
    Ordered { w with cache, calls := Function.update w.calls i p } where
  active := by
    rw [same]
    exact ordered.active
  carried := update_all (Q := fun _ (p : Phase) => ∀ x, p.carries = some x → x ≤ w.head)
    (fun x here => (carries x here).1) fun j _ => ordered.carried j
  kept := by
    rw [same]
    apply update_all (Q := fun _ (p : Phase) => ∀ x, p.held = some x →
      ∃ c, w.cache.current = some c ∧ x ≤ c)
    · exact fun x here => ⟨x, holds x here, le_rfl⟩
    · exact fun j _ => ordered.kept j
  past := by
    rw [same]
    exact ordered.past
  fresh := update_all (Q := fun j (p : Phase) => p = .start → .started j ∉ w.log)
    (fun here => absurd here later) fun j _ => ordered.fresh j
  floor := fun k => update_all (Q := fun j (p : Phase) => ∀ r x,
      List.Sublist [.started j, .returned k r] w.log → p.carries = some x → r ≤ x)
    (fun r x sub here => (carries x here).2 k r sub) fun j _ => ordered.floor k j
  never := ordered.never

theorem mark (ordered : Ordered w) (later : w.calls i ≠ .start)
    (carries : ∀ x, (w.calls i).carries = some x → w.cache.current = some x) :
    Ordered { w with log := .started i :: w.log } :=
  { ordered with
    past := fun k r mem => ordered.past k r (by simpa using mem)
    fresh := fun j here mem => by
      rcases List.mem_cons.mp mem with same | old
      · cases same
        exact later here
      · exact ordered.fresh j here old
    floor := fun k j r x sub here => by
      rcases List.sublist_cons_iff.mp sub with old | ⟨rest, same, sub⟩
      · exact ordered.floor k j r x old here
      · cases same
        obtain ⟨c, cached, le⟩ := ordered.past k r (sub.subset List.mem_cons_self)
        cases cached.symm.trans (carries x here)
        exact le
    never := fun k j r r' sub => by
      rcases List.sublist_cons_iff.mp sub with old | ⟨rest, same, -⟩
      · exact ordered.never k j r r' old
      · cases same }

theorem begin (ordered : Ordered w) (idle : w.calls i = .start) (later : p ≠ .start)
    (carries : ∀ x, p.carries = some x → w.cache.current = some x)
    (holds : ∀ x, p.held = some x → w.cache.current = some x) :
    Ordered { w with calls := Function.update w.calls i p, log := .started i :: w.log } := by
  have once := ordered.fresh i idle
  refine mark (ordered.move later rfl (fun x here => ?_) holds) (by simpa using later)
    (by simpa using carries)
  exact ⟨ordered.active x (carries x here), fun k r sub => absurd (sub.subset List.mem_cons_self) once⟩

theorem respond (ordered : Ordered w) {r : Nat}
    (grown : ∀ c, w.cache.current = some c → ∃ c', cache.current = some c' ∧ c ≤ c')
    (active : ∀ c, cache.current = some c → c ≤ w.head)
    (cached : ∃ c, cache.current = some c ∧ r ≤ c)
    (least : ∀ k s, List.Sublist [.started i, .returned k s] w.log → s ≤ r) :
    Ordered { w with
      cache
      calls := Function.update w.calls i (.returned (some r))
      log := .returned i r :: w.log } where
  active := active
  carried := update_all (Q := fun _ (p : Phase) => ∀ x, p.carries = some x → x ≤ w.head)
    nofun fun j _ => ordered.carried j
  kept := by
    apply update_all (Q := fun _ (p : Phase) => ∀ x, p.held = some x → ∃ c, cache.current = some c ∧ x ≤ c)
    · exact nofun
    · intro j _ x here
      obtain ⟨c, old, le⟩ := ordered.kept j x here
      obtain ⟨c', new, le'⟩ := grown c old
      exact ⟨c', new, le.trans le'⟩
  past := by
    intro k s mem
    rcases List.mem_cons.mp mem with new | old
    · cases new
      exact cached
    · obtain ⟨c, here, le⟩ := ordered.past k s old
      obtain ⟨c', here', le'⟩ := grown c here
      exact ⟨c', here', le.trans le'⟩
  fresh := by
    apply update_all (Q := fun j (p : Phase) => p = .start → .started j ∉ .returned i r :: w.log)
    · exact nofun
    · intro j _ here
      simpa using ordered.fresh j here
  floor := by
    intro k j s x sub here
    rcases List.sublist_cons_iff.mp sub with old | ⟨rest, same, -⟩
    · by_cases mine : j = i
      · subst mine
        simp [Phase.carries] at here
      · exact ordered.floor k j s x old (by simpa [mine] using here)
    · cases same
  never := by
    intro k j s s' sub
    rcases List.sublist_cons_iff.mp sub with old | ⟨rest, same, sub⟩
    · exact ordered.never k j s s' old
    · cases same
      exact least k s sub

theorem step (ordered : Ordered w) {parses : Nat → Bool} {a : Act} (newer : StoresNewer parses w a) :
    Ordered (w.step parses a) := by
  cases a with
  | activate revision =>
    simp only [World.step]
    split
    · rename_i later
      exact ordered.activate later
    · exact ordered
  | call i now =>
    have atHead : ∀ x, some w.head = some x → x ≤ w.head ∧
        ∀ k r, List.Sublist [.started i, .returned k r] w.log → r ≤ x := by
      rintro x ⟨⟩
      refine ⟨le_rfl, fun k r sub => ?_⟩
      exact ordered.past_le_head (k := k) (sub.subset (by simp))
    have stays : ∀ c, w.cache.current = some c → ∃ c', w.cache.current = some c' ∧ c ≤ c' :=
      fun c here => ⟨c, here, le_rfl⟩
    have floor : ∀ x, (w.calls i).carries = some x →
        ∀ k r, List.Sublist [.started i, .returned k r] w.log → r ≤ x :=
      fun x here k r sub => ordered.floor k i r x sub here
    have kept := ordered.kept i
    simp only [World.step]
    cases phase : w.calls i with
    | start =>
      simp only [SnapshotCache.step]
      cases here : w.cache.current with
      | none => exact ordered.begin phase (by simp) nofun nofun
      | some c =>
        have held : ∀ x, some c = some x → w.cache.current = some x := by
          rintro x ⟨⟩
          exact here
        exact ordered.begin phase (by simp) held held
    | cached old =>
      rw [phase] at floor kept
      simp only [SnapshotCache.step]
      split
      · exact ordered.respond stays ordered.active (kept old rfl) (floor old rfl)
      · exact ordered.move (by simp) rfl nofun nofun
    | probe => exact ordered.move (by simp [SnapshotCache.step]) rfl atHead nofun
    | probed headID =>
      rw [phase] at floor
      have active := ordered.carried i headID (by rw [phase]; rfl)
      simp only [SnapshotCache.step]
      split
      · rename_i here
        apply ordered.move (by simp) rfl
        · rintro x ⟨⟩
          exact ⟨active, floor headID rfl⟩
        · rintro x ⟨⟩
          exact here
      · exact ordered.move (by simp) rfl nofun nofun
    | hit old =>
      rw [phase] at floor kept
      exact ordered.respond stays ordered.active (kept old rfl) (floor old rfl)
    | load => exact ordered.move (by simp [SnapshotCache.step]) rfl atHead nofun
    | loaded rev =>
      rw [phase] at floor
      have active := ordered.carried i rev (by rw [phase]; rfl)
      simp only [SnapshotCache.step]
      split
      · rename_i parsed
        apply ordered.respond
        · intro c here
          simp only [StoresNewer, phase, here] at newer
          exact ⟨rev, rfl, newer parsed⟩
        · rintro c ⟨⟩
          exact active
        · exact ⟨rev, rfl, le_rfl⟩
        · exact floor rev rfl
      · exact ordered.move (by simp) rfl nofun nofun
    | absorb =>
      simp only [SnapshotCache.step]
      cases here : w.cache.current with
      | none => exact ordered.move (by simp) rfl nofun nofun
      | some c =>
        apply ordered.respond stays ordered.active ⟨c, here, le_rfl⟩
        intro k r sub
        obtain ⟨c', here', le⟩ := ordered.past k r (sub.subset (by simp))
        rw [here] at here'
        cases here'
        exact le
    | returned snapshot => exact ordered.move (by simp [SnapshotCache.step]) rfl nofun nofun

end Ordered

theorem ordered_opened (head : Nat) : Ordered (World.opened head) :=
  ⟨nofun, nofun, nofun, nofun, nofun, nofun, nofun⟩

/-- In every run that never stores a snapshot over a newer one, no call goes back behind what was
returned before it started. -/
theorem snapshots_never_backwards (head : Nat) (acts : List Act)
    (newer : History.Along (World.step parses) (StoresNewer parses) (World.opened head) acts) :
    NeverBackwards (acts.foldl (World.step parses) (World.opened head)).log :=
  (History.foldl_keeps (fun _ _ ordered newer => ordered.step newer) (ordered_opened head)
    newer).never

def calling (i : Nat) (steps : Nat) : List Act := List.replicate steps (.call i 0)

def twoCalls : List Act := calling 0 5 ++ calling 1 5

theorem two_calls_ordered :
    (twoCalls.foldl (World.step fun _ => true) (World.opened 1)).log =
      [.returned 1 1, .started 1, .returned 0 1, .started 0] ∧
    NeverBackwards (twoCalls.foldl (World.step fun _ => true) (World.opened 1)).log :=
  ⟨rfl, snapshots_never_backwards (fun _ => true) 1 twoCalls (by trivial)⟩

/-- Call 0 has loaded revision 1 and call 2 has seen it active when revision 2 is published and
call 1 returns it.  Then call 0 stores revision 1 and call 2 confirms it. -/
def slowLoader : List Act :=
  calling 0 4 ++ calling 2 2 ++ [.activate 2] ++ calling 1 5 ++ calling 0 1 ++ calling 2 2
    ++ calling 3 2

theorem slow_loader_goes_back :
    [Event.returned 3 1, .started 3, .returned 1 2].Sublist
      (slowLoader.foldl (World.step fun _ => true) (World.opened 1)).log := by decide

end YunhouUsers.Inference.Catalog
