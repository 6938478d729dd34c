import Mathlib.Tactic.Linarith
import YunhouUsers.History

/-!
The visitor table of the rate limiter (`middleware/ratelimit.go`).

A map load, a map store and a token take are one step each, and no time passes, so a bucket only
loses tokens.
-/

namespace YunhouUsers.Middleware

/-- `heap` holds the tokens of the `rate.Limiter`s made so far. -/
structure RateLimiter where
  burst : Nat
  visitors : String → Option Nat
  heap : List ℚ

inductive Phase where
  | load
  | store
  | take (visitor : Nat)
  | done (allowed : Bool)
deriving DecidableEq

def RateLimiter.allow (key : String) (rl : RateLimiter) : Phase → RateLimiter × Phase
  | .load =>
    match rl.visitors key with
    | some visitor => (rl, .take visitor)
    | none => (rl, .store)
  | .store =>
    ({ rl with
        visitors := Function.update rl.visitors key (some rl.heap.length)
        heap := rl.heap ++ [(rl.burst : ℚ)] }, .take rl.heap.length)
  | .take visitor =>
    -- `limiter.Allow`
    if 1 ≤ rl.heap.getD visitor 0 then
      ({ rl with heap := rl.heap.set visitor (rl.heap.getD visitor 0 - 1) }, .done true)
    else (rl, .done false)
  | .done allowed => (rl, .done allowed)

abbrev Traffic := RateLimiter × List Phase

def turn (key : String) (t : Traffic) (i : Nat) : Traffic :=
  match t.2[i]? with
  | none => t
  | some phase => ((t.1.allow key phase).1, t.2.set i (t.1.allow key phase).2)

def allowed (t : Traffic) : Nat := t.2.count (.done true)

def serve (key : String) (rl : RateLimiter) (n : Nat) (schedule : List Nat) : Traffic :=
  schedule.foldl (turn key) (rl, List.replicate n .load)

section Published

variable {key : String} {v : Nat} {tokens : ℚ}

structure OneBucket (key : String) (v : Nat) (tokens : ℚ) (t : Traffic) : Prop where
  published : t.1.visitors key = some v
  phases : ∀ p ∈ t.2, p = .load ∨ p = .take v ∨ ∃ b, p = .done b
  left : ∃ now, t.1.heap[v]? = some now ∧ now + allowed t = tokens ∧ (0 < allowed t → 0 ≤ now)

theorem allowed_set (rl rl' : RateLimiter) {calls : List Phase} {i : Nat} {p : Phase}
    (here : calls[i]? = some p) (open_ : p ≠ .done true) (q : Phase) :
    allowed (rl', calls.set i q) = allowed (rl, calls) + if q = .done true then 1 else 0 := by
  obtain ⟨bound, rfl⟩ := List.getElem?_eq_some_iff.mp here
  simp [allowed, List.count_set bound, open_]

theorem OneBucket.turn {t : Traffic} (one : OneBucket key v tokens t) (i : Nat) :
    OneBucket key v tokens (turn key t i) := by
  obtain ⟨rl, calls⟩ := t
  obtain ⟨published, phases, now, here, sum, least⟩ := one
  unfold Middleware.turn
  dsimp only at published phases here ⊢
  cases phase : calls[i]? with
  | none => exact ⟨published, phases, now, here, sum, least⟩
  | some p =>
    have later : ∀ q, (q = .load ∨ q = .take v ∨ ∃ b, q = .done b) →
        ∀ x ∈ calls.set i q, x = .load ∨ x = .take v ∨ ∃ b, x = .done b := by
      intro q fine x mem
      rcases List.mem_or_eq_of_mem_set mem with mem | rfl
      · exact phases x mem
      · exact fine
    -- a step that neither takes a token nor is allowed
    have moves : p ≠ .done true → ∀ q, q ≠ .done true → (q = .load ∨ q = .take v ∨ ∃ b, q = .done b) →
        OneBucket key v tokens (rl, calls.set i q) := by
      intro running q refused fine
      have same := allowed_set rl rl phase running q
      rw [if_neg refused, Nat.add_zero] at same
      exact ⟨published, later q fine, now, here, by rw [same, sum], by rwa [same]⟩
    rcases phases p (List.mem_of_getElem? phase) with rfl | rfl | ⟨b, rfl⟩
    · simp only [RateLimiter.allow, published]
      exact moves (by simp) _ (by simp) (by simp)
    · have value : rl.heap.getD v 0 = now := by simp [List.getD, here]
      have bound : v < rl.heap.length := (List.getElem?_eq_some_iff.mp here).1
      simp only [RateLimiter.allow, value]
      split
      · rename_i enough
        have more := allowed_set rl { rl with heap := rl.heap.set v (now - 1) } phase (by simp)
          (.done true)
        refine ⟨published, later _ (by simp), now - 1, by simp [bound], ?_, fun _ => by linarith⟩
        rw [more, if_pos rfl]
        push_cast
        linarith
      · exact moves (by simp) _ (by simp) (by simp)
    · simp only [RateLimiter.allow]
      obtain ⟨bound, eq⟩ := List.getElem?_eq_some_iff.mp phase
      rw [← eq, List.set_getElem_self]
      exact ⟨published, phases, now, here, sum, least⟩

theorem serve_published {rl : RateLimiter} (published : rl.visitors key = some v)
    (here : rl.heap[v]? = some tokens) (within : tokens ≤ rl.burst) (n : Nat)
    (schedule : List Nat) : allowed (serve key rl n schedule) ≤ rl.burst := by
  have start : OneBucket key v tokens (rl, List.replicate n .load) := by
    have none_yet : allowed (rl, List.replicate n .load) = 0 := by
      simp [allowed, List.count_replicate]
    refine ⟨published, fun p mem => .inl (List.eq_of_mem_replicate mem), tokens, here, ?_, ?_⟩
    · simp [none_yet]
    · simp [none_yet]
  have each : History.Along (turn key) (fun _ _ => True) (rl, List.replicate n .load) schedule :=
    History.along_of_forall fun _ _ => trivial
  obtain ⟨-, -, now, -, sum, least⟩ := History.foldl_keeps (I := OneBucket key v tokens)
    (fun t i one _ => one.turn i) start each
  rcases Nat.eq_zero_or_pos (allowed (serve key rl n schedule)) with none | some
  · omega
  · have : (allowed (serve key rl n schedule) : ℚ) ≤ rl.burst := by
      have := least some
      unfold serve at *
      linarith
    exact_mod_cast this

end Published

section Cold

variable (key : String) (rl : RateLimiter)

theorem turn_at (done : List Phase) (p : Phase) (rest : List Phase) :
    turn key (rl, done ++ p :: rest) done.length =
      ((rl.allow key p).1, done ++ (rl.allow key p).2 :: rest) := by
  simp [turn]

theorem serve_loads {rl : RateLimiter} (absent : rl.visitors key = none) (k : Nat) (done : List Phase) :
    (List.range' done.length k).foldl (turn key) (rl, done ++ List.replicate k .load) =
      (rl, done ++ List.replicate k .store) := by
  induction k generalizing done with
  | zero => rfl
  | succ k ih =>
    rw [List.range'_succ, List.foldl_cons, List.replicate_succ, turn_at]
    simp only [RateLimiter.allow, absent]
    have rest := ih (done ++ [.store])
    simpa [List.replicate_succ] using rest

theorem serve_stores (some_ : 1 ≤ rl.burst) (k : Nat) (done : List Phase) :
    ∃ rl', ((List.range' done.length k).flatMap fun i => [i, i]).foldl (turn key)
      (rl, done ++ List.replicate k .store) = (rl', done ++ List.replicate k (.done true)) := by
  induction k generalizing rl done with
  | zero => exact ⟨rl, rfl⟩
  | succ k ih =>
    have one : (1 : ℚ) ≤ rl.burst := by exact_mod_cast some_
    rw [List.range'_succ, List.flatMap_cons, List.foldl_append, List.replicate_succ]
    simp only [List.foldl_cons, List.foldl_nil, turn_at, RateLimiter.allow]
    simp only [List.getD, List.getElem?_concat_length, Option.getD_some, one, if_true]
    have further : done.length + 1 = (done ++ [Phase.done true]).length := by simp
    rw [further, List.replicate_succ, List.append_cons done _ (List.replicate k .store),
      List.append_cons done _ (List.replicate k (.done true))]
    apply ih
    exact some_

end Cold

/-- However the calls for a key are interleaved at most `burst + 1` of them are allowed, if and only
if the key has a bucket already or there are no more calls than that. -/
theorem burst_bounds_iff (rl : RateLimiter) (key : String) (n : Nat) (some_ : 1 ≤ rl.burst)
    (bucket : ∀ v, rl.visitors key = some v →
      ∃ tokens, rl.heap[v]? = some tokens ∧ tokens ≤ rl.burst) :
    (∀ schedule, allowed (serve key rl n schedule) ≤ rl.burst + 1) ↔
      (rl.visitors key).isSome ∨ n ≤ rl.burst + 1 := by
  constructor
  · intro bounded
    cases published : rl.visitors key with
    | some v => exact .inl rfl
    | none =>
      have loads := serve_loads key published n []
      obtain ⟨rl', takes⟩ := serve_stores key rl some_ n []
      have most := bounded (List.range' 0 n ++ (List.range' 0 n).flatMap fun i => [i, i])
      simp only [List.length_nil, List.nil_append] at loads takes
      rw [serve, List.foldl_append, loads, takes] at most
      exact .inr (by simpa [allowed] using most)
  · rintro (published | few) schedule
    · obtain ⟨v, published⟩ := Option.isSome_iff_exists.mp published
      obtain ⟨tokens, here, within⟩ := bucket v published
      exact (serve_published published here within n schedule).trans (Nat.le_succ _)
    · have total : ∀ t : Traffic, (schedule.foldl (turn key) t).2.length = t.2.length := by
        induction schedule with
        | nil => exact fun _ => rfl
        | cons i schedule ih =>
          intro t
          rw [List.foldl_cons, ih]
          unfold turn
          cases t.2[i]? <;> simp
      have calls : (serve key rl n schedule).2.length = n := by simp [serve, total]
      exact (List.count_le_length.trans_eq calls).trans few

def emptyTable : RateLimiter := ⟨1, fun _ => none, []⟩

theorem two_first_calls_bounded :
    (∀ schedule, allowed (serve "10.0.0.1" emptyTable 2 schedule) ≤ 2) ∧
      emptyTable.visitors "10.0.0.1" = none :=
  ⟨(burst_bounds_iff emptyTable "10.0.0.1" 2 (by decide) nofun).mpr (.inr (by decide)), rfl⟩

/-- Three first calls that all find the table empty are all allowed, with a burst of one. -/
theorem three_first_calls_allowed :
    allowed (serve "10.0.0.1" emptyTable 3 [0, 1, 2, 0, 0, 1, 1, 2, 2]) = 3 := by decide +kernel

end YunhouUsers.Middleware
