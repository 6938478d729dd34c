import Mathlib.Data.List.Rotate
import Mathlib.Data.Finset.Sort
import YunhouUsers.Inference.Routing.Candidates
import YunhouUsers.RoundRobin

/-!
How evenly the calls for one model are spread over the accounts of a provider.

Every route to the provider moves its cursor on by one place, so a call moves it on by as many
places as it has routes to the provider.
-/

namespace YunhouUsers.Inference.Routing

open Credentials (UpstreamAccount)
open Gateway (Protocol Cause)
open RoundRobin

variable {s s' : Service} {snap : Snapshot} {needs : Needs} {fresh : Bool} {pass : Pass}
  {provider : Uuid} {modelId : String} (adapters : Protocol → Option Capabilities)

def routesTo (snap : Snapshot) (provider : Uuid) (needs : Needs) (routes : List ModelRoute) : Nat :=
  routes.countP fun route =>
    match dispatchable adapters snap needs route with
    | none => false
    | some d => d.providerId = provider

def first (provider : Uuid) (out : List Candidate) : Option Uuid :=
  (out.find? fun c => c.deployment.providerId = provider).map (·.account.id)

inductive Interlude where
  | cool (accountId : Uuid) (limit : Int)
  | invalidateAccounts (providerId : Uuid)

def Service.meanwhile (s : Service) : Interlude → Service
  | .cool accountId limit => s.cool accountId limit
  | .invalidateAccounts providerId => s.invalidateAccounts providerId

/-- What the calls visited and returned, with interludes between them. -/
inductive Answers (snap : Snapshot) (modelId : String) :
    Service → List Call → List (List Visit × List Candidate) → Prop
  | nil {s : Service} : Answers snap modelId s [] []
  | cons {s s' : Service} {call : Call} {vs : List Visit} {out : List Candidate}
      {calls : List Call} {answers : List (List Visit × List Candidate)}
      (selected : s.select snap modelId call = (s', .ok vs))
      (returned : s.candidates snap modelId call = (s', .ok out)) (events : List Interlude)
      (later : Answers snap modelId (events.foldl Service.meanwhile s') calls answers) :
      Answers snap modelId s (call :: calls) ((vs, out) :: answers)

def Offers (provider : Uuid) (ids : List Uuid) (vs : List Visit) : Prop :=
  ∀ v ∈ vs, v.deployment.providerId = provider → ∀ id, id ∈ v.accounts.map (·.id) ↔ id ∈ ids

theorem activeAccounts_kept {look : Lookup} {found : Except Cause Pool}
    (looked : s.activeAccounts provider fresh look = (s', found)) :
    s'.rr = s.rr ∧ s'.adapters = s.adapters := by
  unfold Service.activeAccounts at looked
  split at looked
  · obtain ⟨rfl, -⟩ := Prod.mk.inj looked
    exact ⟨rfl, rfl⟩
  · split at looked
    · obtain ⟨rfl, -⟩ := Prod.mk.inj looked
      exact ⟨rfl, rfl⟩
    · obtain ⟨rfl, -⟩ := Prod.mk.inj looked
      exact ⟨rfl, rfl⟩

def Service.live (s : Service) (accounts : List UpstreamAccount) (now : Int) :
    List UpstreamAccount :=
  accounts.filter fun a =>
    !(decide (a.concurrencyLimit ≤ 0) || quotaExhausted a now) && !s.cooling now a

theorem orderAccountsWithQuota_eq (accounts : List UpstreamAccount) (now : Int) :
    s.orderAccountsWithQuota provider accounts now =
      if (s.live accounts now).length ≤ 1 then
        (s.live accounts now, s)
      else
        ((s.live accounts now).rotate (s.rr provider % (s.live accounts now).length),
          { s with rr := fun q =>
              if q = provider then s.rr provider % (s.live accounts now).length + 1
              else s.rr q }) := by
  have merged : (accounts.filter fun a =>
        !(decide (a.concurrencyLimit ≤ 0) || quotaExhausted a now)).filter
      (fun a => !s.cooling now a) = s.live accounts now := by
    rw [List.filter_filter]
    apply List.filter_congr
    intro a _
    exact Bool.and_comm _ _
  simp only [Service.orderAccountsWithQuota, Service.orderAccounts, merged]

theorem orderAccountsWithQuota_perm (accounts : List UpstreamAccount) (now : Int) :
    (s.orderAccountsWithQuota provider accounts now).1.Perm (s.live accounts now) := by
  rw [orderAccountsWithQuota_eq]
  split
  · exact List.Perm.refl _
  · exact List.rotate_perm _ _

theorem orderAccountsWithQuota_kept (s : Service) (provider : Uuid)
    (accounts : List UpstreamAccount) (now : Int) :
    (s.orderAccountsWithQuota provider accounts now).2.adapters = s.adapters
      ∧ ∀ q, q ≠ provider →
        (s.orderAccountsWithQuota provider accounts now).2.rr q = s.rr q := by
  rw [orderAccountsWithQuota_eq]
  split
  · exact ⟨rfl, fun _ _ => rfl⟩
  · exact ⟨rfl, fun q other => if_neg other⟩

theorem orderAccountsWithQuota_idle {accounts : List UpstreamAccount} {now : Int}
    (none_live : (s.orderAccountsWithQuota provider accounts now).1 = []) :
    (s.orderAccountsWithQuota provider accounts now).2 = s := by
  have empty : s.live accounts now = [] := by
    have perm : (s.orderAccountsWithQuota provider accounts now).1.Perm (s.live accounts now) :=
      orderAccountsWithQuota_perm accounts now
    rw [none_live] at perm
    exact perm.nil_eq.symm
  simp [orderAccountsWithQuota_eq, empty]

variable {ids : List Uuid}

theorem live_ids (sorted : ids.Pairwise (· < ·)) (pool : Pool) (now : Int)
    (offers : ∀ id, id ∈ (s.live pool.accounts now).map (·.id) ↔ id ∈ ids) :
    (s.live pool.accounts now).map (·.id) = ids := by
  have byId : ((s.live pool.accounts now).map (·.id)).Pairwise (· < ·) :=
    List.pairwise_map.mpr (pool.byId.filter _)
  exact byId.eq_of_mem_iff sorted offers

theorem orderAccountsWithQuota_turn (sorted : ids.Pairwise (· < ·))
    (some_id : 0 < ids.length) (pool : Pool) (now : Int)
    (offers : ∀ id, id ∈ (s.orderAccountsWithQuota provider pool.accounts now).1.map (·.id)
      ↔ id ∈ ids) :
    ((s.orderAccountsWithQuota provider pool.accounts now).1.map (·.id)).head?
        = ids[s.rr provider % ids.length]?
      ∧ (s.orderAccountsWithQuota provider pool.accounts now).2.rr provider
        ≡ s.rr provider + 1 [MOD ids.length] := by
  have same := live_ids (s := s) sorted pool now fun id => by
    rw [← offers id]
    exact ((orderAccountsWithQuota_perm pool.accounts now).map _).mem_iff.symm
  have size : (s.live pool.accounts now).length = ids.length := by
    rw [← same, List.length_map]
  rw [orderAccountsWithQuota_eq]
  split
  · rename_i few
    have one : ids.length = 1 := by omega
    rw [one, Nat.mod_one, same, List.head?_eq_getElem?]
    exact ⟨rfl, Nat.modEq_one⟩
  · rename_i many
    rw [size] at many ⊢
    constructor
    · rw [List.map_rotate, same, List.head?_rotate (Nat.mod_lt _ (by omega))]
    · simp only [if_true]
      exact (Nat.mod_modEq _ _).add_right 1

variable {routes : List ModelRoute} {vs : List Visit}

theorem visits_cons {i : Nat} {route : ModelRoute}
    (ran : s.visits snap needs fresh pass i (route :: routes) = (s', .ok vs)) :
    (dispatchable s.adapters snap needs route = none
        ∧ s.visits snap needs fresh pass (i + 1) routes = (s', .ok vs))
      ∨ ∃ d pool looked rest, dispatchable s.adapters snap needs route = some d
        ∧ s.activeAccounts d.providerId fresh (pass.look i) = (looked, .ok pool)
        ∧ (looked.orderAccountsWithQuota d.providerId pool.accounts pass.now).2.visits snap needs
            fresh pass (i + 1) routes = (s', .ok rest)
        ∧ vs = ⟨route, d,
            (looked.orderAccountsWithQuota d.providerId pool.accounts pass.now).1⟩ :: rest := by
  rw [Service.visits] at ran
  split at ran
  · rename_i skipped
    exact .inl ⟨skipped, ran⟩
  · rename_i d taken
    split at ran
    · cases (Prod.mk.inj ran).2
    · rename_i looked pool found
      dsimp only at ran
      split at ran
      · cases (Prod.mk.inj ran).2
      · rename_i last rest later
        obtain ⟨rfl, same⟩ := Prod.mk.inj ran
        exact .inr ⟨d, pool, looked, rest, taken, found, later, (Except.ok.inj same).symm⟩

theorem visits_adapters {i : Nat}
    (ran : s.visits snap needs fresh pass i routes = (s', .ok vs)) : s'.adapters = s.adapters := by
  induction routes generalizing s i vs with
  | nil => rw [← (Prod.mk.inj ran).1]
  | cons route routes ih =>
    obtain ⟨-, later⟩ | ⟨d, pool, looked, rest, -, found, later, -⟩ := visits_cons ran
    · exact ih later
    · rw [ih later, (orderAccountsWithQuota_kept _ _ _ _).1, (activeAccounts_kept found).2]

theorem visits_idle {i : Nat} (ran : s.visits snap needs fresh pass i routes = (s', .ok vs))
    (empty : vs.flatMap Visit.candidates = []) : s'.rr = s.rr := by
  induction routes generalizing s i vs with
  | nil => rw [← (Prod.mk.inj ran).1]
  | cons route routes ih =>
    obtain ⟨-, later⟩ | ⟨d, pool, looked, rest, -, found, later, rfl⟩ := visits_cons ran
    · exact ih later empty
    · simp only [List.flatMap_cons, List.append_eq_nil_iff, Visit.candidates,
        List.map_eq_nil_iff] at empty
      rw [ih later empty.2, orderAccountsWithQuota_idle empty.1, (activeAccounts_kept found).1]

theorem first_here {v : Visit} (here : v.deployment.providerId = provider)
    (some_account : v.accounts ≠ []) :
    first provider ((v :: vs).flatMap Visit.candidates) = (v.accounts.map (·.id)).head? := by
  obtain ⟨a, rest, split⟩ := List.exists_cons_of_ne_nil some_account
  simp [first, Visit.candidates, split, here]

theorem first_elsewhere {v : Visit} (other : v.deployment.providerId ≠ provider) :
    first provider ((v :: vs).flatMap Visit.candidates)
      = first provider (vs.flatMap Visit.candidates) := by
  have skipped : v.candidates.find? (·.deployment.providerId = provider) = none := by
    simp [Visit.candidates, other]
  rw [first, List.flatMap_cons, List.find?_append, skipped, Option.none_or, first]

theorem routesTo_cons (route : ModelRoute) (routes : List ModelRoute) :
    routesTo adapters snap provider needs (route :: routes)
      = routesTo adapters snap provider needs routes
        + match dispatchable adapters snap needs route with
          | none => 0
          | some d => if d.providerId = provider then 1 else 0 := by
  rw [routesTo, List.countP_cons]
  cases dispatchable adapters snap needs route with
  | none => rfl
  | some d => simp [routesTo]

theorem visits_turns (sorted : ids.Pairwise (· < ·)) (some_id : 0 < ids.length) {i : Nat}
    (ran : s.visits snap needs fresh pass i routes = (s', .ok vs))
    (offers : Offers provider ids vs) :
    s'.rr provider ≡ s.rr provider + routesTo s.adapters snap provider needs routes
        [MOD ids.length]
      ∧ (0 < routesTo s.adapters snap provider needs routes →
        first provider (vs.flatMap Visit.candidates) = ids[s.rr provider % ids.length]?) := by
  induction routes generalizing s i vs with
  | nil =>
    rw [← (Prod.mk.inj ran).1]
    exact ⟨Nat.ModEq.refl _, fun positive => absurd positive (Nat.lt_irrefl 0)⟩
  | cons route routes ih =>
    rw [routesTo_cons]
    obtain ⟨skipped, later⟩ | ⟨d, pool, looked, rest, taken, found, later, rfl⟩ := visits_cons ran
    · rw [skipped]
      exact ih later offers
    · rw [taken]
      have cursors := (activeAccounts_kept found).1
      have kept := orderAccountsWithQuota_kept looked d.providerId pool.accounts pass.now
      have tail := ih later fun v mem => offers v (List.mem_cons_of_mem _ mem)
      rw [kept.1, (activeAccounts_kept found).2] at tail
      by_cases here : d.providerId = provider
      · -- the account under the cursor comes first, whatever the later routes find
        subst here
        have offered := offers _ List.mem_cons_self rfl
        obtain ⟨head, moved⟩ := orderAccountsWithQuota_turn sorted some_id pool pass.now offered
        rw [cursors] at head moved
        constructor
        · simp only [if_true]
          calc s'.rr d.providerId
              ≡ _ + routesTo s.adapters snap d.providerId needs routes [MOD ids.length] := tail.1
            _ ≡ s.rr d.providerId + 1 + routesTo s.adapters snap d.providerId needs routes
                [MOD ids.length] := moved.add_right _
            _ = s.rr d.providerId + (routesTo s.adapters snap d.providerId needs routes + 1) := by
                omega
        · intro _
          rw [first_here (v := ⟨route, d, _⟩) rfl, head]
          intro none_offered
          rw [none_offered] at offered
          obtain ⟨id, rest, rfl⟩ := List.exists_cons_of_length_pos some_id
          simpa using (offered id).mpr List.mem_cons_self
      · rw [kept.2 provider (fun same => here same.symm), cursors] at tail
        rw [first_elsewhere (v := ⟨route, d, _⟩) here]
        simp only [if_neg here]
        exact tail

theorem invalidateAccounts_kept (providers : List Uuid) :
    (providers.foldl Service.invalidateAccounts s).rr = s.rr
      ∧ (providers.foldl Service.invalidateAccounts s).adapters = s.adapters := by
  induction providers generalizing s with
  | nil => exact ⟨rfl, rfl⟩
  | cons provider providers ih => exact ih

theorem meanwhile_kept (events : List Interlude) :
    (events.foldl Service.meanwhile s).rr = s.rr
      ∧ (events.foldl Service.meanwhile s).adapters = s.adapters := by
  induction events generalizing s with
  | nil => exact ⟨rfl, rfl⟩
  | cons event events ih =>
    rw [List.foldl_cons, ih.1, ih.2]
    cases event with
    | cool accountId limit => exact ⟨rfl, rfl⟩
    | invalidateAccounts providerId => exact ⟨rfl, rfl⟩

def Call.routesTo (snap : Snapshot) (modelId : String) (provider : Uuid) (call : Call) : Nat :=
  Routing.routesTo adapters snap provider call.needs (snap.routesByModel modelId)

theorem select_turns (sorted : ids.Pairwise (· < ·)) (some_id : 0 < ids.length)
    {call : Call} (selected : s.select snap modelId call = (s', .ok vs))
    (offers : Offers provider ids vs) :
    s'.adapters = s.adapters
      ∧ s'.rr provider ≡ s.rr provider + call.routesTo s.adapters snap modelId provider
          [MOD ids.length]
      ∧ (0 < call.routesTo s.adapters snap modelId provider →
        first provider (vs.flatMap Visit.candidates) = ids[s.rr provider % ids.length]?) := by
  unfold Service.select at selected
  split at selected
  · cases (Prod.mk.inj selected).2
  · rename_i s₁ vs₁ ran
    split at selected
    · obtain ⟨rfl, same⟩ := Prod.mk.inj selected
      cases same
      exact ⟨visits_adapters ran, visits_turns sorted some_id ran offers⟩
    · -- the first pass found no account at all, so it moved no cursor
      rename_i nothing
      simp only [Bool.or_eq_true, Bool.not_eq_true', List.isEmpty_eq_false_iff, not_or,
        not_not] at nothing
      have invalidated := invalidateAccounts_kept (s := s₁) (vs₁.map (·.deployment.providerId))
      have adapters := invalidated.2.trans (visits_adapters ran)
      have cursors := invalidated.1.trans (visits_idle ran nothing.1)
      have turns := visits_turns sorted some_id selected offers
      rw [adapters, cursors] at turns
      exact ⟨(visits_adapters selected).trans adapters, turns⟩

theorem candidates_select {call : Call} {out : List Candidate}
    (selected : s.select snap modelId call = (s', .ok vs))
    (returned : s.candidates snap modelId call = (s', .ok out)) :
    out = vs.flatMap Visit.candidates := by
  rw [Service.candidates, selected] at returned
  exact (Except.ok.inj (Prod.mk.inj returned).2).symm

theorem Answers.picks (sorted : ids.Pairwise (· < ·)) (some_id : 0 < ids.length)
    {calls : List Call} {answers : List (List Visit × List Candidate)}
    (answered : Answers snap modelId s calls answers)
    (routed : ∀ call ∈ calls, 0 < call.routesTo s.adapters snap modelId provider)
    (unchanged : ∀ answer ∈ answers, Offers provider ids answer.1) :
    answers.map (fun answer => first provider answer.2)
      = picks ids (places (s.rr provider)
          (calls.map (Call.routesTo s.adapters snap modelId provider))) := by
  induction answered with
  | nil => rfl
  | cons selected returned events later ih =>
    obtain ⟨adapters, moved, head⟩ :=
      select_turns sorted some_id selected (unchanged _ List.mem_cons_self)
    rw [(meanwhile_kept events).1, (meanwhile_kept events).2, adapters] at ih
    rw [List.map_cons, List.map_cons, places_cons, candidates_select selected returned,
      head (routed _ List.mem_cons_self),
      ih (fun call mem => routed call (List.mem_cons_of_mem _ mem))
        (fun answer mem => unchanged answer (List.mem_cons_of_mem _ mem)),
      picks_congr ids moved]
    rfl

/-- Where the calls of a round have the same needs, they walk the cursor evenly if and only if the
number of their routes to the provider has no factor in common with the number of accounts. -/
theorem evenly_of_same_needs {adapters : Protocol → Option Capabilities} {calls : List Call}
    (some_call : 0 < calls.length) (same : ∀ call ∈ calls, call.needs = needs) :
    Evenly (calls.map (Call.routesTo adapters snap modelId provider))
      ↔ Nat.Coprime (routesTo adapters snap provider needs (snap.routesByModel modelId))
          calls.length := by
  rw [← evenly_replicate _ _ some_call]
  have moves : calls.map (Call.routesTo adapters snap modelId provider)
      = List.replicate calls.length
          (routesTo adapters snap provider needs (snap.routesByModel modelId)) := by
    apply List.eq_replicate_iff.mpr
    constructor
    · exact List.length_map _
    · intro k mem
      obtain ⟨call, here, rfl⟩ := List.mem_map.mp mem
      rw [Call.routesTo, same call here]
  rw [moves]

/-- A round of calls gives every eligible account of a provider the first place once, if and only
if the routes of its calls to the provider walk the cursor evenly over the accounts. -/
theorem round_robin_fair_iff (provider : Uuid) {eligible : Finset Uuid} {calls : List Call}
    {answers : List (List Visit × List Candidate)}
    (answered : Answers snap modelId s calls answers) (round : calls.length = eligible.card)
    (routed : ∀ call ∈ calls, 0 < call.routesTo s.adapters snap modelId provider)
    (unchanged : ∀ answer ∈ answers, ∀ v ∈ answer.1, v.deployment.providerId = provider →
      ∀ id, id ∈ v.accounts.map (·.id) ↔ id ∈ eligible) :
    (∀ id ∈ eligible, (answers.map fun answer => first provider answer.2).count (some id) = 1)
      ↔ Evenly (calls.map (Call.routesTo s.adapters snap modelId provider)) := by
  rcases Finset.eq_empty_or_nonempty eligible with rfl | nonempty
  · have none_at_all : calls = [] := List.eq_nil_of_length_eq_zero round
    subst none_at_all
    simp [Evenly]
  · have sorted : (eligible.sort (· ≤ ·)).Pairwise (· < ·) :=
      (Finset.sortedLT_sort eligible).pairwise
    have size : (eligible.sort (· ≤ ·)).length = eligible.card := Finset.length_sort _
    have some_id : 0 < (eligible.sort (· ≤ ·)).length := by
      rw [size]
      exact nonempty.card_pos
    have offers : ∀ answer ∈ answers, Offers provider (eligible.sort (· ≤ ·)) answer.1 := by
      intro answer mem v visited here id
      rw [unchanged answer mem v visited here id, Finset.mem_sort]
    have turns : (calls.map (Call.routesTo s.adapters snap modelId provider)).length
        = (eligible.sort (· ≤ ·)).length := by
      rw [List.length_map, round, size]
    rw [answered.picks sorted some_id routed offers,
      ← each_once_iff (sorted.imp ne_of_lt) turns (s.rr provider)]
    simp only [Finset.mem_sort]

def twins : Pool where
  accounts := [1, 2].map fun id =>
    { id, providerId := 7, credentialId := 5, externalAccountId := "", displayName := "",
      status := .active, concurrencyLimit := 1, quota := {} }
  byId := by decide

def fanned (n : Nat) : Snapshot where
  routesByModel _ := (List.range n).map fun i => ⟨i, 3, true, []⟩
  deployments id := if id = 3 then some ⟨3, 7, .openaiChat, true⟩ else none

def restarted : Service where
  adapters _ := some ⟨true, true⟩
  cooled _ := none
  rr _ := 0
  acctCache _ := none

def plainCall : Call where
  needs := ⟨false, false⟩
  pass := ⟨0, fun _ => ⟨0, fun _ => .ok twins⟩⟩
  retry := ⟨0, fun _ => ⟨0, fun _ => .ok twins⟩⟩

def answersOf (snap : Snapshot) : Service → Nat → List (List Visit × List Candidate)
  | _, 0 => []
  | s, calls + 1 =>
    match s.select snap "m" plainCall, s.candidates snap "m" plainCall with
    | (s, .ok vs), (_, .ok out) => (vs, out) :: answersOf snap s calls
    | _, _ => []

theorem fair_with_one_route :
    ((answersOf (fanned 1) restarted 2).map fun answer => first 7 answer.2).count (some 1) = 1
    ∧ ((answersOf (fanned 1) restarted 2).map fun answer => first 7 answer.2).count (some 2) = 1 := by
  have answered : Answers (fanned 1) "m" restarted [plainCall, plainCall]
      (answersOf (fanned 1) restarted 2) := .cons rfl rfl [] (.cons rfl rfl [] .nil)
  have offered : ∀ answer ∈ answersOf (fanned 1) restarted 2, ∀ v ∈ answer.1,
      v.accounts.map (·.id) = [1, 2] ∨ v.accounts.map (·.id) = [2, 1] := by decide
  have unchanged : ∀ answer ∈ answersOf (fanned 1) restarted 2, ∀ v ∈ answer.1,
      v.deployment.providerId = 7 → ∀ id, id ∈ v.accounts.map (·.id) ↔ id ∈ ({1, 2} : Finset Uuid) := by
    intro answer mem v visited _ id
    rcases offered answer mem v visited with same | same
    · simp [same]
    · simp [same, or_comm]
  have fair := (round_robin_fair_iff 7 answered rfl (by decide) unchanged).mpr (by decide)
  exact ⟨fair 1 (by simp), fair 2 (by simp)⟩

/-- With two routes to the provider every call starts with the same one of its two accounts. -/
theorem twins_never_rotate :
    Answers (fanned 2) "m" restarted [plainCall, plainCall] (answersOf (fanned 2) restarted 2)
      ∧ (∀ answer ∈ answersOf (fanned 2) restarted 2, ∀ v ∈ answer.1,
        v.deployment.providerId = 7 ∧ v.accounts.map (·.id) ∈ [[1, 2], [2, 1]])
      ∧ (answersOf (fanned 2) restarted 2).map (fun answer => first 7 answer.2)
        = [some 1, some 1] := by
  exact ⟨.cons rfl rfl [] (.cons rfl rfl [] .nil), by decide, by decide⟩

end YunhouUsers.Inference.Routing
