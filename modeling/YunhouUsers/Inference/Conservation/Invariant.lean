import YunhouUsers.Inference.Postgres.Effects.Correction

/-!
What the quota tables keep over whole histories of calls.

Three layers, from the bottom: `Linked` says which reservation belongs to which request and
window, `Booked` what the ledger says of each request, and `Balanced` that the aggregates are
the sums of both.
-/

namespace YunhouUsers.Inference.Postgres

open ReadCommitted Table Accounting

structure RequestLink where
  id : Uuid
  windowIds : List Uuid
  apiKeyId : Option Uuid
deriving DecidableEq

def link (q : Request) : RequestLink := ⟨q.id, q.windowIds, q.apiKeyId⟩

def target (r : Reservation) : Reservation := { r with state := .held }

structure Linked (links : List RequestLink) (targets : List Reservation) : Prop where
  requestIds : (links.map (·.id)).Nodup
  ids : (targets.map (·.id)).Nodup
  kinds : (targets.map (fun r => (r.requestId, r.targetKind))).Nodup
  wellFormed : ∀ r ∈ targets, targetRefsOk r = true ∧ 0 ≤ r.amount
  owner : ∀ r ∈ targets, ∃ q ∈ links, q.id = r.requestId
  windows : ∀ q ∈ links, ∀ w, w ∈ q.windowIds ↔
    ∃ r ∈ targets, r.requestId = q.id ∧ r.windowId = some w
  key : ∀ q ∈ links, ∀ k, q.apiKeyId = some k ↔
    ∃ r ∈ targets, r.requestId = q.id ∧ r.apiKeyId = some k
  columns : ∀ q ∈ links, q.windowIds.Nodup
  once : ∀ r ∈ targets, ∀ r' ∈ targets, r.requestId = r'.requestId →
    ∀ w, r.windowId = some w → r'.windowId = some w → r.id = r'.id

def isFinal (q : Request) : Bool := q.status = .settled || q.status = .released

def settledAmount (q : Request) : Int :=
  if q.status = .settled then q.settledMicros.getD 0 else 0

def isChargeOf (id : Uuid) (e : LedgerEntry) : Bool :=
  e.requestId = some id && e.entryType = .charge

structure Db.Booked (db : Db) : Prop where
  net : ∀ q ∈ db.requests, db.requestNet q.id = settledAmount q
  priced : ∀ q ∈ db.requests, q.status = .settled →
    q.chargeSource = .plan ∧ ∃ m, q.settledMicros = some m ∧ 0 ≤ m
  entries : ∀ e ∈ db.ledger, ∃ q ∈ db.requests, e.requestId = some q.id ∧ q.status = .settled
  adjusted : ∀ e ∈ db.ledger, ∀ a, e.adjustmentId = some a → ∃ x ∈ db.adjustments, x.id = a
  charges : ∀ id, (db.ledger.filter (isChargeOf id)).length ≤ 1

def heldOn (column : Reservation → Option Uuid) (id : Uuid) (r : Reservation) : Int :=
  if r.state = .held then onRow (column r) r.amount id else 0

def heldOnWindow : Uuid → Reservation → Int := heldOn (·.windowId)

def heldOnKey : Uuid → Reservation → Int := heldOn (·.apiKeyId)

def settledOnWindow (id : Uuid) (q : Request) : Int :=
  if id ∈ q.windowIds then settledAmount q else 0

def settledOnKey (id : Uuid) (q : Request) : Int :=
  if q.apiKeyId = some id then settledAmount q else 0

/-- The stored aggregates are sums over reservations and settled requests. -/
structure Db.Balanced (db : Db) : Prop where
  reserved : ∀ w ∈ db.windows, w.reserved = total (heldOnWindow w.id) db.reservations
  used : ∀ w ∈ db.windows, w.used = total (settledOnWindow w.id) db.requests
  budget : ∀ k ∈ db.apiKeys, k.budgetUsed =
    total (heldOnKey k.id) db.reservations + total (settledOnKey k.id) db.requests

structure Db.Conserved (db : Db) : Prop where
  unique : db.KeysUnique
  linked : Linked (db.requests.map link) (db.reservations.map target)
  known : ∀ r ∈ db.reservations, ∀ w, r.windowId = some w → w ∈ db.windows.map (·.id)
  held : ∀ q ∈ db.requests, ∀ r ∈ db.reservations, r.requestId = q.id →
    (r.state = .held ↔ isFinal q = false)
  booked : db.Booked
  balanced : db.Balanced
  noHolds : db.walletHolds = []

/-! Reading the links off the tables. -/

namespace Db.Conserved

variable {db : Db} (c : db.Conserved)
include c

theorem requestIds : (db.requests.map (·.id)).Nodup := by
  simpa [Function.comp_def, link] using c.linked.requestIds

theorem reservationIds : (db.reservations.map (·.id)).Nodup := by
  simpa [Function.comp_def, target] using c.linked.ids

theorem reservationKinds :
    (db.reservations.map (fun r => (r.requestId, r.targetKind))).Nodup := by
  simpa [Function.comp_def, target] using c.linked.kinds

theorem reservationsUnique : db.ReservationsUnique := ⟨c.reservationIds, c.reservationKinds⟩

theorem refsOk : ∀ r ∈ db.reservations, targetRefsOk r = true := by
  intro r mem
  exact (c.linked.wellFormed (target r) (List.mem_map_of_mem mem)).1

theorem amount_nonneg : ∀ r ∈ db.reservations, 0 ≤ r.amount := by
  intro r mem
  exact (c.linked.wellFormed (target r) (List.mem_map_of_mem mem)).2

theorem mem_windowIds {q : Request} (mem : q ∈ db.requests) (w : Uuid) :
    w ∈ q.windowIds ↔ ∃ r ∈ db.reservations, r.requestId = q.id ∧ r.windowId = some w := by
  have h := c.linked.windows (link q) (List.mem_map_of_mem mem) w
  simpa only [link, target, List.mem_map, exists_exists_and_eq_and] using h

theorem apiKeyId_eq {q : Request} (mem : q ∈ db.requests) (k : Uuid) :
    q.apiKeyId = some k ↔
      ∃ r ∈ db.reservations, r.requestId = q.id ∧ r.apiKeyId = some k := by
  have h := c.linked.key (link q) (List.mem_map_of_mem mem) k
  simpa only [link, target, List.mem_map, exists_exists_and_eq_and] using h

theorem windowIds_nodup {q : Request} (mem : q ∈ db.requests) : q.windowIds.Nodup :=
  c.linked.columns (link q) (List.mem_map_of_mem mem)

theorem eq_of_window {r r' : Reservation} (mem : r ∈ db.reservations)
    (mem' : r' ∈ db.reservations) (same : r.requestId = r'.requestId) {w : Uuid}
    (bound : r.windowId = some w) (bound' : r'.windowId = some w) : r = r' :=
  eq_of_key c.reservationIds mem mem'
    (c.linked.once (target r) (List.mem_map_of_mem mem) (target r') (List.mem_map_of_mem mem')
      same w bound bound')

theorem eq_of_apiKey {r r' : Reservation} (mem : r ∈ db.reservations)
    (mem' : r' ∈ db.reservations) (same : r.requestId = r'.requestId) {k : Uuid}
    (bound : r.apiKeyId = some k) (bound' : r'.apiKeyId = some k) : r = r' := by
  -- only a key budget names a key, and a request has one reservation of each kind
  have kind : ∀ x ∈ db.reservations, x.apiKeyId = some k → x.targetKind = .keyBudget := by
    intro x memx boundx
    have ok := c.refsOk x memx
    unfold targetRefsOk at ok
    split at ok <;> simp_all
  refine eq_of_key c.reservationKinds mem mem' ?_
  rw [same, kind r mem bound, kind r' mem' bound']

theorem settledAmount_nonneg : ∀ q ∈ db.requests, 0 ≤ settledAmount q := by
  intro q mem
  unfold settledAmount
  split
  · rename_i settled
    obtain ⟨_, m, set, nonneg⟩ := c.booked.priced q mem settled
    simpa [set] using nonneg
  · exact le_rfl

end Db.Conserved

end YunhouUsers.Inference.Postgres
