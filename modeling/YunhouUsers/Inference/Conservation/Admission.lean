import YunhouUsers.Inference.Conservation.Steps

/-!
Admissions keep the invariant, when the holds are shaped the way the quota service builds them.
-/

namespace YunhouUsers.Inference.Postgres

open ReadCommitted Table Accounting

def windowColumn (q : Request) : WindowKind → Option Uuid
  | .fiveHour => q.windowFiveHourId
  | .weekly => q.windowWeeklyId
  | .monthly => q.windowMonthlyId

/-- What `quota.Service.admitOnce` hands to `Reserve`: one window a kind, window columns left
to the holds, and a key hold exactly for the key of the request.  `Reserve` itself checks none
of it. -/
structure ReserveCommand.Shaped (cmd : ReserveCommand) : Prop where
  windows : ∀ h ∈ cmd.holds, ∀ h' ∈ cmd.holds, ∀ w, h.windowId = some w → h'.windowId = some w →
    h.targetKind = h'.targetKind
  columns : ∀ kind w, windowColumn cmd.request kind = some w →
    ∃ h ∈ cmd.holds, windowKindOfTarget h.targetKind = some kind
  key : ∀ k, cmd.request.apiKeyId = some k ↔ ∃ h ∈ cmd.holds, h.apiKeyId = some k

theorem mem_windowIds_iff (q : Request) (w : Uuid) :
    w ∈ q.windowIds ↔ ∃ kind, windowColumn q kind = some w := by
  simp only [Request.windowIds, List.mem_filterMap, List.mem_cons, List.not_mem_nil, or_false]
  constructor
  · rintro ⟨_, rfl | rfl | rfl, set⟩
    · exact ⟨.fiveHour, set⟩
    · exact ⟨.weekly, set⟩
    · exact ⟨.monthly, set⟩
  · rintro ⟨kind, set⟩
    cases kind
    · exact ⟨_, .inl rfl, set⟩
    · exact ⟨_, .inr (.inl rfl), set⟩
    · exact ⟨_, .inr (.inr rfl), set⟩

theorem windowIds_nodup {q : Request}
    (distinct : ∀ kind kind' w, windowColumn q kind = some w → windowColumn q kind' = some w →
      kind = kind') : q.windowIds.Nodup := by
  have five_week := distinct .weekly .fiveHour
  have five_month := distinct .monthly .fiveHour
  have week_month := distinct .monthly .weekly
  simp only [windowColumn] at five_week five_month week_month
  cases five : q.windowFiveHourId <;> cases week : q.windowWeeklyId <;>
    cases month : q.windowMonthlyId <;> simp_all [Request.windowIds]

theorem windowColumn_bindWindow (q : Request) (h : HoldSpec) (kind : WindowKind) :
    windowColumn (bindWindow q h) kind =
      if windowKindOfTarget h.targetKind = some kind then h.windowId
      else windowColumn q kind := by
  cases target : h.targetKind <;> cases kind <;>
    simp [bindWindow, windowKindOfTarget, windowColumn, target]

theorem windowKindOfTarget_inj {k k' : TargetKind} {kind : WindowKind}
    (h : windowKindOfTarget k = some kind) (h' : windowKindOfTarget k' = some kind) : k = k' := by
  cases k <;> cases k' <;> cases kind <;> simp_all [windowKindOfTarget]

theorem windowColumn_foldl {holds : List HoldSpec}
    (distinct : (holds.map (·.targetKind)).Nodup) (q : Request) (kind : WindowKind)
    (w : Uuid) :
    windowColumn (holds.foldl bindWindow q) kind = some w ↔
      (∃ h ∈ holds, windowKindOfTarget h.targetKind = some kind ∧ h.windowId = some w) ∨
        ((∀ h ∈ holds, windowKindOfTarget h.targetKind ≠ some kind) ∧
          windowColumn q kind = some w) := by
  induction holds generalizing q with
  | nil => simp
  | cons h holds ih =>
    rw [List.map_cons, List.nodup_cons] at distinct
    rw [List.foldl_cons, ih distinct.2, windowColumn_bindWindow]
    by_cases mine : windowKindOfTarget h.targetKind = some kind
    · have others : ∀ x ∈ holds, windowKindOfTarget x.targetKind ≠ some kind := by
        intro x mem same
        exact distinct.1 (windowKindOfTarget_inj mine same ▸ List.mem_map_of_mem mem)
      simp only [mine, if_true, List.mem_cons, exists_eq_or_imp, forall_eq_or_imp, ne_eq,
        not_true_eq_false, false_and, or_false, true_and]
      constructor
      · rintro (⟨x, mem, same, _⟩ | ⟨_, set⟩)
        · exact absurd same (others x mem)
        · exact .inl set
      · rintro (set | ⟨x, mem, same, _⟩)
        · exact .inr ⟨others, set⟩
        · exact absurd same (others x mem)
    · simp [mine]

theorem Linked.admitHold {links : List RequestLink} {targets rows : List Reservation} {q : RequestLink}
    (l : Linked links targets) (fresh : ∀ x ∈ links, x.id ≠ q.id)
    (ids : ((targets ++ rows).map (·.id)).Nodup)
    (kinds : ((targets ++ rows).map (fun r => (r.requestId, r.targetKind))).Nodup)
    (own : ∀ r ∈ rows, r.requestId = q.id)
    (wellFormed : ∀ r ∈ rows, targetRefsOk r = true ∧ 0 ≤ r.amount)
    (windows : ∀ w, w ∈ q.windowIds ↔ ∃ r ∈ rows, r.windowId = some w)
    (key : ∀ k, q.apiKeyId = some k ↔ ∃ r ∈ rows, r.apiKeyId = some k)
    (columns : q.windowIds.Nodup)
    (once : ∀ r ∈ rows, ∀ r' ∈ rows, ∀ w, r.windowId = some w → r'.windowId = some w →
      r.id = r'.id) : Linked (links ++ [q]) (targets ++ rows) := by
  have old : ∀ r ∈ targets, r.requestId ≠ q.id := by
    intro r mem same
    obtain ⟨x, memx, ofx⟩ := l.owner r mem
    exact fresh x memx (ofx.trans same)
  have exists_old : ∀ x ∈ links, ∀ p : Reservation → Prop,
      (∃ r ∈ targets ++ rows, r.requestId = x.id ∧ p r) ↔
        ∃ r ∈ targets, r.requestId = x.id ∧ p r := by
    intro x memx p
    constructor
    · rintro ⟨r, mem, ofx, hp⟩
      rcases List.mem_append.mp mem with mem | mem
      · exact ⟨r, mem, ofx, hp⟩
      · exact absurd (ofx.symm.trans (own r mem)) (fresh x memx)
    · rintro ⟨r, mem, rest⟩
      exact ⟨r, List.mem_append_left _ mem, rest⟩
  have exists_new : ∀ p : Reservation → Prop,
      (∃ r ∈ targets ++ rows, r.requestId = q.id ∧ p r) ↔ ∃ r ∈ rows, p r := by
    intro p
    constructor
    · rintro ⟨r, mem, ofq, hp⟩
      rcases List.mem_append.mp mem with mem | mem
      · exact absurd ofq (old r mem)
      · exact ⟨r, mem, hp⟩
    · rintro ⟨r, mem, hp⟩
      exact ⟨r, List.mem_append_right _ mem, own r mem, hp⟩
  refine ⟨nodup_concat l.requestIds fresh, ids, kinds, ?_, ?_, ?_, ?_, ?_, ?_⟩
  · intro r mem
    exact (List.mem_append.mp mem).elim (l.wellFormed r) (wellFormed r)
  · intro r mem
    rcases List.mem_append.mp mem with mem | mem
    · obtain ⟨x, memx, ofx⟩ := l.owner r mem
      exact ⟨x, List.mem_append_left _ memx, ofx⟩
    · exact ⟨q, by simp, (own r mem).symm⟩
  · intro x memx w
    rcases List.mem_append.mp memx with memx | memx
    · rw [exists_old x memx, l.windows x memx]
    · rw [List.mem_singleton.mp memx, exists_new, windows]
  · intro x memx k
    rcases List.mem_append.mp memx with memx | memx
    · rw [exists_old x memx, l.key x memx]
    · rw [List.mem_singleton.mp memx, exists_new, key]
  · exact Table.forall_mem_concat l.columns columns
  · intro r mem r' mem' same w bound bound'
    rcases List.mem_append.mp mem with mem | mem <;>
      rcases List.mem_append.mp mem' with mem' | mem'
    · exact l.once r mem r' mem' same w bound bound'
    · exact absurd (same.trans (own r' mem')) (old r mem)
    · exact absurd (same.symm.trans (own r mem)) (old r' mem')
    · exact once r mem r' mem' w bound bound'

theorem mem_sortHolds {holds : List HoldSpec} {h : HoldSpec} : h ∈ sortHolds holds ↔ h ∈ holds :=
  (List.perm_insertionSort _ holds).mem_iff

theorem foldl_bindWindow (holds : List HoldSpec) (q : Request) :
    ∃ five week month, holds.foldl bindWindow q = { q with
      windowFiveHourId := five, windowWeeklyId := week, windowMonthlyId := month } := by
  induction holds generalizing q with
  | nil => exact ⟨q.windowFiveHourId, q.windowWeeklyId, q.windowMonthlyId, rfl⟩
  | cons h holds ih =>
    obtain ⟨five, week, month, rest⟩ := ih (bindWindow q h)
    refine ⟨five, week, month, ?_⟩
    rw [List.foldl_cons, rest]
    unfold bindWindow
    split <;> rfl

section Admitted

variable {cmd : ReserveCommand} {p : HoldProgress}

theorem admittedRequest_fields (cmd : ReserveCommand) (p : HoldProgress) :
    (admittedRequest cmd p).id = cmd.request.id ∧
      (admittedRequest cmd p).apiKeyId = cmd.request.apiKeyId ∧
      (admittedRequest cmd p).status = .reserved := by
  obtain ⟨_, _, _, same⟩ := foldl_bindWindow (sortHolds cmd.holds) { cmd.request with
    status := .reserved, admittedAt := some cmd.admittedAt
    reservedMicros := some p.reserveAmount }
  rw [admittedRequest, same]
  exact ⟨rfl, rfl, rfl⟩

theorem windowColumn_admitted (shaped : cmd.Shaped)
    (kinds : ((sortHolds cmd.holds).map (·.targetKind)).Nodup) (kind : WindowKind)
    (w : Uuid) :
    windowColumn (admittedRequest cmd p) kind = some w ↔
      ∃ h ∈ cmd.holds, windowKindOfTarget h.targetKind = some kind ∧ h.windowId = some w := by
  rw [admittedRequest, windowColumn_foldl kinds]
  simp only [mem_sortHolds]
  constructor
  · rintro (hold | ⟨unheld, set⟩)
    · exact hold
    · -- a preset column without a hold is what the service never sends
      have set : windowColumn cmd.request kind = some w := by
        cases kind <;> exact set
      obtain ⟨h, mem, same⟩ := shaped.columns kind w set
      exact absurd same (unheld h mem)
  · exact .inl

theorem windowIds_admitted (shaped : cmd.Shaped)
    (kinds : ((sortHolds cmd.holds).map (·.targetKind)).Nodup)
    (refs : ∀ h ∈ cmd.holds, h.refsOk = true) :
    (admittedRequest cmd p).windowIds.Nodup ∧
      ∀ w, w ∈ (admittedRequest cmd p).windowIds ↔ ∃ h ∈ cmd.holds, h.windowId = some w := by
  refine ⟨windowIds_nodup fun kind kind' w set set' => ?_, fun w => ?_⟩
  · rw [windowColumn_admitted shaped kinds] at set set'
    obtain ⟨h, mem, ofKind, bound⟩ := set
    obtain ⟨h', mem', ofKind', bound'⟩ := set'
    have same := shaped.windows h mem h' mem' w bound bound'
    rw [same] at ofKind
    exact Option.some.inj (ofKind.symm.trans ofKind')
  · rw [mem_windowIds_iff]
    simp only [windowColumn_admitted shaped kinds]
    constructor
    · rintro ⟨_, h, mem, _, bound⟩
      exact ⟨h, mem, bound⟩
    · rintro ⟨h, mem, bound⟩
      have ok := refs h mem
      cases kind : h.targetKind <;> simp [HoldSpec.refsOk, targetRefsOk, HoldSpec.toReservation,
        kind, bound] at ok
      · exact ⟨.fiveHour, h, mem, by simp [kind, windowKindOfTarget], bound⟩
      · exact ⟨.weekly, h, mem, by simp [kind, windowKindOfTarget], bound⟩
      · exact ⟨.monthly, h, mem, by simp [kind, windowKindOfTarget], bound⟩

end Admitted

theorem targetKinds_holdRows (requestId : Uuid) (newId : Nat → Uuid) (holds : List HoldSpec)
    (n : Nat) :
    (holdRows requestId newId holds n).map (fun r => (r.requestId, r.targetKind)) =
      holds.map (fun h => (requestId, h.targetKind)) := by
  induction holds generalizing n with
  | nil => rfl
  | cons h holds ih => simp [holdRows, ih, HoldSpec.toReservation]

theorem targets_holdRows (requestId : Uuid) (newId : Nat → Uuid) (holds : List HoldSpec) (n : Nat) :
    (holdRows requestId newId holds n).map target = holdRows requestId newId holds n := by
  induction holds generalizing n with
  | nil => rfl
  | cons h holds ih => simp [holdRows, ih, target, HoldSpec.toReservation]

theorem Db.Booked.admitHold {db db' : Db} (b : db.Booked) {q : Request}
    (ledger : db'.ledger = db.ledger) (adjustments : db'.adjustments = db.adjustments)
    (requests : db'.requests = db.requests ++ [q]) (fresh : ∀ x ∈ db.requests, x.id ≠ q.id)
    (unsettled : q.status ≠ .settled) : db'.Booked := by
  refine ⟨?_, ?_, ?_, by rw [ledger, adjustments]; exact b.adjusted, by
    rw [ledger]; exact b.charges⟩
  · intro x mem
    rw [requestNet_congr ledger adjustments]
    rw [requests] at mem
    rcases List.mem_append.mp mem with mem | mem
    · exact b.net x mem
    · rw [List.mem_singleton.mp mem, settledAmount, if_neg unsettled]
      apply total_eq_zero
      intro e meme
      obtain ⟨y, memy, ofy, _⟩ := b.entries e meme
      have other : e.requestId ≠ some q.id := by
        rw [ofy]
        exact fun same => fresh y memy (Option.some.inj same)
      simp [other]
  · intro x mem settled
    rw [requests] at mem
    rcases List.mem_append.mp mem with mem | mem
    · exact b.priced x mem settled
    · exact absurd (List.mem_singleton.mp mem ▸ settled) unsettled
  · intro e mem
    rw [ledger] at mem
    obtain ⟨y, memy, rest⟩ := b.entries e mem
    exact ⟨y, by rw [requests]; exact List.mem_append_left _ memy, rest⟩

theorem Db.Conserved.reserve {cmd : ReserveCommand} {newId : Nat → Uuid} {db db' : Db} {id : Uuid}
    (c : db.Conserved) (shaped : cmd.Shaped)
    (ran : (reserve cmd newId).eval db = .ok (id, db')) : db'.Conserved := by
  obtain ⟨p, holds, fresh, rfl, unique⟩ := reserve_ok c.unique ran
  obtain ⟨sameId, sameKey, status⟩ := admittedRequest_fields cmd p
  obtain ⟨ids, targets⟩ := unique c.reservationsUnique
  have kinds : ((sortHolds cmd.holds).map (·.targetKind)).Nodup := by
    rw [List.map_append, targetKinds_holdRows] at targets
    have new := (List.nodup_append.mp targets).2.1
    rw [show (fun h : HoldSpec => (cmd.request.id, h.targetKind)) =
      (fun k => (cmd.request.id, k)) ∘ (·.targetKind) from rfl, ← List.map_map] at new
    exact new.of_map
  have refs : ∀ h ∈ cmd.holds, h.refsOk = true :=
    fun h mem => (holds h (mem_sortHolds.mpr mem)).1
  obtain ⟨columns, windows⟩ := windowIds_admitted (p := p) shaped kinds refs
  -- what the new rows say is what the holds say
  have rows : ∀ r ∈ holdRows cmd.request.id newId (sortHolds cmd.holds) 0,
      ∃ h ∈ cmd.holds, ∃ id, r = h.toReservation id cmd.request.id := by
    intro r mem
    obtain ⟨h, memh, same⟩ := mem_holdRows mem
    exact ⟨h, mem_sortHolds.mp memh, same⟩
  have exists_rows : ∀ (column : Reservation → Option Uuid) (ofHold : HoldSpec → Option Uuid),
      (∀ h id request, column (h.toReservation id request) = ofHold h) → ∀ x,
      ((∃ h ∈ cmd.holds, ofHold h = some x) ↔
        ∃ r ∈ holdRows cmd.request.id newId (sortHolds cmd.holds) 0, column r = some x) := by
    intro column ofHold same x
    constructor
    · rintro ⟨h, mem, set⟩
      obtain ⟨id, memr⟩ := exists_holdRows (mem_sortHolds.mpr mem)
      exact ⟨_, memr, (same h id _).trans set⟩
    · rintro ⟨r, mem, set⟩
      obtain ⟨h, memh, id, rfl⟩ := rows r mem
      exact ⟨h, memh, (same h id _).symm.trans set⟩
  refine ⟨⟨by simpa using c.unique.windows, by simpa using c.unique.apiKeys⟩, ?_, ?_, ?_,
    c.booked.admitHold rfl rfl rfl fresh (by simp [insertedRequest, status]), ?_, c.noHolds⟩
  · rw [List.map_append, List.map_append, targets_holdRows]
    refine c.linked.admitHold ?_ ?_ ?_ ?_ ?_ ?_ ?_ columns ?_
    · intro x mem
      obtain ⟨y, memy, rfl⟩ := List.mem_map.mp mem
      exact fresh y memy
    · simpa [Function.comp_def, target] using ids
    · simpa [Function.comp_def, target] using targets
    · intro r mem
      obtain ⟨h, _, id, rfl⟩ := rows r mem
      exact sameId.symm
    · intro r mem
      obtain ⟨h, memh, id, rfl⟩ := rows r mem
      obtain ⟨ok, amount, _⟩ := holds h (mem_sortHolds.mpr memh)
      exact ⟨ok, amount⟩
    · intro w
      exact (windows w).trans (exists_rows _ _ (fun _ _ _ => rfl) w)
    · intro k
      have set := (shaped.key k).trans
        (exists_rows (·.apiKeyId) _ (fun _ _ _ => rfl) k)
      rwa [← sameKey] at set
    · intro r mem r' mem' w bound bound'
      obtain ⟨h, memh, id, rfl⟩ := rows r mem
      obtain ⟨h', memh', id', rfl⟩ := rows r' mem'
      have kind := shaped.windows h memh h' memh' w bound bound'
      have new := (List.nodup_append.mp (List.map_append ▸ targets)).2.1
      exact congrArg Reservation.id (eq_of_key new mem mem' (by
        simp [HoldSpec.toReservation, kind]))
  · intro r mem w bound
    rw [shiftWindows_ids]
    rcases List.mem_append.mp mem with mem | mem
    · exact c.known r mem w bound
    · obtain ⟨h, memh, id, rfl⟩ := rows r mem
      exact (holds h (mem_sortHolds.mpr memh)).2.2.2.1 w bound
  · intro q memq r memr ofq
    rcases List.mem_append.mp memq with memq | memq <;>
      rcases List.mem_append.mp memr with memr | memr
    · exact c.held q memq r memr ofq
    · obtain ⟨h, _, id, rfl⟩ := rows r memr
      exact absurd (ofq.symm.trans sameId.symm) (fresh q memq)
    · obtain ⟨x, memx, ofx⟩ := c.linked.owner (target r) (List.mem_map_of_mem memr)
      obtain ⟨y, memy, rfl⟩ := List.mem_map.mp memx
      rw [List.mem_singleton.mp memq] at ofq
      exact absurd (ofx.trans ofq) (fresh y memy)
    · obtain ⟨h, _, id, rfl⟩ := rows r memr
      rw [List.mem_singleton.mp memq]
      simp [HoldSpec.toReservation, isFinal, insertedRequest, status]
  · have unsettled : settledAmount (insertedRequest (admittedRequest cmd p)) = 0 := by
      simp [settledAmount, insertedRequest, status]
    refine c.balanced.shift (holdsOnWindow (sortHolds cmd.holds)) (fun _ => 0) _
      (fun w mem => ?_) rfl (fun id => ?_) (fun id => ?_) (fun id => ?_)
    · dsimp only at mem
      exact mem_shiftWindows mem
    · rw [total_append]
      congr 1
      exact total_holdRows _ _ (fun h _ _ => by simp [heldOnWindow, heldOn, HoldSpec.toReservation])
        _ _ _ _
    · simp [settledOnWindow, unsettled]
    · have held : total (heldOnKey id) (holdRows cmd.request.id newId (sortHolds cmd.holds) 0) =
          holdsOnKey (sortHolds cmd.holds) id :=
        total_holdRows _ _ (fun h _ _ => by simp [heldOnKey, heldOn, HoldSpec.toReservation]) _ _ _ _
      have none : settledOnKey id (insertedRequest (admittedRequest cmd p)) = 0 := by
        simp [settledOnKey, unsettled]
      simp only [total_append, total_cons, total_nil, held, none]
      omega

end YunhouUsers.Inference.Postgres
