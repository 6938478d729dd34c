import YunhouUsers.Inference.Postgres.Frames

/-!
What wallet transactions may do to the wallet book, and that it stays covered.
-/

namespace YunhouUsers.Inference.Postgres

open ReadCommitted Table Accounting

namespace WalletBook

variable (b : WalletBook)

def sums (w : Uuid) : WalletSums :=
  { cashCredit := total (WalletEntry.part w .cash .credit) b.entries
    cashDebit := total (WalletEntry.part w .cash .debit) b.entries
    bonusCredit := total (WalletEntry.part w .bonus .credit) b.entries
    bonusDebit := total (WalletEntry.part w .bonus .debit) b.entries
    heldCash := total (WalletHold.heldCash w) b.holds
    heldBonus := total (WalletHold.heldBonus w) b.holds }

def Covers (s : WalletSums) : Prop :=
  s.heldCash ≤ s.cashCredit - s.cashDebit ∧ s.heldBonus ≤ s.bonusCredit - s.bonusDebit

structure Covered (charges : Uuid → Int → Prop) (b : WalletBook) : Prop where
  walletIds : (b.wallets.map (·.id)).Nodup
  currencies : ∀ w ∈ b.wallets, validCurrency w.currency = true
  holdIds : (b.holds.map (·.id)).Nodup
  holdRequests : (b.holds.map (·.requestId)).Nodup
  parts : ∀ h ∈ b.holds, 0 ≤ h.cash ∧ 0 ≤ h.bonus ∧ h.cash + h.bonus = h.amount
  known : ∀ h ∈ b.holds, ∃ q ∈ b.owners, q.1 = h.requestId
  owner : ∀ h ∈ b.holds, ∀ q ∈ b.owners, q.1 = h.requestId → ∀ w ∈ b.wallets,
    w.id = h.walletId → w.billingAccountId = q.2
  charged : ∀ h ∈ b.holds, ∀ c, charges h.requestId c → c ≤ h.amount
  covers : ∀ w ∈ b.wallets, Covers (b.sums w.id)

structure Moves (held : List (LockKey × LockMode)) (b b' : WalletBook) : Prop where
  wallets : b'.wallets = b.wallets
  owners : ∀ q ∈ b.owners, q ∈ b'.owners
  newOwners : ∀ q ∈ b'.owners, q ∈ b.owners ∨
    (.index "inference_requests_pkey" [q.1], .update) ∈ held
  sums : ∀ w ∈ b.wallets, (∀ m, (.account w.billingAccountId, m) ∉ held) →
    b'.sums w.id = b.sums w.id
  holds : ∀ h ∈ b.holds, (.walletHold h.id, .noKeyUpdate) ∉ held → h ∈ b'.holds
  newHolds : ∀ h' ∈ b'.holds, (∃ h ∈ b.holds, h.id = h'.id ∧ h.requestId = h'.requestId) ∨
    (.index "inference_wallet_holds_pkey" [h'.id], .update) ∈ held ∧
      (.index "inference_wallet_holds_request_id_key" [h'.requestId], .update) ∈ held

theorem Moves.refl (held : List (LockKey × LockMode)) (b : WalletBook) : Moves held b b :=
  ⟨rfl, fun _ h => h, fun _ h => .inl h, fun _ _ _ => rfl, fun _ h _ => h,
    fun h mem => .inl ⟨h, mem, rfl, rfl⟩⟩

variable {charges : Uuid → Int → Prop} {b b' : WalletBook} {held : List (LockKey × LockMode)}

def admitHold (owner : Uuid × Uuid) (h : WalletHold) : WalletBook :=
  { b with owners := b.owners ++ [owner], holds := b.holds ++ [h] }

theorem sums_admitHold (owner : Uuid × Uuid) (h : WalletHold) (w : Uuid) :
    (b.admitHold owner h).sums w = { b.sums w with
      heldCash := (b.sums w).heldCash + WalletHold.heldCash w h
      heldBonus := (b.sums w).heldBonus + WalletHold.heldBonus w h } := by
  simp [sums, admitHold]

section Admit

variable {owner : Uuid × Uuid} {h : WalletHold} {w : Wallet}
  (mem : w ∈ b.wallets) (ofWallet : w.id = h.walletId)
include mem ofWallet

theorem Covered.admitHold (c : b.Covered charges) (ofRequest : owner.1 = h.requestId)
    (ofAccount : w.billingAccountId = owner.2) (freshOwner : ∀ q ∈ b.owners, q.1 ≠ owner.1)
    (freshId : ∀ x ∈ b.holds, x.id ≠ h.id)
    (freshRequest : ∀ x ∈ b.holds, x.requestId ≠ h.requestId)
    (parts : 0 ≤ h.cash ∧ 0 ≤ h.bonus ∧ h.cash + h.bonus = h.amount)
    (charged : ∀ c, charges h.requestId c → c ≤ h.amount)
    (covers : (b.sums w.id).heldCash + h.cash ≤
        (b.sums w.id).cashCredit - (b.sums w.id).cashDebit ∧
      (b.sums w.id).heldBonus + h.bonus ≤
        (b.sums w.id).bonusCredit - (b.sums w.id).bonusDebit) :
    (b.admitHold owner h).Covered charges := by
  refine ⟨c.walletIds, c.currencies, nodup_concat c.holdIds freshId, nodup_concat c.holdRequests freshRequest, ?_, ?_, ?_,
    ?_, ?_⟩
  · exact Table.forall_mem_concat c.parts parts
  · refine Table.forall_mem_concat (fun x memx => ?_) ?_
    · obtain ⟨q, memq, ofx⟩ := c.known x memx
      exact ⟨q, List.mem_append_left _ memq, ofx⟩
    · exact ⟨owner, by simp [WalletBook.admitHold], ofRequest⟩
  · intro x memx q memq ofx y memy ofy
    rcases List.mem_append.mp memx with memx | memx <;>
      rcases List.mem_append.mp memq with memq | memq
    · exact c.owner x memx q memq ofx y memy ofy
    · -- the request is new, so no older hold can name it
      obtain ⟨q', memq', ofx'⟩ := c.known x memx
      rw [List.mem_singleton.mp memq] at ofx
      exact absurd (ofx'.trans ofx.symm) (freshOwner q' memq')
    · rw [List.mem_singleton.mp memx, ← ofRequest] at ofx
      exact absurd ofx (freshOwner q memq)
    · rw [List.mem_singleton.mp memx, ← ofWallet] at ofy
      rw [List.mem_singleton.mp memq, ← ofAccount, eq_of_key c.walletIds memy mem ofy]
  · exact Table.forall_mem_concat c.charged charged
  · intro y memy
    have before := c.covers y memy
    rw [sums_admitHold]
    by_cases same : y.id = w.id
    · rw [same]
      simp only [Covers, WalletHold.heldCash, WalletHold.heldBonus]
      split_ifs <;> grind
    · have other : h.walletId ≠ y.id := fun e => same (e.symm.trans ofWallet.symm)
      simpa [WalletHold.heldCash, WalletHold.heldBonus, other] using before

theorem Moves.admitHold (c : b.Covered charges) (ofAccount : w.billingAccountId = owner.2)
    (account : ∃ m, (.account owner.2, m) ∈ held)
    (request : (.index "inference_requests_pkey" [owner.1], .update) ∈ held)
    (holdId : (.index "inference_wallet_holds_pkey" [h.id], .update) ∈ held)
    (holdRequest : (.index "inference_wallet_holds_request_id_key" [h.requestId], .update) ∈ held) :
    Moves held b (b.admitHold owner h) := by
  refine ⟨rfl, fun q memq => List.mem_append_left _ memq, ?_, ?_,
    fun x memx _ => List.mem_append_left _ memx, ?_⟩
  · intro q memq
    rcases List.mem_append.mp memq with memq | memq
    · exact .inl memq
    · exact .inr (List.mem_singleton.mp memq ▸ request)
  · intro y memy free
    have other : h.walletId ≠ y.id := by
      intro same
      have : y = w := eq_of_key c.walletIds memy mem (same.symm.trans ofWallet.symm)
      obtain ⟨m, locked⟩ := account
      rw [this, ofAccount] at free
      exact free m locked
    simp [sums_admitHold, WalletHold.heldCash, WalletHold.heldBonus, other]
  · refine Table.forall_mem_concat (fun x memx => ?_) ?_
    · exact .inl ⟨x, memx, rfl, rfl⟩
    · exact .inr ⟨holdId, holdRequest⟩

end Admit

def close (p : WalletHold → Bool) (state : ReservationState) (es : List WalletEntry) : WalletBook :=
  { b with
    holds := updateWhere p (fun h => { h with state := state }) b.holds
    entries := b.entries ++ es }

section Close

variable {p : WalletHold → Bool} {state : ReservationState} {es : List WalletEntry}

theorem mem_close {h' : WalletHold} (mem : h' ∈ (b.close p state es).holds) :
    ∃ h ∈ b.holds, h'.id = h.id ∧ h'.requestId = h.requestId ∧ h'.walletId = h.walletId ∧
      h'.cash = h.cash ∧ h'.bonus = h.bonus ∧ h'.amount = h.amount := by
  obtain ⟨h, memh, rfl⟩ := mem_updateWhere.mp mem
  refine ⟨h, memh, ?_⟩
  split <;> exact ⟨rfl, rfl, rfl, rfl, rfl, rfl⟩

theorem Covered.close (c : b.Covered charges)
    (covers : ∀ w ∈ b.wallets, Covers ((b.close p state es).sums w.id)) :
    (b.close p state es).Covered charges := by
  refine ⟨c.walletIds, c.currencies, ?_, ?_, ?_, ?_, ?_, ?_, covers⟩
  · rw [WalletBook.close, map_updateWhere _ _ (fun h : WalletHold => h.id) (by intro; rfl)]
    exact c.holdIds
  · rw [WalletBook.close, map_updateWhere _ _ (fun h : WalletHold => h.requestId) (by intro; rfl)]
    exact c.holdRequests
  · intro h' mem
    obtain ⟨h, memh, _, _, _, cash, bonus, amount⟩ := mem_close mem
    rw [cash, bonus, amount]
    exact c.parts h memh
  · intro h' mem
    obtain ⟨h, memh, _, request, _⟩ := mem_close mem
    rw [request]
    exact c.known h memh
  · intro h' mem
    obtain ⟨h, memh, _, request, wallet, _⟩ := mem_close mem
    rw [request, wallet]
    exact c.owner h memh
  · intro h' mem
    obtain ⟨h, memh, _, request, _, _, _, amount⟩ := mem_close mem
    rw [request, amount]
    exact c.charged h memh

theorem Moves.close
    (rows : ∀ h ∈ b.holds, p h = true → (.walletHold h.id, .noKeyUpdate) ∈ held)
    (accounts : ∀ h ∈ b.holds, p h = true → ∀ w ∈ b.wallets, w.id = h.walletId →
      ∃ m, (.account w.billingAccountId, m) ∈ held)
    (entries : ∀ e ∈ es, ∀ w ∈ b.wallets, w.id = e.walletId →
      ∃ m, (.account w.billingAccountId, m) ∈ held) :
    Moves held b (b.close p state es) := by
  refine ⟨rfl, fun _ mem => mem, fun _ mem => .inl mem, ?_, ?_, ?_⟩
  · intro w mem free
    have untouched : ∀ h ∈ b.holds, p h = true → h.walletId ≠ w.id := by
      intro h memh hit same
      obtain ⟨m, locked⟩ := accounts h memh hit w mem same.symm
      exact free m locked
    have unbooked : ∀ source direction, total (WalletEntry.part w.id source direction) es = 0 := by
      intro source direction
      apply total_eq_zero
      intro e meme
      have other : e.walletId ≠ w.id := by
        intro same
        obtain ⟨m, locked⟩ := entries e meme w mem same.symm
        exact free m locked
      simp [WalletEntry.part, other]
    simp only [WalletBook.sums, WalletBook.close, total_append, unbooked, Int.add_zero,
      WalletSums.mk.injEq, true_and]
    refine ⟨?_, ?_⟩ <;> rw [total_updateWhere] <;> apply total_congr <;> intro h memh <;>
      by_cases hit : p h = true
    · simp [hit, WalletHold.heldCash, untouched h memh hit]
    · simp [hit]
    · simp [hit, WalletHold.heldBonus, untouched h memh hit]
    · simp [hit]
  · intro h memh free
    refine mem_updateWhere.mpr ⟨h, memh, ?_⟩
    have miss : p h = false := by
      by_contra hit
      exact free (rows h memh (by simpa using hit))
    simp [miss]
  · intro h' mem
    obtain ⟨h, memh, id, request, _⟩ := mem_close mem
    exact .inl ⟨h, memh, id.symm, request.symm⟩

end Close

theorem Covered.release (c : b.Covered charges) {p : WalletHold → Bool}
    {state : ReservationState} (closed : state ≠ .held) :
    (b.close p state []).Covered charges := by
  refine c.close fun w mem => ?_
  have before := c.covers w mem
  have cash : total (WalletHold.heldCash w.id) (b.close p state []).holds ≤
      total (WalletHold.heldCash w.id) b.holds := by
    rw [WalletBook.close, total_updateWhere]
    apply total_mono
    intro h memh
    have := c.parts h memh
    simp only [WalletHold.heldCash]
    split_ifs <;> simp_all
  have bonus : total (WalletHold.heldBonus w.id) (b.close p state []).holds ≤
      total (WalletHold.heldBonus w.id) b.holds := by
    rw [WalletBook.close, total_updateWhere]
    apply total_mono
    intro h memh
    have := c.parts h memh
    simp only [WalletHold.heldBonus]
    split_ifs <;> simp_all
  simp only [Covers, sums, WalletBook.close, List.append_nil] at before cash bonus ⊢
  omega

theorem Covered.consume (c : b.Covered charges) {hold : WalletHold} (mem : hold ∈ b.holds)
    (isHeld : hold.state = .held) {cash bonus : Int} (cashWithin : cash ≤ hold.cash)
    (bonusWithin : bonus ≤ hold.bonus) {es : List WalletEntry}
    (credits : ∀ w source, total (WalletEntry.part w source .credit) es = 0)
    (debits : ∀ w, total (WalletEntry.part w .cash .debit) es =
        (if hold.walletId = w then cash else 0) ∧
      total (WalletEntry.part w .bonus .debit) es = if hold.walletId = w then bonus else 0) :
    (b.close (fun h => h.id = hold.id && h.state = .held) .settled es).Covered charges := by
  refine c.close fun w memw => ?_
  have before := c.covers w memw
  have only : updateWhere (fun h : WalletHold => h.id = hold.id && h.state = .held)
        (fun h => { h with state := .settled }) b.holds =
      updateWhere (·.id = hold.id) (fun h => { h with state := .settled }) b.holds :=
    updateWhere_key c.holdIds
      (fun h hit => by simp only [Bool.and_eq_true, decide_eq_true_eq] at hit; exact hit.1)
      (List.any_eq_true.mpr ⟨hold, mem, by simp [isHeld]⟩) _
  have freedCash := total_updateWhere_key c.holdIds mem (WalletHold.heldCash w.id)
    (fun h => { h with state := .settled })
  have freedBonus := total_updateWhere_key c.holdIds mem (WalletHold.heldBonus w.id)
    (fun h => { h with state := .settled })
  obtain ⟨cashDebit, bonusDebit⟩ := debits w.id
  simp only [Covers, sums, WalletBook.close, total_append, only, credits, cashDebit, bonusDebit,
    freedCash, freedBonus] at before ⊢
  by_cases same : hold.walletId = w.id <;>
    simp [WalletHold.heldCash, WalletHold.heldBonus, same, isHeld] <;> omega

end WalletBook

end YunhouUsers.Inference.Postgres
