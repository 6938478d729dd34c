import YunhouUsers.Inference.Accounting.Pricing

/-!
The amount an admission reserves (`quota/reservation.go`), and that it covers every charge within
its bounds.
-/

namespace YunhouUsers.Inference.Quota

open Accounting Table

structure ReserveBounds where
  inputBoundTokens : Int
  outputCapTokens : Int
  extraBounds : Items := {}

variable (p : PriceVersion)

/-- The input ceiling stands on each of the three input lines. -/
def reserveLines (b : ReserveBounds) : List (Option Int × Rate) :=
  p.lines
    { inputTokens := some b.inputBoundTokens
      cacheReadTokens := some b.inputBoundTokens
      cacheWriteTokens := some b.inputBoundTokens
      outputTokens := some b.outputCapTokens }

def reserveAmount (b : ReserveBounds) : Except Err Int := do
  if p.kind ≠ .saleCredit then
    throw (.domain .invalidInput
      ("quota: reservation must be priced from the sale_credit list, got " ++ p.kind.text))
  if b.inputBoundTokens < 0 ∨ b.outputCapTokens ≤ 0 then
    throw (.domain .invalidInput "quota: bounds must be input >= 0 and output cap > 0")
  let total ← addLines .roundUp (reserveLines p b) 0
  let total ← addItems .roundUp
    (fun name => .domain .invalidInput ("quota: negative extra bound for " ++ name))
    (fun name => .domain .unpricedCapability ("quota: billable item " ++ name ++
      " has no rate in the pinned price version (高成本项目无上界价目)"))
    p.extraRates b.extraBounds.entries total
  if total < 0 then
    throw (.domain .invalidInput "quota: negative reservation amount")
  return total

def reserveAmountMoney (b : ReserveBounds) : Except Err Money := do
  if p.kind ≠ .saleMoney then
    throw (.domain .invalidInput
      ("quota: wallet reservation must be priced from the sale_money list, got " ++ p.kind.text))
  let mirror : PriceVersion :=
    { kind := .saleCredit, input := p.input, cacheRead := p.cacheRead, cacheWrite := p.cacheWrite
      output := p.output, extraRates := p.extraRates }
  let total ← reserveAmount mirror b
  newMoney total p.currency

structure Billable (source : UsageSource) (u : UsageBuckets) (extras : Items) : Prop where
  chargeable : source = .reported ∨ source = .estimated
  present : u.missing = false ∨ extras.entries ≠ []
  input : ∀ n ∈ u.inputTokens, 0 ≤ n
  cacheRead : ∀ n ∈ u.cacheReadTokens, 0 ≤ n
  cacheWrite : ∀ n ∈ u.cacheWriteTokens, 0 ≤ n
  output : ∀ n ∈ u.outputTokens, 0 ≤ n
  extras : ∀ item ∈ extras.entries, 0 ≤ item.2

structure Within (b : ReserveBounds) (u : UsageBuckets) (extras : Items) : Prop where
  input : u.inputTokens.getD 0 + u.cacheReadTokens.getD 0 + u.cacheWriteTokens.getD 0 ≤
    b.inputBoundTokens
  output : u.outputTokens.getD 0 ≤ b.outputCapTokens
  extras : ∀ item ∈ extras.entries, ∃ bound ∈ b.extraBounds.entries,
    bound.1 = item.1 ∧ item.2 ≤ bound.2

theorem reserveAmount_ok {p : PriceVersion} {b : ReserveBounds} {amount : Int}
    (ok : reserveAmount p b = .ok amount) :
    p.kind = .saleCredit ∧ (∀ line ∈ reserveLines p b, LineOk line) ∧
      (∀ item ∈ b.extraBounds.entries, ItemOk p.extraRates item) ∧
      amount = total lineCost (reserveLines p b) +
        total (itemCost p.extraRates) b.extraBounds.entries ∧ amount ≤ maxInt64 := by
  unfold reserveAmount at ok
  by_cases kind : p.kind = .saleCredit
  · simp only [kind, ne_eq, not_true, if_false] at ok
    by_cases bounds : b.inputBoundTokens < 0 ∨ b.outputCapTokens ≤ 0
    · simp [bounds, throw, throwThe, MonadExceptOf.throw, bind, Except.bind] at ok
    · simp only [bounds, if_false, pure, Except.pure, bind, Except.bind] at ok
      split at ok
      · cases ok
      · rename_i t lines
        split at ok
        · cases ok
        · rename_i t' items
          obtain ⟨linesOk, rfl, fits⟩ := (addLines_ok (Int.le_refl 0) (by decide)).mp lines
          have nonneg := total_nonneg fun line mem => (linesOk line mem).cost_nonneg
          obtain ⟨itemsOk, rfl, fits'⟩ := (addItems_ok (by omega) fits).mp items
          have nonneg' := total_nonneg fun item mem => (itemsOk item mem).cost_nonneg
          rw [if_neg (by omega)] at ok
          cases ok
          exact ⟨kind, linesOk, itemsOk, by omega, fits'⟩
  · simp [kind, throw, throwThe, MonadExceptOf.throw, bind, Except.bind] at ok

section Cover

variable {p : PriceVersion} {b : ReserveBounds} {source : UsageSource} {u : UsageBuckets}
  {extras : Items} (billable : Billable source u extras) (within : Within b u extras)
  (lines : ∀ line ∈ reserveLines p b, LineOk line)
  (items : ∀ item ∈ b.extraBounds.entries, ItemOk p.extraRates item)

include billable within lines in
theorem usageLines_le : (∀ line ∈ p.lines u, LineOk line) ∧
    total lineCost (p.lines u) ≤ total lineCost (reserveLines p b) := by
  have below {units : Option Int} {rate : Rate} {bound : Int} (ceiling : LineOk (some bound, rate))
      (nonneg : ∀ n ∈ units, 0 ≤ n) (le : units.getD 0 ≤ bound) :
      LineOk (units, rate) ∧ lineCost (units, rate) ≤ lineCost (some bound, rate) := by
    obtain ⟨_, valid⟩ := ceiling bound rfl
    refine ⟨fun n is => ⟨nonneg n is, valid⟩, ?_⟩
    cases units with
    | none => exact ceiling.cost_nonneg
    | some n => exact Rate.cost_mono valid le
  have sign (units : Option Int) (nonneg : ∀ n ∈ units, 0 ≤ n) : 0 ≤ units.getD 0 := by
    cases units with
    | none => exact Int.le_refl 0
    | some n => exact nonneg n rfl
  have input := sign _ billable.input
  have read := sign _ billable.cacheRead
  have write := sign _ billable.cacheWrite
  have sum := within.input
  simp only [reserveLines, PriceVersion.lines, List.forall_mem_cons] at lines
  obtain ⟨line₁, line₂, line₃, line₄, _⟩ := lines
  have input := below line₁ billable.input (by omega)
  have read := below line₂ billable.cacheRead (by omega)
  have write := below line₃ billable.cacheWrite (by omega)
  have output := below line₄ billable.output within.output
  constructor
  · simp only [PriceVersion.lines, List.forall_mem_cons]
    exact ⟨input.1, read.1, write.1, output.1, by simp⟩
  · simp only [reserveLines, PriceVersion.lines, total_cons, total_nil]
    omega

include billable within items in
theorem usageItems_le : (∀ item ∈ extras.entries, ItemOk p.extraRates item) ∧
    total (itemCost p.extraRates) extras.entries ≤
      total (itemCost p.extraRates) b.extraBounds.entries := by
  have below : ∀ item ∈ extras.entries, ItemOk p.extraRates item ∧
      ∃ bound ∈ b.extraBounds.entries, bound.1 = item.1 ∧
        itemCost p.extraRates item ≤ itemCost p.extraRates bound := by
    intro item mem
    obtain ⟨bound, declared, same, le⟩ := within.extras item mem
    obtain ⟨_, free, valid⟩ := items bound declared
    have nonneg := billable.extras item mem
    rw [same] at free valid
    refine ⟨⟨nonneg, fun unpriced => ?_, valid⟩, bound, declared, same, ?_⟩
    · have := free unpriced
      omega
    · unfold itemCost
      rw [same]
      cases is : p.extraRates item.1 with
      | none => exact Int.le_refl 0
      | some rate => exact Rate.cost_mono (valid rate is) le
  refine ⟨fun item mem => (below item mem).1, total_le_of_key extras.nodup ?_ ?_⟩
  · exact fun bound declared => (items bound declared).cost_nonneg
  · exact fun item mem => (below item mem).2

include billable within lines items in
theorem quote_total (sale : p.kind ≠ .upstreamCost) (valid : p.validate = .ok ())
    (fits : total lineCost (reserveLines p b) +
      total (itemCost p.extraRates) b.extraBounds.entries ≤ maxInt64) :
    ∃ t, 0 ≤ t ∧ t ≤ total lineCost (reserveLines p b) +
        total (itemCost p.extraRates) b.extraBounds.entries ∧
      p.quote source u extras =
        if p.kind = .saleCredit then
          .ok ⟨p.kind, source, t, none, p.id, p.revision, u⟩
        else
          (newMoney t p.currency).map fun m =>
            ⟨p.kind, source, 0, some m, p.id, p.revision, u⟩ := by
  obtain ⟨linesOk, lines_le⟩ := usageLines_le billable within lines
  obtain ⟨itemsOk, items_le⟩ := usageItems_le billable within items
  have lines_nonneg := total_nonneg fun line mem => (linesOk line mem).cost_nonneg
  have items_nonneg := total_nonneg fun item mem => (itemsOk item mem).cost_nonneg
  have first : addLines .roundUp (p.lines u) 0 = .ok (total lineCost (p.lines u)) :=
    (addLines_ok (Int.le_refl 0) (by decide)).mpr ⟨linesOk, by omega, by omega⟩
  have second (negative unpriced : String → Err) : addItems .roundUp negative unpriced p.extraRates
      extras.entries (total lineCost (p.lines u)) =
        .ok (total lineCost (p.lines u) + total (itemCost p.extraRates) extras.entries) :=
    (addItems_ok lines_nonneg (by omega)).mpr ⟨itemsOk, rfl, by omega⟩
  have mode : roundingFor p.kind = .roundUp := by
    cases kind : p.kind with
    | saleCredit => rfl
    | saleMoney => rfl
    | upstreamCost => exact absurd kind sale
  have charged : chargeable source = .ok () := by
    rcases billable.chargeable with rfl | rfl
    · rfl
    · rfl
  have present : (u.missing && extras.entries.isEmpty) = false := by
    rcases billable.present with some_ | some_
    · simp [some_]
    · simp [some_]
  refine ⟨_, Int.add_nonneg lines_nonneg items_nonneg, by omega, ?_⟩
  simp only [PriceVersion.quote, valid, charged, present, mode, first, second, bind, Except.bind,
    pure, Except.pure, Bool.false_eq_true, if_false]
  split
  · rfl
  · cases newMoney _ p.currency <;> rfl

end Cover

/-- A reservation covers every charge within its bounds, in credits and in money. -/
theorem reservation_covers_charge (valid : p.validate = .ok ())
    (b : ReserveBounds) (source : UsageSource) (u : UsageBuckets) (extras : Items)
    (billable : Billable source u extras) (within : Within b u extras) :
    (∀ amount, reserveAmount p b = .ok amount →
      ∃ c, p.quote source u extras = .ok c ∧ c.money = none ∧ 0 ≤ c.credit ∧ c.credit ≤ amount) ∧
    (∀ amount, reserveAmountMoney p b = .ok amount →
      ∃ c m, p.quote source u extras = .ok c ∧ c.money = some m ∧ m.currency = amount.currency ∧
        0 ≤ m.micros ∧ m.micros ≤ amount.micros) := by
  constructor
  · intro amount ok
    obtain ⟨kind, lines, items, rfl, fits⟩ := reserveAmount_ok ok
    obtain ⟨t, nonneg, le, quoted⟩ :=
      quote_total billable within lines items (by simp [kind]) valid fits
    rw [if_pos kind] at quoted
    exact ⟨_, quoted, rfl, nonneg, le⟩
  · intro amount ok
    unfold reserveAmountMoney at ok
    by_cases kind : p.kind = .saleMoney
    · simp only [kind, ne_eq, not_true, if_false, bind, Except.bind] at ok
      split at ok
      · cases ok
      · rename_i t reserved
        obtain ⟨_, lines, items, rfl, fits⟩ := reserveAmount_ok reserved
        -- the mirror has the rates of `p`, and nothing else of it is read
        have lines : ∀ line ∈ reserveLines p b, LineOk line := lines
        obtain ⟨t, nonneg, le, quoted⟩ :=
          quote_total billable within lines items (by simp [kind]) valid fits
        unfold newMoney at ok
        split_ifs at ok with currency
        cases ok
        have money : newMoney t p.currency = .ok ⟨t, p.currency⟩ := by
          simp [newMoney, currency, Int.not_lt.mpr nonneg]
        simp only [kind, reduceCtorEq, if_false, money, Except.map] at quoted
        exact ⟨_, _, quoted, rfl, rfl, nonneg, le⟩
    · simp [kind, throw, throwThe, MonadExceptOf.throw, bind, Except.bind] at ok

def halfMicro (revision : Int) : PriceVersion :=
  { kind := .saleCredit, input := ⟨1, 2⟩, cacheRead := ⟨1, 5⟩, cacheWrite := ⟨1, 2⟩
    output := ⟨3, 2⟩, extraRates := fun name => if name = "search" then some ⟨7, 1⟩ else none
    revision }

def searchBounds : ReserveBounds :=
  { inputBoundTokens := 5, outputCapTokens := 3, extraBounds := { entries := [("search", 2)] } }

def searchUsage : UsageBuckets :=
  { inputTokens := some 3, cacheReadTokens := some 1, cacheWriteTokens := some 1
    outputTokens := some 3 }

theorem searchUsage_billable :
    Billable .reported searchUsage { entries := [("search", 1)] } := by
  constructor <;> simp [searchUsage, UsageBuckets.missing]

theorem searchUsage_within :
    Within searchBounds searchUsage { entries := [("search", 1)] } := by
  constructor <;> simp [searchUsage, searchBounds]

theorem reservation_covers_search :
    reserveAmount (halfMicro 1) searchBounds = .ok 26 ∧
      ∃ c, (halfMicro 1).quote .reported searchUsage { entries := [("search", 1)] } = .ok c ∧
        c.money = none ∧ 0 ≤ c.credit ∧ c.credit ≤ 26 := by
  have reserved : reserveAmount (halfMicro 1) searchBounds = .ok 26 := by decide
  exact ⟨reserved, (reservation_covers_charge (halfMicro 1) rfl searchBounds .reported searchUsage
    { entries := [("search", 1)] } searchUsage_billable searchUsage_within).1 26 reserved⟩

/-- `ReserveAmount` does not validate the version it prices with, `Quote` does. -/
theorem unvalidated_version_reserves :
    reserveAmount (halfMicro 0) searchBounds = .ok 26 ∧
      Billable .reported searchUsage { entries := [("search", 1)] } ∧
      Within searchBounds searchUsage { entries := [("search", 1)] } ∧
      (halfMicro 0).quote .reported searchUsage { entries := [("search", 1)] } =
        .error (.domain .invalidInput "accounting: revision must be > 0") :=
  ⟨by decide, searchUsage_billable, searchUsage_within, by decide⟩

end YunhouUsers.Inference.Quota
