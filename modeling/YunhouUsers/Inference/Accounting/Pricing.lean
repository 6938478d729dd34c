import YunhouUsers.Table
import YunhouUsers.Inference.Accounting

/-!
Rates, price versions and quotes (`domain/money.go`, `accounting/pricing.go`).

Amounts are integers that every operation checks against the range of an `int64`; the products of
a rate are exact (`math/big`).
-/

namespace YunhouUsers.Inference.Accounting

open Table

def minInt64 : Int := -2 ^ 63
def maxInt64 : Int := 2 ^ 63 - 1

def errOverflow : Err := .domain .internal "inference: arithmetic overflow"

def addMicros (a b : Int) : Except Err Int :=
  if (0 < b ∧ maxInt64 - b < a) ∨ (b < 0 ∧ a < minInt64 - b) then .error errOverflow
  else .ok (a + b)

inductive RoundingMode where
  | roundDown
  | roundUp
  | roundHalfUp
deriving DecidableEq

structure Rate where
  num : Int
  den : Int
deriving DecidableEq

variable (r : Rate)

def Rate.microsForUnits (units : Int) (mode : RoundingMode) : Except Err Int :=
  if units < 0 then
    .error (.domain .internal
      ("inference: negative value not allowed: units " ++ toString units))
  else if r.den ≤ 0 ∨ r.num < 0 then
    .error (.domain .internal
      ("inference: invalid rate (denominator must be > 0, numerator >= 0): " ++
        toString r.num ++ "/" ++ toString r.den))
  else
    let num := r.num * units
    let q := num / r.den
    let rem := num % r.den
    let q := match mode with
      | .roundDown => q
      | .roundUp => if 0 < rem then q + 1 else q
      | .roundHalfUp => if r.den ≤ 2 * rem then q + 1 else q
    if q < minInt64 ∨ maxInt64 < q then
      .error (.domain .internal ("inference: arithmetic overflow: " ++ toString units ++
        " units at " ++ toString r.num ++ "/" ++ toString r.den))
    else .ok q

inductive PriceKind where
  | saleCredit
  | saleMoney
  | upstreamCost
deriving DecidableEq

def PriceKind.text : PriceKind → String
  | .saleCredit => "sale_credit"
  | .saleMoney => "sale_money"
  | .upstreamCost => "upstream_cost"

def roundingFor : PriceKind → RoundingMode
  | .upstreamCost => .roundDown
  | _ => .roundUp

structure PriceVersion where
  id : Uuid := 0
  kind : PriceKind
  currency : String := ""
  input : Rate
  cacheRead : Rate
  cacheWrite : Rate
  output : Rate
  extraRates : String → Option Rate
  revision : Int := 0
  effectiveFrom : Int := 0
  effectiveTo : Option Int := none

def PriceVersion.validate (p : PriceVersion) : Except Err Unit := do
  match p.kind with
  | .saleCredit =>
    if p.currency ≠ "" then
      throw (.domain .invalidInput "accounting: credit price list must not carry a currency")
  | .saleMoney | .upstreamCost =>
    match newMoney 0 p.currency with
    | .error _ =>
      throw (.domain .invalidInput "accounting: money price list needs a valid currency")
    | .ok _ => pure ()
  if p.revision ≤ 0 then
    throw (.domain .invalidInput "accounting: revision must be > 0")
  match p.effectiveTo with
  | some t =>
    if t ≤ p.effectiveFrom then
      throw (.domain .invalidInput
        "accounting: effective range must be [from, to) with to > from")
  | none => pure ()

/-- A bucket that is `none` was not reported. -/
structure UsageBuckets where
  inputTokens : Option Int := none
  cacheReadTokens : Option Int := none
  cacheWriteTokens : Option Int := none
  outputTokens : Option Int := none
  reasoningTokens : Option Int := none
deriving DecidableEq

/-- A `map[string]int64`, in the order that one iteration takes. -/
structure Items where
  entries : List (String × Int) := []
  nodup : (entries.map Prod.fst).Nodup := by decide

def addLine (mode : RoundingMode) (total units : Int) (rate : Rate) : Except Err Int := do
  let m ← rate.microsForUnits units mode
  addMicros total m

def addLines (mode : RoundingMode) : List (Option Int × Rate) → Int → Except Err Int
  | [], total => .ok total
  | (none, _) :: lines, total => addLines mode lines total
  | (some units, rate) :: lines, total => do
    let total ← addLine mode total units rate
    addLines mode lines total

/-- The loop over other billable items; `negative` and `unpriced` are its errors for a name. -/
def addItems (mode : RoundingMode) (negative unpriced : String → Err)
    (rates : String → Option Rate) : List (String × Int) → Int → Except Err Int
  | [], total => .ok total
  | (name, units) :: items, total =>
    if units < 0 then .error (negative name)
    else
      match rates name with
      | none =>
        if 0 < units then .error (unpriced name)
        else addItems mode negative unpriced rates items total
      | some rate => do
        let total ← addLine mode total units rate
        addItems mode negative unpriced rates items total

structure Charge where
  kind : PriceKind
  basis : UsageSource
  credit : Int
  money : Option Money
  priceVersionId : Uuid
  revision : Int
  billable : UsageBuckets
deriving DecidableEq

def errUnknownUsage : Err :=
  .domain .invalidInput
    "accounting: usage unknown — cannot price; hold the reservation and reconcile"

def chargeable : UsageSource → Except Err Unit
  | .reported => .ok ()
  | .estimated => .ok ()
  | .unknown => .error errUnknownUsage
  | .pending => .error (.domain .invalidInput "accounting: usage source pending is not chargeable")

def UsageBuckets.missing (b : UsageBuckets) : Bool :=
  b.inputTokens.isNone && b.cacheReadTokens.isNone && b.cacheWriteTokens.isNone &&
    b.outputTokens.isNone && b.reasoningTokens.isNone

/-- Reasoning tokens have no line: output carries them already. -/
def PriceVersion.lines (p : PriceVersion) (b : UsageBuckets) : List (Option Int × Rate) :=
  [(b.inputTokens, p.input), (b.cacheReadTokens, p.cacheRead), (b.cacheWriteTokens, p.cacheWrite),
    (b.outputTokens, p.output)]

def PriceVersion.quote (p : PriceVersion) (source : UsageSource) (b : UsageBuckets)
    (extras : Items) : Except Err Charge := do
  p.validate
  chargeable source
  if b.missing && extras.entries.isEmpty then
    throw (.domain .invalidInput
      "accounting: usage record carries no buckets (missing usage is never zero)")
  let total ← addLines (roundingFor p.kind) (p.lines b) 0
  let total ← addItems (roundingFor p.kind)
    (fun name => .domain .invalidInput ("accounting: negative extra usage for " ++ name))
    (fun name => .domain .unpricedCapability
      ("accounting: billable item " ++ name ++ " has no rate in this price version"))
    p.extraRates extras.entries total
  let c : Charge :=
    { kind := p.kind, basis := source, credit := 0, money := none, priceVersionId := p.id
      revision := p.revision, billable := b }
  if p.kind = .saleCredit then
    return { c with credit := total }
  let m ← newMoney total p.currency
  return { c with money := some m }

/-! What a rounded-up line costs. -/

def Rate.Valid : Prop := 0 < r.den ∧ 0 ≤ r.num

def Rate.cost (units : Int) : Int :=
  if 0 < r.num * units % r.den then r.num * units / r.den + 1 else r.num * units / r.den

variable {r : Rate} {units : Int}

theorem Rate.cost_le_iff (valid : r.Valid) {k : Int} :
    r.cost units ≤ k ↔ r.num * units ≤ k * r.den := by
  have split := Int.mul_ediv_add_emod (r.num * units) r.den
  have rem_lo := Int.emod_nonneg (r.num * units) (Int.ne_of_gt valid.1)
  have rem_hi := Int.emod_lt_of_pos (r.num * units) valid.1
  unfold cost
  generalize r.num * units / r.den = q at split
  generalize r.num * units % r.den = rem at split rem_lo rem_hi
  rw [← split, Int.mul_comm r.den q]
  split_ifs with up
  · constructor
    · intro le
      have := Int.mul_le_mul_of_nonneg_right le valid.1.le
      rw [Int.add_mul, Int.one_mul] at this
      omega
    · intro le
      by_contra gt
      have := Int.mul_le_mul_of_nonneg_right (show k ≤ q by omega) valid.1.le
      omega
  · have zero : rem = 0 := by omega
    rw [zero, Int.add_zero]
    exact (Int.mul_le_mul_iff_of_pos_right valid.1).symm

theorem Rate.cost_mono (valid : r.Valid) {u v : Int} (le : u ≤ v) : r.cost u ≤ r.cost v := by
  rw [cost_le_iff valid]
  calc r.num * u ≤ r.num * v := Int.mul_le_mul_of_nonneg_left le valid.2
    _ ≤ r.cost v * r.den := (cost_le_iff valid).mp (Int.le_refl _)

theorem Rate.cost_zero : r.cost 0 = 0 := by
  simp [cost]

theorem Rate.cost_nonneg (valid : r.Valid) (nonneg : 0 ≤ units) : 0 ≤ r.cost units :=
  r.cost_zero ▸ cost_mono valid nonneg

theorem addMicros_ok {a b t : Int} (hi : a ≤ maxInt64) (nonneg : 0 ≤ b) :
    addMicros a b = .ok t ↔ t = a + b ∧ t ≤ maxInt64 := by
  unfold addMicros
  by_cases fits : a + b ≤ maxInt64
  · rw [if_neg (by omega), Except.ok.injEq]
    omega
  · rw [if_pos (by omega)]
    simp only [reduceCtorEq, false_iff]
    omega

def Rate.rounded (units : Int) : RoundingMode → Int
  | .roundDown => r.num * units / r.den
  | .roundUp => r.cost units
  | .roundHalfUp =>
    if r.den ≤ 2 * (r.num * units % r.den) then r.num * units / r.den + 1
    else r.num * units / r.den

theorem Rate.microsForUnits_ok {m : Int} {mode : RoundingMode} :
    r.microsForUnits units mode = .ok m ↔
      0 ≤ units ∧ r.Valid ∧ m = r.rounded units mode ∧ minInt64 ≤ m ∧ m ≤ maxInt64 := by
  have micros : ∀ q, (if q < minInt64 ∨ maxInt64 < q then
      (.error (.domain .internal ("inference: arithmetic overflow: " ++ toString units ++
        " units at " ++ toString r.num ++ "/" ++ toString r.den)) : Except Err Int)
      else .ok q) = .ok m ↔ m = q ∧ minInt64 ≤ m ∧ m ≤ maxInt64 := by
    intro q
    by_cases out : q < minInt64 ∨ maxInt64 < q
    · rw [if_pos out]
      simp only [reduceCtorEq, false_iff]
      omega
    · rw [if_neg out, Except.ok.injEq]
      omega
  unfold microsForUnits
  by_cases negative : units < 0
  · simp [negative]
  · by_cases invalid : r.den ≤ 0 ∨ r.num < 0
    · rw [if_neg negative, if_pos invalid]
      simp only [Valid, reduceCtorEq, false_iff]
      omega
    · have valid : r.Valid := by
        unfold Valid
        omega
      rw [if_neg negative, if_neg invalid]
      simp only [Int.not_lt.mp negative, valid, true_and]
      cases mode <;> exact micros _

theorem Rate.microsForUnits_up {m : Int} :
    r.microsForUnits units .roundUp = .ok m ↔
      0 ≤ units ∧ r.Valid ∧ m = r.cost units ∧ m ≤ maxInt64 := by
  rw [microsForUnits_ok]
  constructor
  · rintro ⟨nonneg, valid, rounded, -, fits⟩
    exact ⟨nonneg, valid, rounded, fits⟩
  · rintro ⟨nonneg, valid, rounded, fits⟩
    have := cost_nonneg valid nonneg
    refine ⟨nonneg, valid, rounded, ?_, fits⟩
    unfold minInt64
    omega

theorem addLine_ok {total t : Int} (lo : 0 ≤ total) (hi : total ≤ maxInt64) :
    addLine .roundUp total units r = .ok t ↔
      0 ≤ units ∧ r.Valid ∧ t = total + r.cost units ∧ t ≤ maxInt64 := by
  unfold addLine
  constructor
  · intro ran
    cases micros : r.microsForUnits units .roundUp with
    | error e => simp [micros, bind, Except.bind] at ran
    | ok m =>
      simp only [micros, bind, Except.bind] at ran
      obtain ⟨nonneg, valid, rfl, _⟩ := Rate.microsForUnits_up.mp micros
      exact ⟨nonneg, valid, (addMicros_ok hi (Rate.cost_nonneg valid nonneg)).mp ran⟩
  · rintro ⟨nonneg, valid, sum⟩
    have cost := Rate.cost_nonneg valid nonneg
    have micros := Rate.microsForUnits_up.mpr
      ⟨nonneg, valid, rfl, (show r.cost units ≤ maxInt64 by omega)⟩
    simp only [micros, bind, Except.bind]
    exact (addMicros_ok hi cost).mpr sum

/-- One line more, before lines that cost `rest` if they are `fine`. -/
theorem addLine_bind_ok {total t rest : Int} (lo : 0 ≤ total) (hi : total ≤ maxInt64) {fine : Prop}
    {more : Int → Except Err Int} (nonneg : fine → 0 ≤ rest)
    (ih : ∀ {total}, 0 ≤ total → total ≤ maxInt64 →
      (more total = .ok t ↔ fine ∧ t = total + rest ∧ t ≤ maxInt64)) :
    (addLine .roundUp total units r >>= more) = .ok t ↔
      ((0 ≤ units ∧ r.Valid) ∧ fine) ∧ t = total + (r.cost units + rest) ∧ t ≤ maxInt64 := by
  constructor
  · intro ran
    cases line : addLine .roundUp total units r with
    | error e => simp [line, bind, Except.bind] at ran
    | ok t₁ =>
      simp only [line, bind, Except.bind] at ran
      obtain ⟨units, valid, rfl, fits⟩ := (addLine_ok lo hi).mp line
      have := Rate.cost_nonneg valid units
      obtain ⟨oks, rfl, fits'⟩ := (ih (by omega) fits).mp ran
      exact ⟨⟨⟨units, valid⟩, oks⟩, by omega, fits'⟩
  · rintro ⟨⟨⟨units, valid⟩, oks⟩, rfl, fits⟩
    have cost := Rate.cost_nonneg valid units
    have := nonneg oks
    have line := (addLine_ok lo hi).mpr ⟨units, valid, rfl, (by omega)⟩
    simp only [line, bind, Except.bind]
    exact (ih (by omega) (by omega)).mpr ⟨oks, by omega, fits⟩

theorem total_nil_ok {α : Type} {fine : α → Prop} {cost : α → Int} {total t : Int}
    (hi : total ≤ maxInt64) : (.ok total : Except Err Int) = .ok t ↔
      (∀ x ∈ [], fine x) ∧ t = total + Table.total cost [] ∧ t ≤ maxInt64 := by
  simp only [Except.ok.injEq, Table.total, List.map_nil, List.sum_nil]
  constructor
  · rintro rfl
    exact ⟨by simp, by omega, hi⟩
  · rintro ⟨_, is, _⟩
    omega

def lineCost (line : Option Int × Rate) : Int := (line.1.map line.2.cost).getD 0

def LineOk (line : Option Int × Rate) : Prop := ∀ units ∈ line.1, 0 ≤ units ∧ line.2.Valid

theorem LineOk.cost_nonneg {line : Option Int × Rate} (ok : LineOk line) : 0 ≤ lineCost line := by
  obtain ⟨_ | units, rate⟩ := line
  · exact Int.le_refl 0
  · exact Rate.cost_nonneg (ok units rfl).2 (ok units rfl).1

theorem addLines_ok {lines : List (Option Int × Rate)} :
    ∀ {total t : Int}, 0 ≤ total → total ≤ maxInt64 →
      (addLines .roundUp lines total = .ok t ↔
        (∀ line ∈ lines, LineOk line) ∧ t = total + Table.total lineCost lines ∧
          t ≤ maxInt64) := by
  induction lines with
  | nil => exact fun _ hi => total_nil_ok hi
  | cons line lines ih =>
    intro total t lo hi
    rw [List.forall_mem_cons, Table.total_cons]
    obtain ⟨_ | units, rate⟩ := line
    · rw [addLines, ih lo hi]
      simp [LineOk, lineCost]
    · have first : LineOk (some units, rate) ↔ 0 ≤ units ∧ rate.Valid := by simp [LineOk]
      rw [addLines, first]
      exact addLine_bind_ok lo hi
        (fun oks => Table.total_nonneg fun line mem => (oks line mem).cost_nonneg) ih

def itemCost (rates : String → Option Rate) (item : String × Int) : Int :=
  ((rates item.1).map (fun rate => rate.cost item.2)).getD 0

def ItemOk (rates : String → Option Rate) (item : String × Int) : Prop :=
  0 ≤ item.2 ∧ (rates item.1 = none → item.2 = 0) ∧ ∀ rate ∈ rates item.1, rate.Valid

variable {rates : String → Option Rate}

theorem ItemOk.cost_nonneg {item : String × Int}
    (ok : ItemOk rates item) : 0 ≤ itemCost rates item := by
  unfold itemCost
  cases is : rates item.1 with
  | none => exact Int.le_refl 0
  | some rate => exact Rate.cost_nonneg (ok.2.2 rate is) ok.1

theorem addItems_ok {negative unpriced : String → Err} {items : List (String × Int)} :
    ∀ {total t : Int}, 0 ≤ total → total ≤ maxInt64 →
      (addItems .roundUp negative unpriced rates items total = .ok t ↔
        (∀ item ∈ items, ItemOk rates item) ∧ t = total + Table.total (itemCost rates) items ∧
          t ≤ maxInt64) := by
  induction items with
  | nil => exact fun _ hi => total_nil_ok hi
  | cons item items ih =>
    intro total t lo hi
    obtain ⟨name, units⟩ := item
    rw [List.forall_mem_cons, Table.total_cons, addItems]
    by_cases below : units < 0
    · simp only [below, if_true, ItemOk, reduceCtorEq, false_iff]
      omega
    · rw [if_neg below]
      cases is : rates name with
      | none =>
        have cost : itemCost rates (name, units) = 0 := by simp [itemCost, is]
        have first : ItemOk rates (name, units) ↔ units = 0 := by
          simp only [ItemOk, is]
          simp
          omega
        rw [cost, first]
        by_cases some_ : 0 < units
        · simp only [some_, if_true, reduceCtorEq, false_iff]
          omega
        · simp only [some_, if_false, ih lo hi, Int.zero_add]
          have zero : units = 0 := by omega
          simp [zero]
      | some rate =>
        have cost : itemCost rates (name, units) = rate.cost units := by simp [itemCost, is]
        have first : ItemOk rates (name, units) ↔ 0 ≤ units ∧ rate.Valid := by
          simp [ItemOk, is]
        rw [cost, first]
        exact addLine_bind_ok lo hi
          (fun oks => Table.total_nonneg fun item mem => (oks item mem).cost_nonneg) ih

end YunhouUsers.Inference.Accounting
