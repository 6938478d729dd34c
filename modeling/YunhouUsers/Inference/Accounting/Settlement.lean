import YunhouUsers.Inference.Accounting.Pricing

/-!
The priced outcome of one settlement (`accounting/settlement.go`), with the step that makes
overlapping buckets disjoint (`BillableBuckets`).
-/

namespace YunhouUsers.Inference.Accounting

open Table

/-- Which buckets a provider already counts in its totals. -/
structure Inclusion where
  reasoningInOutput : Bool
  cacheReadInInput : Bool
  cacheWriteInInput : Bool
deriving DecidableEq

def partExceedsTotal : Err :=
  .domain .invalidInput "accounting: inclusion flags inconsistent with buckets (part exceeds total)"

/-- Buckets are `int64`: both operations wrap. -/
def subBucket : Option Int → Option Int → Except Err (Option Int)
  | some base, some part =>
    if base < part then .error partExceedsTotal else .ok (some ((base - part).bmod (2 ^ 64)))
  | base, _ => .ok base

def addBucket : Option Int → Option Int → Option Int
  | none, b => b
  | some a, none => some a
  | some a, some b => some ((a + b).bmod (2 ^ 64))

def billableBuckets (raw : UsageBuckets) (inc : Inclusion) : Except Err UsageBuckets := do
  let input ←
    if inc.cacheReadInInput then subBucket raw.inputTokens raw.cacheReadTokens
    else pure raw.inputTokens
  let input ←
    if inc.cacheWriteInInput then subBucket input raw.cacheWriteTokens
    else pure input
  let output :=
    if !inc.reasoningInOutput && raw.reasoningTokens.isSome then
      addBucket raw.outputTokens raw.reasoningTokens
    else raw.outputTokens
  return { raw with
    inputTokens := input
    outputTokens := output }

structure Decision where
  source : UsageSource
  buckets : UsageBuckets
  charge : Charge
  reservedMicros : Int
deriving DecidableEq

namespace Decision

/-- The amount in the unit of the price list: micromoney if the charge is money. -/
def charged (d : Decision) : Int :=
  match d.charge.money with
  | some m => m.micros
  | none => d.charge.credit

/-- What the charge takes beyond the hold; the charge itself is never cut to it. -/
def overageMicros (d : Decision) : Int :=
  if d.charged ≤ d.reservedMicros then 0 else d.charged - d.reservedMicros

def decide (source : UsageSource) (buckets : UsageBuckets) (price : PriceVersion)
    (inc : Inclusion) (reserved : Int) : Except Err Decision := do
  let billable ← billableBuckets buckets inc
  let charge ← price.quote source billable {}
  return { source, buckets := billable, charge, reservedMicros := reserved }

end Decision

theorem billableBuckets_plain {raw : UsageBuckets} (read : raw.cacheReadTokens = none)
    (write : raw.cacheWriteTokens = none) (reasoning : raw.reasoningTokens = none)
    (inc : Inclusion) : billableBuckets raw inc = .ok raw := by
  have kept (base : Option Int) : subBucket base none = .ok base := by cases base <;> rfl
  obtain ⟨input, _, _, output, _⟩ := raw
  cases read
  cases write
  cases reasoning
  unfold billableBuckets
  cases inc.cacheReadInInput <;> cases inc.cacheWriteInInput <;>
    simp [kept, pure, Except.pure, bind, Except.bind]

/-! ### Disjoint buckets -/

/-- A bucket is absent or a number of tokens. -/
def Tokens (bucket : Option Int) : Prop := ∀ n, bucket = some n → 0 ≤ n ∧ n ≤ maxInt64

structure UsageBuckets.Counted (u : UsageBuckets) : Prop where
  input : Tokens u.inputTokens
  read : Tokens u.cacheReadTokens
  write : Tokens u.cacheWriteTokens
  output : Tokens u.outputTokens
  reasoning : Tokens u.reasoningTokens

namespace Inclusion

/-- The tokens of a bucket, where they count. -/
def part (counts : Bool) (bucket : Option Int) : Int := if counts then bucket.getD 0 else 0

variable (inc : Inclusion) (raw : UsageBuckets)

/-- The cache tokens that the input total contains. -/
def within : Int :=
  part inc.cacheReadInInput raw.cacheReadTokens + part inc.cacheWriteInInput raw.cacheWriteTokens

/-- Those that come on top of it. -/
def beside : Int :=
  part (!inc.cacheReadInInput) raw.cacheReadTokens
    + part (!inc.cacheWriteInInput) raw.cacheWriteTokens

/-- The reasoning that the output total does not contain. -/
def separate : Option Int := if inc.reasoningInOutput then none else raw.reasoningTokens

def spoken : Int := raw.outputTokens.getD 0 + (inc.separate raw).getD 0

def disjoint : UsageBuckets :=
  { raw with
    inputTokens := raw.inputTokens.map (· - inc.within raw)
    outputTokens := addBucket raw.outputTokens (inc.separate raw) }

end Inclusion

section

variable {raw : UsageBuckets} {inc : Inclusion}

end

theorem PriceVersion.quote_ok {p : PriceVersion} {source : UsageSource} {u : UsageBuckets}
    {c : Charge} (sale : p.kind ≠ .upstreamCost) (ok : p.quote source u {} = .ok c) :
    (∀ line ∈ p.lines u, LineOk line) ∧
      (if p.kind = .saleCredit then c.money = none ∧ c.credit = total lineCost (p.lines u)
      else ∃ m, c.money = some m ∧ m.micros = total lineCost (p.lines u)) := by
  have mode : roundingFor p.kind = .roundUp := by
    cases kind : p.kind with
    | saleCredit => rfl
    | saleMoney => rfl
    | upstreamCost => exact absurd kind sale
  unfold quote at ok
  simp only [mode, addItems, bind, Except.bind, pure, Except.pure, throw, throwThe,
    MonadExceptOf.throw] at ok
  split at ok
  · cases ok
  · split at ok
    · cases ok
    · split at ok
      · cases ok
      · split at ok
        · cases ok
        · rename_i t lines
          obtain ⟨linesOk, is, -⟩ := (addLines_ok (Int.le_refl 0) (by decide)).mp lines
          rw [Int.zero_add] at is
          refine ⟨linesOk, ?_⟩
          split_ifs at ok ⊢ with credit
          · cases ok
            exact ⟨rfl, is⟩
          · split at ok
            · cases ok
            · rename_i m money
              cases ok
              refine ⟨m, rfl, ?_⟩
              unfold newMoney at money
              split_ifs at money
              cases money
              exact is

end YunhouUsers.Inference.Accounting
