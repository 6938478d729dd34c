import YunhouUsers.Inference.Accounting.Settlement
import YunhouUsers.Inference.Quota.Reservation

/-!
The usage the gateway settles when the upstream reports none (`estimateUsage` of
`gateway/service.go`), against the hold of the admission.
-/

namespace YunhouUsers.Inference.Quota

open Accounting Table

structure AdmissionResult where
  holdMicros : Int
  outputCap : Int
  inputBound : Int
deriving DecidableEq

def estimatedOutput (contentBytes : Int) : Int :=
  let out := contentBytes.tdiv 2
  if 0 < contentBytes ∧ out = 0 then 1 else out

variable (adm : AdmissionResult)

def estimateUsage (contentBytes : Int) : UsageBuckets :=
  { inputTokens := some adm.inputBound, outputTokens := some (estimatedOutput contentBytes) }

def decideEstimated (contentBytes : Int) (price : PriceVersion)
    (inc : Inclusion) : Except Err Decision :=
  Decision.decide .estimated (estimateUsage adm contentBytes) price inc adm.holdMicros

def AdmissionResult.PricedBy (p : PriceVersion) (extraBounds : Items) : Prop :=
  reserveAmount p ⟨adm.inputBound, adm.outputCap, extraBounds⟩ = .ok adm.holdMicros ∨
    ∃ m, reserveAmountMoney p ⟨adm.inputBound, adm.outputCap, extraBounds⟩ = .ok m ∧
      m.micros = adm.holdMicros

variable {adm : AdmissionResult} {p : PriceVersion} {extraBounds : Items} {contentBytes : Int}
  {inc : Inclusion}

structure Priced (adm : AdmissionResult) (p : PriceVersion) (b : ReserveBounds) : Prop where
  input : 0 ≤ b.inputBoundTokens
  sale : p.kind ≠ .upstreamCost
  lines : ∀ line ∈ reserveLines p b, LineOk line
  items : ∀ item ∈ b.extraBounds.entries, ItemOk p.extraRates item
  hold : adm.holdMicros = total lineCost (reserveLines p b) +
    total (itemCost p.extraRates) b.extraBounds.entries
  fits : adm.holdMicros ≤ maxInt64
  money : p.kind ≠ .saleCredit → validCurrency p.currency = true

theorem AdmissionResult.PricedBy.priced (admitted : adm.PricedBy p extraBounds) :
    Priced adm p ⟨adm.inputBound, adm.outputCap, extraBounds⟩ := by
  have input {rate : Rate} {n : Int} (ok : LineOk (some n, rate)) : 0 ≤ n := (ok n rfl).1
  rcases admitted with ok | ⟨m, ok, is⟩
  · obtain ⟨kind, lines, items, hold, fits⟩ := reserveAmount_ok ok
    exact ⟨input (lines _ (List.mem_cons_self ..)), by simp [kind], lines, items, hold, fits,
      fun other => absurd kind other⟩
  · unfold reserveAmountMoney at ok
    by_cases kind : p.kind = .saleMoney
    · simp only [kind, ne_eq, not_true, if_false, bind, Except.bind] at ok
      split at ok
      · cases ok
      · rename_i t reserved
        -- the mirror has the rates of `p`
        obtain ⟨-, lines, items, rfl, fits⟩ := reserveAmount_ok reserved
        unfold newMoney at ok
        split_ifs at ok with currency
        cases ok
        have lines : ∀ line ∈ reserveLines p ⟨adm.inputBound, adm.outputCap, extraBounds⟩,
            LineOk line := lines
        exact ⟨input (lines _ (List.mem_cons_self ..)), by simp [kind], lines, items, is.symm,
          is ▸ fits, fun _ => by simpa using currency⟩
    · simp [kind, throw, throwThe, MonadExceptOf.throw, bind, Except.bind] at ok

theorem decideEstimated_eq : decideEstimated adm contentBytes p inc =
    (p.quote .estimated (estimateUsage adm contentBytes) {}).map fun charge =>
      ⟨.estimated, estimateUsage adm contentBytes, charge, adm.holdMicros⟩ := by
  unfold decideEstimated Decision.decide
  rw [billableBuckets_plain rfl rfl rfl]
  simp only [bind, Except.bind, pure, Except.pure]
  cases p.quote .estimated (estimateUsage adm contentBytes) {} <;> rfl

theorem charged_eq (sale : p.kind ≠ .upstreamCost) {d : Decision}
    (ok : decideEstimated adm contentBytes p inc = .ok d) :
    d.reservedMicros = adm.holdMicros ∧
      d.charged = p.input.cost adm.inputBound + p.output.cost (estimatedOutput contentBytes) := by
  rw [decideEstimated_eq] at ok
  cases quoted : p.quote .estimated (estimateUsage adm contentBytes) {} with
  | error e => simp [quoted, Except.map] at ok
  | ok c =>
    simp only [quoted, Except.map, Except.ok.injEq] at ok
    subst ok
    refine ⟨rfl, ?_⟩
    have sum : total lineCost (p.lines (estimateUsage adm contentBytes)) =
        p.input.cost adm.inputBound + p.output.cost (estimatedOutput contentBytes) := by
      simp [PriceVersion.lines, estimateUsage, lineCost]
    obtain ⟨-, unit⟩ := p.quote_ok sale quoted
    unfold Decision.charged
    split_ifs at unit
    · rw [unit.1, unit.2, sum]
    · obtain ⟨m, money, micros⟩ := unit
      simp only [money, micros, sum]

theorem Priced.covers {b : ReserveBounds} (priced : Priced adm p b) :
    p.input.cost b.inputBoundTokens + p.output.cost b.outputCapTokens ≤ adm.holdMicros := by
  have items := total_nonneg fun item mem => (priced.items item mem).cost_nonneg
  have lines := priced.lines
  have hold := priced.hold
  simp only [reserveLines, PriceVersion.lines, List.forall_mem_cons, total_cons, total_nil]
    at lines hold
  have read := lines.2.1.cost_nonneg
  have write := lines.2.2.1.cost_nonneg
  simp only [lineCost, Option.map_some, Option.getD_some] at read write hold
  omega

theorem estimatedOutput_nonneg (contentBytes : Nat) : 0 ≤ estimatedOutput contentBytes := by
  unfold estimatedOutput
  dsimp only
  split_ifs
  · decide
  · exact Int.tdiv_nonneg (Int.natCast_nonneg _) (by decide)

theorem Priced.quotes (priced : Priced adm p ⟨adm.inputBound, adm.outputCap, extraBounds⟩)
    (valid : p.validate = .ok ()) {contentBytes : Nat}
    (within : estimatedOutput contentBytes ≤ adm.outputCap) :
    ∃ c, p.quote .estimated (estimateUsage adm contentBytes) {} = .ok c := by
  have billable : Billable .estimated (estimateUsage adm contentBytes) {} := by
    refine ⟨.inr rfl, .inl rfl, ?_, by simp [estimateUsage], by simp [estimateUsage], ?_, by simp⟩
    · rintro _ ⟨⟩
      exact priced.input
    · rintro _ ⟨⟩
      exact estimatedOutput_nonneg contentBytes
  have bounded : Within ⟨adm.inputBound, adm.outputCap, extraBounds⟩
      (estimateUsage adm contentBytes) {} :=
    ⟨by simp [estimateUsage], within, by simp⟩
  obtain ⟨t, nonneg, -, quoted⟩ := quote_total billable bounded priced.lines priced.items
    priced.sale valid (priced.hold ▸ priced.fits)
  rw [quoted]
  split_ifs with credit
  · exact ⟨_, rfl⟩
  · have money : newMoney t p.currency = .ok ⟨t, p.currency⟩ := by
      simp [newMoney, priced.money credit, Int.not_lt.mpr nonneg]
    exact ⟨_, by rw [money]; rfl⟩

/-- Within the output cap the settlement of an estimate goes through and the hold covers it;
beyond it the charge is not cut, and exceeds the hold by no more than the tokens beyond the cap
cost. -/
theorem estimated_charge_bound (admitted : adm.PricedBy p extraBounds) (contentBytes : Nat)
    (inc : Inclusion) :
    (∀ d, decideEstimated adm contentBytes p inc = .ok d →
      d.charged ≤ adm.holdMicros +
        max 0 (p.output.cost (estimatedOutput contentBytes) - p.output.cost adm.outputCap) ∧
      (estimatedOutput contentBytes ≤ adm.outputCap → d.charged ≤ adm.holdMicros) ∧
      d.charged = min d.charged adm.holdMicros + d.overageMicros) ∧
    (p.validate = .ok () → estimatedOutput contentBytes ≤ adm.outputCap →
      ∃ d, decideEstimated adm contentBytes p inc = .ok d) := by
  have priced := admitted.priced
  have covers := priced.covers
  have output : p.output.Valid := by
    have lines := priced.lines
    simp only [reserveLines, PriceVersion.lines, List.forall_mem_cons] at lines
    exact (lines.2.2.2.1 _ rfl).2
  constructor
  · intro d ok
    obtain ⟨reserved, charged⟩ := charged_eq priced.sale ok
    dsimp only at covers
    refine ⟨by omega, ?_, ?_⟩
    · intro within
      have := Rate.cost_mono output within
      omega
    · unfold Decision.overageMicros
      rw [reserved]
      split_ifs <;> omega
  · intro valid within
    obtain ⟨c, quoted⟩ := priced.quotes valid within
    exact ⟨_, by rw [decideEstimated_eq, quoted]; rfl⟩

def shortAdmission : AdmissionResult := ⟨12, 3, 5⟩

theorem estimated_charge_short :
    ∃ d, decideEstimated shortAdmission 6 (halfMicro 1) ⟨true, true, false⟩ = .ok d ∧
      d.charged ≤ 12 := by
  have admitted : shortAdmission.PricedBy (halfMicro 1) {} := .inl (by decide)
  obtain ⟨bound, settles⟩ := estimated_charge_bound admitted 6 ⟨true, true, false⟩
  obtain ⟨d, ok⟩ := settles rfl (by decide)
  exact ⟨d, ok, (bound d ok).2.1 (by decide)⟩

/-- Forty served bytes count as 20 output tokens where the cap was 3. -/
theorem long_answer_exceeds_hold :
    reserveAmount (halfMicro 1) ⟨5, 3, {}⟩ = .ok 12 ∧
      ∃ d, decideEstimated shortAdmission 40 (halfMicro 1) ⟨true, true, false⟩ = .ok d ∧
        d.charged = 33 ∧ d.overageMicros = 21 :=
  ⟨by decide, _, rfl, by decide, by decide⟩

end YunhouUsers.Inference.Quota
