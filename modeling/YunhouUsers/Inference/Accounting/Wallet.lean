import YunhouUsers.Inference.Accounting

/-!
Entries and splits of a wallet (`internal/inference/accounting/wallet.go`).
-/

namespace YunhouUsers.Inference.Accounting

/-- One entry before it is stored; the direction carries the sign. -/
structure WalletEntrySpec where
  type : WalletEntryType
  direction : Direction
  source : WalletSource
  amount : Money
deriving DecidableEq

def validateWalletEntry (e : WalletEntrySpec) : Except Err Unit :=
  if e.amount.micros ≤ 0 then
    .error (.domain .invalidInput "accounting: wallet entry amount must be > 0")
  else match e.type with
    | .topup =>
      if e.direction ≠ .credit ∨ e.source ≠ .cash then
        .error (.domain .invalidInput "accounting: topup must credit cash")
      else .ok ()
    | .bonus =>
      if e.direction ≠ .credit ∨ e.source ≠ .bonus then
        .error (.domain .invalidInput "accounting: bonus must credit bonus source")
      else .ok ()
    | .consume =>
      if e.direction ≠ .debit then
        .error (.domain .invalidInput "accounting: consume must debit")
      else .ok ()
    | .refund =>
      if e.direction ≠ .debit ∨ e.source ≠ .cash then
        .error (.domain .invalidInput
          "accounting: bonus balance is not cash-refundable (赠送余额不得伪装现金退款)")
      else .ok ()
    | .adjustment | .reversal => .ok ()

def reversalOf (orig : WalletEntrySpec) : Except Err WalletEntrySpec :=
  if orig.type = .reversal then
    .error (.domain .invalidInput
      "accounting: a reversal cannot be reversed (correct it with an adjustment)")
  else .ok { orig with
    type := .reversal
    direction := if orig.direction = .debit then .credit else .debit }

def splitRelease (holdCash holdBonus consumeCash consumeBonus : Int) : Except Err (Int × Int) :=
  if consumeCash > holdCash ∨ consumeBonus > holdBonus ∨ consumeCash < 0 ∨ consumeBonus < 0 then
    .error (.domain .invalidInput "accounting: consumed split exceeds the frozen composition")
  else .ok (holdCash - consumeCash, holdBonus - consumeBonus)

theorem splitFreeze_parts {bonusAvailable cashAvailable amount cash bonus : Int}
    (low : -2 ^ 63 ≤ bonusAvailable + cashAvailable)
    (ok : splitFreeze bonusAvailable cashAvailable amount = .ok (cash, bonus)) :
    0 ≤ cash ∧ 0 ≤ bonus ∧ cash + bonus = amount ∧ cash ≤ max cashAvailable 0 ∧
      bonus ≤ max bonusAvailable 0 ∧ (0 < cash → bonus = max bonusAvailable 0) := by
  obtain ⟨positive, enough, sum, first⟩ := splitFreeze_ok low ok
  dsimp only at sum first
  omega

theorem splitConsume_parts {holdCash holdBonus charge : Int} (cash : 0 ≤ holdCash)
    (bonus : 0 ≤ holdBonus) {r : Int × Int × Int}
    (ok : splitConsume holdCash holdBonus charge = .ok r) :
    0 ≤ r.1 ∧ 0 ≤ r.2.1 ∧ 0 ≤ r.2.2 ∧ r.1 + r.2.1 + r.2.2 = charge := by
  unfold splitConsume at ok
  split_ifs at ok
  cases ok
  dsimp only
  omega

theorem splitConsume_release {holdCash holdBonus charge : Int} (cash : 0 ≤ holdCash)
    (bonus : 0 ≤ holdBonus) (positive : 0 ≤ charge) (within : charge ≤ holdCash + holdBonus) :
    ∃ consumeCash consumeBonus,
      splitConsume holdCash holdBonus charge = .ok (consumeCash, consumeBonus, 0) ∧
      0 ≤ consumeCash ∧ 0 ≤ consumeBonus ∧ consumeCash + consumeBonus = charge ∧
      consumeCash ≤ holdCash ∧ consumeBonus ≤ holdBonus ∧
      splitRelease holdCash holdBonus consumeCash consumeBonus =
        .ok (holdCash - consumeCash, holdBonus - consumeBonus) := by
  refine ⟨charge - min charge holdBonus, min charge holdBonus, ?_, by omega, by omega, by omega,
    by omega, by omega, ?_⟩
  · unfold splitConsume
    rw [if_neg (by omega)]
    dsimp only
    congr 3
    · omega
    · omega
  · unfold splitRelease
    rw [if_neg (by omega)]

end YunhouUsers.Inference.Accounting
