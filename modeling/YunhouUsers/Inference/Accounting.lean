import Mathlib.Algebra.Group.Nat.Defs
import Mathlib.Algebra.Ring.Int.Defs
import Mathlib.Tactic.SplitIfs
import YunhouUsers.Inference.Domain

/-!
The pure money rules (`internal/inference/accounting`, `domain/money.go`).
-/

namespace YunhouUsers.Inference.Accounting

def validCurrency (c : String) : Bool :=
  c.length = 3 && c.toList.all (fun r => 'A' ≤ r && r ≤ 'Z')

/-- Its plain errors have no domain code. -/
def newMoney (micros : Int) (currency : String) : Except Err Money :=
  if !validCurrency currency then
    .error (.domain .internal "inference: invalid currency (want ISO-4217 uppercase)")
  else if micros < 0 then
    .error (.domain .internal "inference: negative value not allowed")
  else .ok ⟨micros, currency⟩

def errInsufficientBalance : Err :=
  .domain .insufficientBalance "accounting: wallet balance insufficient for the hold"

/-- Fixes the cash and bonus parts of a hold, bonus first; a negative balance counts as
empty.  The result is `(cash, bonus)`.  The sum of the balances is an `int64` and wraps. -/
def splitFreeze (bonusAvailable cashAvailable amount : Int) : Except Err (Int × Int) :=
  if amount ≤ 0 then
    .error (.domain .invalidInput "accounting: freeze amount must be > 0")
  else if (bonusAvailable + cashAvailable).bmod (2 ^ 64) < amount then
    .error errInsufficientBalance
  else
    let bonus := min amount (max bonusAvailable 0)
    .ok (amount - bonus, bonus)

/-- Maps a charge onto the frozen parts; what exceeds the hold is debited from cash.  The
result is `(consumeCash, consumeBonus, extraCash)`. -/
def splitConsume (holdCash holdBonus charge : Int) : Except Err (Int × Int × Int) :=
  if charge < 0 then
    .error (.domain .invalidInput "accounting: negative charge")
  else
    let consumeBonus := min charge holdBonus
    let rem := charge - consumeBonus
    let consumeCash := min rem holdCash
    .ok (consumeCash, consumeBonus, rem - consumeCash)

structure WalletSums where
  cashCredit : Int
  cashDebit : Int
  bonusCredit : Int
  bonusDebit : Int
  heldCash : Int
  heldBonus : Int
deriving DecidableEq

structure WalletBalance where
  currency : String
  cashAvailable : Int
  bonusAvailable : Int
  cashHeld : Int
  bonusHeld : Int
deriving DecidableEq

def deriveWalletBalance (currency : String) (s : WalletSums) : Except Err WalletBalance :=
  (newMoney 0 currency).map fun _ =>
    { currency := currency
      cashAvailable := s.cashCredit - s.cashDebit - s.heldCash
      bonusAvailable := s.bonusCredit - s.bonusDebit - s.heldBonus
      cashHeld := s.heldCash
      bonusHeld := s.heldBonus }

theorem deriveWalletBalance_ok {currency : String} {s : WalletSums} {bal : WalletBalance}
    (h : deriveWalletBalance currency s = .ok bal) :
    validCurrency currency = true ∧
      bal.cashAvailable = s.cashCredit - s.cashDebit - s.heldCash ∧
      bal.bonusAvailable = s.bonusCredit - s.bonusDebit - s.heldBonus := by
  unfold deriveWalletBalance newMoney at h
  split_ifs at h with valid negative
  · cases h
  · omega
  · cases h
    exact ⟨by simpa using valid, rfl, rfl⟩

structure OverageSettings where
  enabled : Bool
  monthlySpendLimit : Option Int
deriving DecidableEq

def OverageSettings.validate (s : OverageSettings) : Except Err Unit :=
  if s.enabled && s.monthlySpendLimit.isNone then
    .error (.domain .invalidInput
      "accounting: enabling overage requires a monthly spend limit (开启套餐外消费必须设支出上限)")
  else if s.monthlySpendLimit.any (fun l => l < 0) then
    .error (.domain .invalidInput "accounting: spend limit must be >= 0")
  else .ok ()

def errOverageDisabled : Err :=
  .domain .quotaExceeded
    "accounting: out-of-plan wallet spend is not enabled for this account (套餐外消费默认关)"

/-- A validated enabled setting has a limit.  The sum is an `int64` and wraps. -/
def checkWalletSpend (s : OverageSettings) (monthSpent hold : Int) : Except Err Unit := do
  s.validate
  if !s.enabled then .error errOverageDisabled
  if hold < 0 || monthSpent < 0 then
    .error (.domain .invalidInput "accounting: negative spend figure")
  if s.monthlySpendLimit.any (fun limit => (monthSpent + hold).bmod (2 ^ 64) > limit) then
    .error (.domain .quotaExceeded "accounting: monthly spend limit would be exceeded")

def correctionDelta (original corrected : Int) : Except Err (Direction × Int) :=
  if corrected < 0 then
    .error (.domain .invalidInput "accounting: corrected amount must be >= 0")
  else if corrected > original then .ok (.debit, corrected - original)
  else if corrected < original then .ok (.credit, original - corrected)
  else .error (.domain .invalidInput
    "accounting: correction equals the original charge (no-op corrections are not appended)")

def signedDelta : Direction × Int → Int
  | (.debit, delta) => delta
  | (.credit, delta) => -delta

theorem correctionDelta_ok {original corrected : Int} {d : Direction × Int}
    (h : correctionDelta original corrected = .ok d) :
    0 ≤ corrected ∧ 0 < d.2 ∧ signedDelta d = corrected - original := by
  obtain ⟨direction, delta⟩ := d
  unfold correctionDelta at h
  split_ifs at h
  · obtain ⟨rfl, rfl⟩ := Prod.mk.inj (Except.ok.inj h)
    dsimp only [signedDelta]
    omega
  · obtain ⟨rfl, rfl⟩ := Prod.mk.inj (Except.ok.inj h)
    dsimp only [signedDelta]
    omega

theorem bmod_le {x : Int} (low : -2 ^ 63 ≤ x) : x.bmod (2 ^ 64) ≤ x := by
  rw [Int.bmod_def]
  omega

theorem bmod_fits {x : Int} (nonneg : 0 ≤ x) (fits : x < 2 ^ 63) : x.bmod (2 ^ 64) = x :=
  Int.bmod_eq_of_le (by omega) (by omega)

theorem splitFreeze_ok {bonusAvailable cashAvailable amount : Int} {r : Int × Int}
    (low : -2 ^ 63 ≤ bonusAvailable + cashAvailable)
    (h : splitFreeze bonusAvailable cashAvailable amount = .ok r) :
    0 < amount ∧ amount ≤ bonusAvailable + cashAvailable ∧
      r.1 + r.2 = amount ∧ r.2 = min amount (max bonusAvailable 0) := by
  obtain ⟨cash, bonus⟩ := r
  have wrapped := bmod_le low
  unfold splitFreeze at h
  split_ifs at h
  obtain ⟨rfl, rfl⟩ := Prod.mk.inj (Except.ok.inj h)
  exact ⟨by omega, by omega, Int.sub_add_cancel _ _, rfl⟩

theorem splitFreeze_within {bonusAvailable cashAvailable amount : Int} {r : Int × Int}
    (h : splitFreeze bonusAvailable cashAvailable amount = .ok r)
    (bonus : 0 ≤ bonusAvailable) (cash : 0 ≤ cashAvailable) :
    0 ≤ r.1 ∧ 0 ≤ r.2 ∧ r.1 ≤ cashAvailable ∧ r.2 ≤ bonusAvailable := by
  have := splitFreeze_ok (by omega) h
  omega

theorem splitConsume_within {holdCash holdBonus charge : Int} {r : Int × Int × Int}
    (h : splitConsume holdCash holdBonus charge = .ok r) (cash : 0 ≤ holdCash)
    (bonus : 0 ≤ holdBonus) (within : charge ≤ holdCash + holdBonus) :
    0 ≤ r.1 ∧ r.1 ≤ holdCash ∧ 0 ≤ r.2.1 ∧ r.2.1 ≤ holdBonus ∧ r.2.2 = 0 := by
  unfold splitConsume at h
  split_ifs at h
  cases h
  dsimp only
  omega

end YunhouUsers.Inference.Accounting
