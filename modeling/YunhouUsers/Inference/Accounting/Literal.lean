import Mathlib.Tactic.Linarith
import YunhouUsers.Decimal
import YunhouUsers.Inference.Accounting.Pricing
import YunhouUsers.Trim

/-!
Decimal money literals (`ParseDecimal` of `domain/money.go`, `MicrosFromDecimalMajor` of
`accounting/wallet.go`).
-/

namespace YunhouUsers.Inference.Accounting

open Decimal

def trimSpace : List Char → List Char := Trim.trimSpace (fun c => [c])

def errInvalidDecimal (text : String) : Err :=
  .domain .internal ("inference: invalid decimal literal: " ++ text)

def quoted (cs : List Char) : String := "\"" ++ String.ofList cs ++ "\""

def newRate (num den : Int) : Except Err Rate :=
  if den ≤ 0 ∨ num < 0 then
    .error (.domain .internal
      ("inference: invalid rate (denominator must be > 0, numerator >= 0): " ++
        toString num ++ "/" ++ toString den))
  else .ok ⟨num, den⟩

def setString (digits : List Char) : Option Nat :=
  if digits ≠ [] ∧ digits.all isDigit then some (read 0 digits) else none

def parseDecimal (s : String) : Except Err Rate :=
  let text := trimSpace s.toList
  if text = [] then .error (errInvalidDecimal "empty")
  else
    let intPart := text.takeWhile (· ≠ '.')
    let fracPart := (text.dropWhile (· ≠ '.')).drop 1
    if fracPart.contains '.' then .error (errInvalidDecimal (quoted text))
    else if intPart = [] ∧ fracPart = [] then .error (errInvalidDecimal (quoted text))
    else
      let digits := intPart ++ fracPart
      if digits.any (fun r => !isDigit r) then .error (errInvalidDecimal (quoted text))
      else
        match setString digits with
        | none => .error (errInvalidDecimal (quoted text))
        | some num =>
          let den := 10 ^ fracPart.length
          if maxInt64 < num ∨ maxInt64 < den then
            .error (.domain .internal ("inference: arithmetic overflow: " ++ quoted text))
          else newRate num den

def microsPerMajor : Int := 1000000

def microsFromDecimalMajor (dec currency : String) : Except Err Int := do
  let _ ← newMoney 0 currency
  let rate ← parseDecimal dec
  let micros ← rate.microsForUnits microsPerMajor .roundDown
  let up ← rate.microsForUnits microsPerMajor .roundUp
  if up ≠ micros then
    throw (.domain .invalidInput
      ("accounting: amount " ++ dec ++ " has sub-micro precision; cannot convert exactly"))
  pure micros

theorem newRate_ok {num den : Int} {r : Rate} (pos : 0 < den) (nonneg : 0 ≤ num) :
    newRate num den = .ok r ↔ r = ⟨num, den⟩ := by
  unfold newRate
  rw [if_neg (by omega), Except.ok.injEq, eq_comm]

theorem setString_digits {digits : List Char} (some_ : digits ≠ [])
    (all : ∀ c ∈ digits, isDigit c = true) : setString digits = some (read 0 digits) := by
  unfold setString
  rw [if_pos ⟨some_, List.all_eq_true.mpr all⟩]

/-- The digits as one number and the power of ten under it have to fit. -/
def Fits (int frac : List Char) : Prop :=
  (read 0 (int ++ frac) : Int) ≤ maxInt64 ∧ (10 ^ frac.length : Int) ≤ maxInt64

def rateOf (int frac : List Char) : Rate := ⟨read 0 (int ++ frac), 10 ^ frac.length⟩

theorem pow_ten_pos (n : Nat) : (0 : Int) < 10 ^ n := Int.pow_pos (by decide)

theorem rateOf_valid (int frac : List Char) : (rateOf int frac).Valid :=
  ⟨pow_ten_pos _, Int.natCast_nonneg _⟩

theorem parseDecimal_ok {s : String} {r : Rate} :
    parseDecimal s = .ok r ↔
      ∃ int frac, Plain (trimSpace s.toList) int frac ∧ Fits int frac ∧ r = rateOf int frac := by
  unfold parseDecimal
  generalize trimSpace s.toList = text
  constructor
  · intro ok
    dsimp only at ok
    split_ifs at ok with empty points none_ other
    have digits : ∀ c ∈ text.takeWhile (· ≠ '.') ++ (text.dropWhile (· ≠ '.')).drop 1,
        isDigit c = true := by
      intro c mem
      by_contra bad
      exact other (List.any_eq_true.mpr ⟨c, mem, by simpa using bad⟩)
    have some_ : text.takeWhile (· ≠ '.') ++ (text.dropWhile (· ≠ '.')).drop 1 ≠ [] := by
      intro nothing
      exact none_ (List.append_eq_nil_iff.mp nothing)
    have plain := plain_of_parts digits some_
    rw [setString_digits some_ digits] at ok
    dsimp only at ok
    split_ifs at ok with over_
    rw [newRate_ok (pow_ten_pos _) (Int.natCast_nonneg _)] at ok
    exact ⟨_, _, plain, ⟨by omega, by omega⟩, ok⟩
  · rintro ⟨int, frac, plain, ⟨num, den⟩, rfl⟩
    obtain ⟨before, after⟩ := plain.parts
    have filled : text ≠ [] := by
      rintro rfl
      rcases plain.shape with ⟨rfl, rfl⟩ | shape
      · exact plain.some_ rfl
      · simp at shape
    have pointless : '.' ∉ frac := fun mem =>
      point_of_digits plain.digits (List.mem_append_right _ mem)
    have none_ : ¬ (int = [] ∧ frac = []) := by
      rintro ⟨rfl, rfl⟩
      exact plain.some_ rfl
    have other : ¬ (int ++ frac).any (fun r => !isDigit r) = true := by
      rw [List.any_eq_true]
      rintro ⟨c, mem, bad⟩
      simp [plain.digits c mem] at bad
    dsimp only
    rw [if_neg filled, before, after, if_neg (by simpa using pointless), if_neg none_,
      if_neg other, setString_digits plain.some_ plain.digits]
    dsimp only
    rw [if_neg (by omega), newRate_ok (pow_ten_pos _) (Int.natCast_nonneg _)]
    rfl

theorem microsFromDecimalMajor_ok {dec currency : String} {m : Int} :
    microsFromDecimalMajor dec currency = .ok m ↔ validCurrency currency = true ∧
      ∃ r, parseDecimal dec = .ok r ∧ r.microsForUnits microsPerMajor .roundDown = .ok m ∧
        r.microsForUnits microsPerMajor .roundUp = .ok m := by
  unfold microsFromDecimalMajor newMoney
  by_cases valid : validCurrency currency = true
  · simp only [valid, Bool.not_true, Bool.false_eq_true, if_false, Int.lt_irrefl, true_and]
    cases parsed : parseDecimal dec with
    | error e => simp [bind, Except.bind]
    | ok r =>
      simp only [bind, Except.bind, Except.ok.injEq, exists_eq_left']
      cases down : r.microsForUnits microsPerMajor .roundDown with
      | error e => simp
      | ok micros =>
        cases up : r.microsForUnits microsPerMajor .roundUp with
        | error e => simp
        | ok ceiling =>
          by_cases exact_ : ceiling = micros
          · simp [exact_, pure, Except.pure]
          · simp only [ne_eq, exact_, not_false_eq_true, if_true, throw, throwThe, MonadExceptOf.throw,
              Except.ok.injEq, reduceCtorEq, false_iff]
            omega
  · simp [valid, bind, Except.bind]

theorem rounded_iff {r : Rate} (valid : r.Valid) {m : Int} :
    (r.microsForUnits microsPerMajor .roundDown = .ok m ∧
      r.microsForUnits microsPerMajor .roundUp = .ok m) ↔
      r.num * microsPerMajor = m * r.den ∧ m ≤ maxInt64 := by
  have nonneg : (0 : Int) ≤ microsPerMajor := by decide
  have split := Int.mul_ediv_add_emod (r.num * microsPerMajor) r.den
  have rem_lo := Int.emod_nonneg (r.num * microsPerMajor) (Int.ne_of_gt valid.1)
  constructor
  · rintro ⟨down, up⟩
    obtain ⟨-, -, isDown, -, fits⟩ := Rate.microsForUnits_ok.mp down
    obtain ⟨-, -, isUp, -⟩ := Rate.microsForUnits_up.mp up
    refine ⟨?_, fits⟩
    simp only [Rate.rounded] at isDown
    unfold Rate.cost at isUp
    split at isUp
    · omega
    · have zero : r.num * microsPerMajor % r.den = 0 := by omega
      rw [zero, ← isDown, Int.add_zero] at split
      rw [← split, Int.mul_comm]
  · rintro ⟨exact_, fits⟩
    have quotient : r.num * microsPerMajor / r.den = m := by
      rw [exact_]
      exact Int.mul_ediv_cancel _ (Int.ne_of_gt valid.1)
    have zero : r.num * microsPerMajor % r.den = 0 := by
      rw [exact_]
      exact Int.mul_emod_left _ _
    have cost : r.cost microsPerMajor = m := by
      unfold Rate.cost
      rw [zero, quotient]
      rfl
    have := Rate.cost_nonneg valid nonneg
    refine ⟨Rate.microsForUnits_ok.mpr ⟨nonneg, valid, quotient.symm, ?_, fits⟩,
      Rate.microsForUnits_up.mpr ⟨nonneg, valid, cost.symm, fits⟩⟩
    unfold minInt64
    omega

theorem rateOf_value (int frac : List Char) :
    ((rateOf int frac).num : ℚ) / (rateOf int frac).den = value int frac := by
  rw [value_eq, rateOf]
  push_cast
  rfl

theorem rateOf_micros {int frac : List Char} {m : Int} :
    (rateOf int frac).num * microsPerMajor = m * (rateOf int frac).den ↔
      value int frac * 10 ^ 6 = m := by
  rw [← rateOf_value]
  have pos : ((rateOf int frac).den : ℚ) ≠ 0 := by
    have := (rateOf_valid int frac).1
    exact_mod_cast this.ne'
  rw [div_mul_eq_mul_div, div_eq_iff pos]
  constructor
  · intro same
    have cast := congrArg (Int.cast (R := ℚ)) same
    push_cast [microsPerMajor] at cast
    linarith
  · intro same
    have cast : (((rateOf int frac).num * microsPerMajor : Int) : ℚ) =
        ((m * (rateOf int frac).den : Int) : ℚ) := by
      push_cast [microsPerMajor]
      linarith
    exact_mod_cast cast

/-- A literal is read without rounding: as a rate whenever its digits fit, and as micros whenever
moreover its value is a number of micros that fits. -/
theorem decimal_literals_exact :
    (∀ s r, parseDecimal s = .ok r ↔ ∃ int frac, Plain (trimSpace s.toList) int frac ∧
      Fits int frac ∧ r.den = 10 ^ frac.length ∧ (r.num : ℚ) / r.den = value int frac) ∧
    ∀ dec currency m, microsFromDecimalMajor dec currency = .ok m ↔
      validCurrency currency = true ∧ ∃ int frac, Plain (trimSpace dec.toList) int frac ∧
        Fits int frac ∧ value int frac * 10 ^ 6 = m ∧ m ≤ maxInt64 := by
  constructor
  · intro s r
    rw [parseDecimal_ok]
    constructor
    · rintro ⟨int, frac, plain, fits, rfl⟩
      exact ⟨int, frac, plain, fits, rfl, rateOf_value int frac⟩
    · rintro ⟨int, frac, plain, fits, den, same⟩
      refine ⟨int, frac, plain, fits, ?_⟩
      rw [← rateOf_value, show (rateOf int frac).den = r.den from den.symm] at same
      have pos : (r.den : ℚ) ≠ 0 := by
        rw [den]
        exact_mod_cast (pow_ten_pos _).ne'
      have num : r.num = (rateOf int frac).num := by
        exact_mod_cast (div_left_inj' pos).mp same
      cases r
      simp_all [rateOf]
  · intro dec currency m
    rw [microsFromDecimalMajor_ok]
    refine and_congr_right fun _ => ?_
    constructor
    · rintro ⟨r, parsed, rounded⟩
      obtain ⟨int, frac, plain, fits, rfl⟩ := parseDecimal_ok.mp parsed
      obtain ⟨exact_, small⟩ := (rounded_iff (rateOf_valid int frac)).mp rounded
      exact ⟨int, frac, plain, fits, rateOf_micros.mp exact_, small⟩
    · rintro ⟨int, frac, plain, fits, micros, small⟩
      exact ⟨rateOf int frac, parseDecimal_ok.mpr ⟨int, frac, plain, fits, rfl⟩,
        (rounded_iff (rateOf_valid int frac)).mpr ⟨rateOf_micros.mpr micros, small⟩⟩

/-- A tenth of a micro is a rate; and one unit is refused when it is written with nineteen zeros. -/
theorem literal_precision_limits :
    (parseDecimal "0.0000001").toOption = some ⟨1, 10000000⟩ ∧
    (∀ m : Int, value ['0'] ['0', '0', '0', '0', '0', '0', '1'] * 10 ^ 6 ≠ m) ∧
    Plain "1.0000000000000000000".toList ['1'] (List.replicate 19 '0') ∧
    value ['1'] (List.replicate 19 '0') * 10 ^ 6 = (1000000 : Int) ∧
    (microsFromDecimalMajor "1.0000000000000000000" "CNY").toOption = none := by
  have zero : digit '0' = 0 := rfl
  have one : digit '1' = 1 := rfl
  have digits : ∀ c ∈ ['1'] ++ List.replicate 19 '0', isDigit c = true := by
    intro c mem
    obtain rfl | ⟨-, rfl⟩ : c = '1' ∨ 19 ≠ 0 ∧ c = '0' := by
      simpa only [List.singleton_append, List.mem_cons, List.mem_replicate] using mem
    · rfl
    · rfl
  refine ⟨by decide +kernel, ?_, ⟨by decide, digits, by decide⟩, ?_, by decide +kernel⟩
  · intro m same
    have tenth : (1 : ℚ) / 10 = m := by
      rw [← same]
      norm_num [value, whole, fraction, zero, one]
    have : (10 * m : ℚ) = 1 := by rw [← tenth]; norm_num
    have ten : 10 * m = 1 := by exact_mod_cast this
    omega
  · norm_num [value, whole, fraction, zero, one, List.replicate]

end YunhouUsers.Inference.Accounting
