import Mathlib.Algebra.Order.Ring.Rat
import Mathlib.Data.List.TakeWhile
import Mathlib.Tactic.FieldSimp
import Mathlib.Tactic.Ring

/-!
Decimal literals: what a string of digits before and after the point is worth, and the two ways to
compute it.
-/

namespace Decimal

def isDigit (c : Char) : Bool := '0' ≤ c && c ≤ '9'

def digit (c : Char) : Nat := c.toNat - 48

def read (v : Nat) (cs : List Char) : Nat := cs.foldl (fun v c => 10 * v + digit c) v

theorem read_cons (v : Nat) (c : Char) (cs : List Char) :
    read v (c :: cs) = read (10 * v + digit c) cs := List.foldl_cons ..

def whole : List Char → Nat
  | [] => 0
  | c :: cs => digit c * 10 ^ cs.length + whole cs

def fraction : List Char → ℚ
  | [] => 0
  | c :: cs => (digit c + fraction cs) / 10

def value (int frac : List Char) : ℚ := whole int + fraction frac

theorem read_eq (v : Nat) (cs : List Char) : read v cs = v * 10 ^ cs.length + whole cs := by
  induction cs generalizing v with
  | nil => simp [read, whole]
  | cons c cs ih =>
    rw [read_cons, ih, whole, List.length_cons]
    ring

theorem whole_append (int frac : List Char) :
    whole (int ++ frac) = whole int * 10 ^ frac.length + whole frac := by
  induction int with
  | nil => simp [whole]
  | cons c cs ih =>
    rw [List.cons_append, whole, ih, whole, List.length_append]
    ring

theorem fraction_eq (frac : List Char) : fraction frac = whole frac / 10 ^ frac.length := by
  induction frac with
  | nil => simp [fraction, whole]
  | cons c cs ih =>
    rw [fraction, ih, whole, List.length_cons]
    push_cast
    field_simp
    ring

theorem value_eq (int frac : List Char) :
    value int frac = read 0 (int ++ frac) / 10 ^ frac.length := by
  rw [value, fraction_eq, read_eq, whole_append]
  push_cast
  field_simp
  ring

/-- A literal: digits, at most one point, at least one digit. -/
structure Plain (text int frac : List Char) : Prop where
  shape : text = int ∧ frac = [] ∨ text = int ++ '.' :: frac
  digits : ∀ c ∈ int ++ frac, isDigit c = true
  some_ : int ++ frac ≠ []

theorem point_of_digits {cs : List Char} (digits : ∀ c ∈ cs, isDigit c = true) : '.' ∉ cs := by
  intro mem
  exact absurd (digits '.' mem) (by decide)

theorem Plain.parts {text int frac : List Char} (plain : Plain text int frac) :
    text.takeWhile (· ≠ '.') = int ∧ (text.dropWhile (· ≠ '.')).drop 1 = frac := by
  have before : ∀ c ∈ int, (c ≠ '.' : Bool) = true := by
    intro c mem
    have : c ≠ '.' := fun same => point_of_digits plain.digits (same ▸ List.mem_append_left _ mem)
    simpa using this
  rcases plain.shape with ⟨rfl, rfl⟩ | rfl
  · rw [List.dropWhile_eq_nil_iff.mpr before]
    exact ⟨List.takeWhile_eq_self_iff.mpr before, rfl⟩
  · rw [List.takeWhile_append_of_pos before, List.dropWhile_append_of_pos before]
    simp

theorem plain_of_parts {text : List Char}
    (digits : ∀ c ∈ text.takeWhile (· ≠ '.') ++ (text.dropWhile (· ≠ '.')).drop 1,
      isDigit c = true)
    (some_ : text.takeWhile (· ≠ '.') ++ (text.dropWhile (· ≠ '.')).drop 1 ≠ []) :
    Plain text (text.takeWhile (· ≠ '.')) ((text.dropWhile (· ≠ '.')).drop 1) := by
  refine ⟨?_, digits, some_⟩
  have split := List.takeWhile_append_dropWhile (p := (· ≠ '.')) (l := text)
  cases rest : text.dropWhile (· ≠ '.') with
  | nil =>
    rw [rest, List.append_nil] at split
    exact .inl ⟨split.symm, rfl⟩
  | cons c cs =>
    have point : c = '.' := by
      have first := List.head?_dropWhile_not (· ≠ '.') text
      rw [rest] at first
      simpa using first
    subst point
    rw [rest] at split
    exact .inr split.symm

end Decimal
