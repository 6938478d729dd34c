import Mathlib.Data.List.Find

/-!
Trimming white space from both ends of a text, over any encoding of its characters.
-/

namespace Trim

variable {α : Type} [DecidableEq α]

/-- The white space characters of Unicode. -/
def spaces : List Char :=
  ([0x09, 0x0A, 0x0B, 0x0C, 0x0D, 0x20, 0x85, 0xA0, 0x1680] ++ List.range' 0x2000 11 ++
    [0x2028, 0x2029, 0x202F, 0x205F, 0x3000]).map Char.ofNat

/-- Drops the words that stand at the front; `skip` letters of the last one are still to go. -/
def trimLeft (words : List (List α)) : Nat → List α → List α
  | _, [] => []
  | skip + 1, _ :: text => trimLeft words skip text
  | 0, a :: text =>
    match words.find? (·.isPrefixOf (a :: text)) with
    | none => a :: text
    | some w => trimLeft words (w.length - 1) text

def trim (words : List (List α)) (text : List α) : List α :=
  (trimLeft (words.map List.reverse) 0 (trimLeft words 0 text).reverse).reverse

def trimSpace (encode : Char → List α) : List α → List α := trim (spaces.map encode)

variable {words : List (List α)} {mark : α} (text rest : List α)

omit [DecidableEq α] in
theorem prefix_of_absent {w : List α} (absent : mark ∉ w) (front : w <+: text ++ mark :: rest) :
    w <+: text := by
  rcases Nat.le_total w.length text.length with short | long
  · exact List.prefix_of_prefix_length_le front (List.prefix_append _ _) short
  · obtain ⟨tail, rfl⟩ :=
      List.prefix_of_prefix_length_le (List.prefix_append text (mark :: rest)) front long
    cases tail with
    | nil => simp
    | cons a tail =>
      obtain ⟨rfl, -⟩ := List.cons_prefix_cons.mp ((List.prefix_append_right_inj text).mp front)
      exact absurd (List.mem_append_right _ List.mem_cons_self) absent

/-- A letter that is in no word ends the trimming. -/
theorem trimLeft_append (absent : ∀ w ∈ words, w ≠ [] ∧ mark ∉ w) (skip : Nat)
    (inside : skip ≤ text.length) :
    trimLeft words skip (text ++ mark :: rest) = trimLeft words skip text ++ mark :: rest := by
  induction text generalizing skip with
  | nil =>
    obtain rfl : skip = 0 := by simpa using inside
    have none_ : words.find? (·.isPrefixOf (mark :: rest)) = none := by
      rw [List.find?_eq_none]
      intro w mem front
      obtain ⟨filled, other⟩ := absent w mem
      have nothing := prefix_of_absent [] rest other (List.isPrefixOf_iff_prefix.mp front)
      exact filled (List.prefix_nil.mp nothing)
    simp [trimLeft, none_]
  | cons a text ih =>
    cases skip with
    | succ skip => exact ih skip (by simpa using inside)
    | zero =>
      have same : words.find? (·.isPrefixOf (a :: (text ++ mark :: rest))) =
          words.find? (·.isPrefixOf (a :: text)) := by
        apply List.find?_congr
        intro w mem
        rw [Bool.eq_iff_iff, List.isPrefixOf_iff_prefix, List.isPrefixOf_iff_prefix]
        constructor
        · exact prefix_of_absent (a :: text) rest (absent w mem).2
        · exact fun front => front.trans ⟨mark :: rest, rfl⟩
      simp only [List.cons_append, trimLeft, same]
      split
      · rfl
      · rename_i w found
        have front := List.find?_some found
        have short := (List.isPrefixOf_iff_prefix.mp front).length_le
        exact ih _ (by simp only [List.length_cons] at short; omega)

theorem trim_concat (absent : ∀ w ∈ words, w ≠ [] ∧ mark ∉ w) :
    trim words (text ++ [mark]) = trimLeft words 0 text ++ [mark] := by
  have reversed : ∀ w ∈ words.map List.reverse, w ≠ [] ∧ mark ∉ w :=
    List.forall_mem_map.mpr fun w mem => by simpa using absent w mem
  have last := trimLeft_append [] (trimLeft words 0 text).reverse reversed 0 (Nat.zero_le _)
  rw [trim, trimLeft_append text [] absent 0 (Nat.zero_le _)]
  simpa [trimLeft] using congrArg List.reverse last

end Trim
