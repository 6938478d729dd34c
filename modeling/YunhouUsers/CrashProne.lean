import Mathlib.Data.List.Basic

/-!
Programs that call their surroundings and may die before any call.

What a call answers is decided by the surroundings; an oracle fixes these decisions and
says where the process dies.  `Prog.Holds` is the logic for it: an invariant that holds at
every point where the process can die, and a postcondition for when it does not.
-/

namespace CrashProne

/-- The calls of a program over worlds `W`: what the surroundings decide, what the program
is told, and what becomes of the world. -/
structure Calls (W : Type) where
  Op : Type
  Choice : Op → Type
  Result : Op → Type
  exec : (op : Op) → Choice op → W → Result op × W

variable {W : Type} {C : Calls W} {α β : Type}

inductive Prog (C : Calls W) (α : Type) where
  | done (a : α)
  | call (op : C.Op) (next : C.Result op → Prog C α)

/-- The decision at the `n`-th call; `none` is the death of the process. -/
abbrev Oracle (C : Calls W) := Nat → (op : C.Op) → Option (C.Choice op)

def Oracle.Obeys (oracle : Oracle C) (allowed : (op : C.Op) → C.Choice op → Prop) : Prop :=
  ∀ n op c, oracle n op = some c → allowed op c

namespace Prog

def bind : Prog C α → (α → Prog C β) → Prog C β
  | .done a, f => f a
  | .call op next, f => .call op (fun r => (next r).bind f)

instance : Monad (Prog C) where
  pure := .done
  bind := .bind

def perform (op : C.Op) : Prog C (C.Result op) := .call op .done

def each (body : β → Prog C Unit) : List β → Prog C Unit
  | [] => .done ()
  | x :: xs => (body x).bind (fun _ => each body xs)

def run (oracle : Oracle C) : Prog C α → Nat → W → Option α × W
  | .done a, _, w => (some a, w)
  | .call op next, n, w =>
    match oracle n op with
    | none => (none, w)
    | some c => (next (C.exec op c w).1).run oracle (n + 1) (C.exec op c w).2

/-- `inv` holds at every call and at the end, `post` when the program gets there, as long
as the surroundings decide only what is `allowed`. -/
def Holds (allowed : (op : C.Op) → C.Choice op → Prop) (inv : W → Prop) (post : α → W → Prop) :
    Prog C α → W → Prop
  | .done a, w => inv w ∧ post a w
  | .call op next, w => inv w ∧ ∀ c, allowed op c →
      (next (C.exec op c w).1).Holds allowed inv post (C.exec op c w).2

def Plays (allowed : W → (op : C.Op) → C.Choice op → Prop) : Prog C α → W → α → W → Prop
  | .done a, w, b, w' => b = a ∧ w' = w
  | .call op next, w, b, w' => ∃ c, allowed w op c ∧
      (next (C.exec op c w).1).Plays allowed (C.exec op c w).2 b w'

def play (allowed : W → (op : C.Op) → C.Choice op → Prop) [∀ w op c, Decidable (allowed w op c)]
    (choose : W → (op : C.Op) → C.Choice op) : Prog C α → W → Option (α × W)
  | .done a, w => some (a, w)
  | .call op next, w =>
    if allowed w op (choose w op) then
      (next (C.exec op (choose w op) w).1).play allowed choose (C.exec op (choose w op) w).2
    else none

def Only (P : C.Op → Prop) : Prog C α → Prop
  | .done _ => True
  | .call op next => P op ∧ ∀ r, (next r).Only P

/-- No call of the program touches this part of the world. -/
abbrev Keeps {π : Type} (part : W → π) : Prog C α → Prop :=
  Only fun op => ∀ c w, part (C.exec op c w).2 = part w

variable {allowed : (op : C.Op) → C.Choice op → Prop} {inv : W → Prop} {post : α → W → Prop}
  {mid : β → W → Prop} {w : W} {p : Prog C β} {f : β → Prog C α}

theorem Holds.bind (first : p.Holds allowed inv mid w)
    (rest : ∀ b w', inv w' → mid b w' → (f b).Holds allowed inv post w') :
    (p >>= f).Holds allowed inv post w := by
  show (p.bind f).Holds allowed inv post w
  induction p generalizing w with
  | done b => exact rest b w first.1 first.2
  | call op next ih => exact ⟨first.1, fun c ok => ih _ (first.2 c ok)⟩

theorem Holds.done {a : α} (holds : inv w) (ends : post a w) :
    (pure a : Prog C α).Holds allowed inv post w := ⟨holds, ends⟩

variable {op : C.Op}

theorem Holds.perform {post : C.Result op → W → Prop} (holds : inv w)
    (step : ∀ c, allowed op c → inv (C.exec op c w).2 ∧ post (C.exec op c w).1 (C.exec op c w).2) :
    (Prog.perform op).Holds allowed inv post w := ⟨holds, step⟩

theorem Holds.mono {p : Prog C α} {post' : α → W → Prop} (holds : p.Holds allowed inv post w)
    (weaker : ∀ a w, inv w → post a w → post' a w) : p.Holds allowed inv post' w := by
  induction p generalizing w with
  | done a => exact ⟨holds.1, weaker a w holds.1 holds.2⟩
  | call op next ih => exact ⟨holds.1, fun c ok => ih _ (holds.2 c ok)⟩

variable {body : β → Prog C Unit}

theorem Holds.each {xs : List β} (holds : inv w)
    (step : ∀ x w, inv w → (body x).Holds allowed inv (fun _ _ => True) w) :
    (Prog.each body xs).Holds allowed inv (fun _ _ => True) w := by
  induction xs generalizing w with
  | nil => exact ⟨holds, trivial⟩
  | cons x xs ih => exact .bind (step x w holds) fun _ w' keep _ => ih keep

theorem Holds.run {p : Prog C α} (holds : p.Holds allowed inv post w) {oracle : Oracle C}
    (obeys : oracle.Obeys allowed) (n : Nat) : inv (p.run oracle n w).2 := by
  induction p generalizing w n with
  | done a => exact holds.1
  | call op next ih =>
    unfold Prog.run
    cases decision : oracle n op with
    | none => exact holds.1
    | some c => exact ih _ (holds.2 c (obeys n op c decision)) (n + 1)

theorem Only.holds {π : Type} {part : W → π} {p : Prog C α} (keeps : p.Keeps part)
    (only : ∀ w w', part w' = part w → inv w → inv w') (holds : inv w) :
    p.Holds allowed inv (fun _ w' => part w' = part w) w := by
  induction p generalizing w with
  | done a => exact ⟨holds, rfl⟩
  | call op next ih =>
    refine ⟨holds, fun c _ => ?_⟩
    have same := keeps.1 c w
    exact (ih _ (keeps.2 _) (only _ _ same holds)).mono fun _ _ _ kept => kept.trans same

section Plays

variable {can : W → (op : C.Op) → C.Choice op → Prop} {w' : W}

theorem plays_bind {b : α} :
    (p >>= f).Plays can w b w' ↔ ∃ a w₁, p.Plays can w a w₁ ∧ (f a).Plays can w₁ b w' := by
  show (p.bind f).Plays can w b w' ↔ _
  induction p generalizing w with
  | done a => simp [Prog.bind, Plays]
  | call op next ih =>
    simp only [Prog.bind, Plays, ih]
    constructor
    · rintro ⟨c, ok, a, w₁, first, rest⟩
      exact ⟨a, w₁, ⟨c, ok, first⟩, rest⟩
    · rintro ⟨a, w₁, ⟨c, ok, first⟩, rest⟩
      exact ⟨c, ok, a, w₁, first, rest⟩

theorem plays_perform {r : C.Result op} :
    (Prog.perform op).Plays can w r w' ↔
      ∃ c, can w op c ∧ r = (C.exec op c w).1 ∧ w' = (C.exec op c w).2 := Iff.rfl

theorem plays_perform_bind {f : C.Result op → Prog C α} {b : α} :
    (Prog.perform op >>= f).Plays can w b w' ↔
      ∃ c, can w op c ∧ (f (C.exec op c w).1).Plays can (C.exec op c w).2 b w' := Iff.rfl

theorem Plays.each {xs : List β} {I : List β → W → Prop} (start : I [] w)
    (step : ∀ ys x zs, xs = ys ++ x :: zs → ∀ w w', I ys w → (body x).Plays can w () w' →
      I (ys ++ [x]) w') (ran : (Prog.each body xs).Plays can w () w') : I xs w' := by
  suffices rest : ∀ ys zs, xs = ys ++ zs → ∀ w, I ys w → (Prog.each body zs).Plays can w () w' →
      I xs w' from rest [] xs rfl w start ran
  intro ys zs
  induction zs generalizing ys with
  | nil =>
    intro all w here ran
    rw [all, List.append_nil]
    exact ran.2 ▸ here
  | cons x zs ih =>
    intro all w here ran
    obtain ⟨_, w₁, first, rest⟩ := plays_bind.mp ran
    exact ih (ys ++ [x]) (by simp [all]) w₁ (step ys x zs all w w₁ here first) rest

theorem plays_of_play [∀ w op c, Decidable (can w op c)]
    {choose : W → (op : C.Op) → C.Choice op} {p : Prog C α} {b : α}
    (ran : p.play can choose w = some (b, w')) : p.Plays can w b w' := by
  induction p generalizing w with
  | done a =>
    cases ran
    exact ⟨rfl, rfl⟩
  | call op next ih =>
    unfold play at ran
    split_ifs at ran with ok
    exact ⟨_, ok, ih _ ran⟩

end Plays

section Only

variable {P : C.Op → Prop}

theorem Only.bind (first : p.Only P) (rest : ∀ b, (f b).Only P) : (p >>= f).Only P := by
  show (p.bind f).Only P
  induction p with
  | done b => exact rest b
  | call op next ih => exact ⟨first.1, fun r => ih r (first.2 r)⟩

theorem Only.pure (a : α) : (Pure.pure a : Prog C α).Only P := trivial

theorem Only.perform (allowed : P op) : (Prog.perform op).Only P :=
  ⟨allowed, fun _ => trivial⟩

theorem Only.each (step : ∀ x, (body x).Only P) (xs : List β) : (Prog.each body xs).Only P := by
  induction xs with
  | nil => trivial
  | cons x xs ih => exact .bind (step x) fun _ => ih

end Only

end Prog

end CrashProne
