import Mathlib.Data.List.Basic

/-!
Steps that change a state and append to an output.  A triple speaks of the state and of
everything written so far.
-/

namespace Transducer

variable {σ ε α : Type}

abbrev Step (σ ε : Type) := σ → σ × List ε

def skip : Step σ ε := fun s => (s, [])

def emit (e : ε) : Step σ ε := fun s => (s, [e])

def seq (f g : Step σ ε) : Step σ ε := fun s => ((g (f s).1).1, (f s).2 ++ (g (f s).1).2)

def each (f : α → Step σ ε) : List α → Step σ ε
  | [] => skip
  | x :: xs => seq (f x) (each f xs)

@[simp] theorem skip_seq (f : Step σ ε) : seq skip f = f := rfl

@[simp] theorem seq_skip (f : Step σ ε) : seq f skip = f := by
  funext s
  simp [seq, skip]

theorem seq_assoc (f g h : Step σ ε) : seq (seq f g) h = seq f (seq g h) := by
  funext s
  simp [seq]

theorem each_cons (f : α → Step σ ε) (x : α) (xs : List α) :
    each f (x :: xs) = seq (f x) (each f xs) := rfl

theorem each_append (f : α → Step σ ε) (xs ys : List α) :
    each f (xs ++ ys) = seq (each f xs) (each f ys) := by
  induction xs with
  | nil => rfl
  | cons x xs ih => rw [List.cons_append, each_cons, each_cons, ih, seq_assoc]

theorem each_map {β : Type} (f : α → Step σ ε) (g : β → α) (ys : List β) :
    each f (ys.map g) = each (fun y => f (g y)) ys := by
  induction ys with
  | nil => rfl
  | cons y ys ih => rw [List.map_cons, each_cons, each_cons, ih]

theorem each_flatMap {β : Type} (f : α → Step σ ε) (g : β → List α) (ys : List β) :
    each f (ys.flatMap g) = each (fun y => each f (g y)) ys := by
  induction ys with
  | nil => rfl
  | cons y ys ih => rw [List.flatMap_cons, each_append, each_cons, ih]

def Writes (P : ε → Prop) (f : Step σ ε) : Prop := ∀ s, ∀ e ∈ (f s).2, P e

variable {step : α → Step σ ε}

def Keeps {π : Type} (part : σ → π) (f : Step σ ε) : Prop := ∀ s, part (f s).1 = part s

namespace Writes

variable {P : ε → Prop} {f g : Step σ ε}

theorem skip : Writes P (skip : Step σ ε) := fun _ _ mem => by cases mem

theorem seq (first : Writes P f) (second : Writes P g) : Writes P (seq f g) := by
  intro s e mem
  rcases List.mem_append.mp mem with mem | mem
  · exact first s e mem
  · exact second _ e mem

theorem each (one : ∀ x, Writes P (step x)) (xs : List α) : Writes P (each step xs) := by
  induction xs with
  | nil => exact skip
  | cons x xs ih => exact (one x).seq ih

end Writes

namespace Keeps

variable {π : Type} {part : σ → π} {f g : Step σ ε}

theorem skip : Keeps part (skip : Step σ ε) := fun _ => rfl

theorem seq (first : Keeps part f) (second : Keeps part g) : Keeps part (seq f g) :=
  fun s => (second _).trans (first s)

theorem each (one : ∀ x, Keeps part (step x)) (xs : List α) : Keeps part (each step xs) := by
  induction xs with
  | nil => exact skip
  | cons x xs ih => exact (one x).seq ih

end Keeps

def Triple (P : σ → List ε → Prop) (f : Step σ ε) (Q : σ → List ε → Prop) : Prop :=
  ∀ s out, P s out → Q (f s).1 (out ++ (f s).2)

namespace Triple

variable {P Q R : σ → List ε → Prop} {f g : Step σ ε}

theorem skip (implies : ∀ s out, P s out → Q s out) : Triple P skip Q := by
  intro s out pre
  simpa [Transducer.skip] using implies s out pre

theorem seq (first : Triple P f Q) (second : Triple Q g R) : Triple P (seq f g) R := by
  intro s out pre
  simpa [Transducer.seq] using second _ _ (first s out pre)

theorem each {I : List α → σ → List ε → Prop}
    (keeps : ∀ done x, Triple (I done) (step x) (I (done ++ [x]))) (done xs : List α) :
    Triple (I done) (each step xs) (I (done ++ xs)) := by
  induction xs generalizing done with
  | nil => exact skip fun _ _ pre => by simpa using pre
  | cons x xs ih =>
    have rest := ih (done ++ [x])
    rw [List.append_assoc, List.singleton_append] at rest
    exact (keeps done x).seq rest

end Triple

end Transducer
