import YunhouUsers.Inference.Providers.Lines
import YunhouUsers.Inference.Providers.ResponsesStream
import YunhouUsers.Inference.Providers.Simulation

/-!
How the client surfaces end their streams: with a completion marker, or with an error.
-/

namespace YunhouUsers.Inference.Providers

open Transducer

inductive Mark where
  | completed
  | failed
deriving DecidableEq

def PumpEvent.mark : PumpEvent → Option Mark
  | .done => some .completed
  | .chunk c => if c.error.isSome then some .failed else none

variable (unmarshal : Bytes → Option OpenAIStreamChunk)

/-- What the pump hands to the renderer; the flag says that it was a line of the source, and not
what was left of a line over the cap. -/
def hears (reads : List Bytes) : List (Bool × PumpEvent) :=
  (cutLines [] reads).filterMap fun l => (l.scan unmarshal).map fun e => (l.whole, e)

theorem pump_hears (reads : List Bytes) :
    pump unmarshal [] reads = (hears unmarshal reads).map Prod.snd := by
  rw [pump_eq, hears, List.map_filterMap]
  apply List.filterMap_congr
  intro l _
  cases l.scan unmarshal <;> rfl

variable (heard : List (Bool × PumpEvent))

/-- The source says `[DONE]`, and no error chunk came before it. -/
def Closes : Prop :=
  ∃ before after, heard = before ++ (true, .done) :: after ∧
    ∀ h ∈ before, h.2.mark ≠ some .failed

structure Truthful {ε : Type} (mark : ε → Option Mark) (heard : List (Bool × PumpEvent))
    (out : List ε) : Prop where
  completes : (∃ e ∈ out, mark e = some .completed) ↔ Closes heard
  fails : ¬ Closes heard → ∃ body last, out = body ++ [last] ∧ mark last = some .failed ∧
    ∀ e ∈ body, mark e = none
  once : (out.filterMap mark).length ≤ 1

structure Surface {σ ε : Type} (r : StreamRenderer σ ε) (mark : ε → Option Mark)
    (relayed : σ → Bool) : Prop where
  marks : ∀ e s, (r.render e s).2.filterMap mark = e.mark.toList
  relays : ∀ e s, relayed (r.render e s).1 = (relayed s || e.mark = some .failed)
  failing : ∀ c s, c.error.isSome → ∃ body last, (r.render (.chunk c) s).2 = body ++ [last] ∧
    mark last = some .failed
  broken : ∀ s, relayed s = false → ∃ body last, (r.brokenEnd s).2 = body ++ [last] ∧
    mark last = some .failed ∧ ∀ e ∈ body, mark e = none
  relayed : ∀ s, relayed s = true → (r.brokenEnd s).2 = []

structure Uneventful {σ ε π : Type} (mark : ε → Option Mark) (part : σ → π) (f : Step σ ε) :
    Prop where
  writes : Writes (fun e => mark e = none) f
  keeps : Keeps part f

namespace Uneventful

variable {σ ε α π : Type} {mark : ε → Option Mark} {part : σ → π} {f g : Step σ ε}

theorem skip : Uneventful mark part (skip : Step σ ε) := ⟨.skip, .skip⟩

theorem seq (first : Uneventful mark part f) (second : Uneventful mark part g) :
    Uneventful mark part (seq f g) :=
  ⟨first.writes.seq second.writes, first.keeps.seq second.keeps⟩

theorem each {step : α → Step σ ε} (one : ∀ x, Uneventful mark part (step x)) (xs : List α) :
    Uneventful mark part (each step xs) :=
  ⟨.each (fun x => (one x).writes) xs, .each (fun x => (one x).keeps) xs⟩

theorem of_choice (one : ∀ s, ∃ g, Uneventful mark part g ∧ f s = g s) :
    Uneventful mark part f := by
  constructor
  · intro s
    obtain ⟨g, uneventful, same⟩ := one s
    rw [same]
    exact uneventful.writes s
  · intro s
    obtain ⟨g, uneventful, same⟩ := one s
    rw [same]
    exact uneventful.keeps s

theorem silent (same : ∀ s, (f s).2 = [] ∧ part (f s).1 = part s) :
    Uneventful mark part f :=
  ⟨fun s e mem => (by rw [(same s).1] at mem; cases mem), fun s => (same s).2⟩

theorem one (same : ∀ s, ∃ e, mark e = none ∧ (f s).2 = [e] ∧ part (f s).1 = part s) :
    Uneventful mark part f := by
  constructor
  · intro s e mem
    obtain ⟨x, free, is, -⟩ := same s
    rw [is] at mem
    rw [List.mem_singleton.mp mem]
    exact free
  · intro s
    obtain ⟨_, _, _, kept⟩ := same s
    exact kept

theorem marks (uneventful : Uneventful mark part f) (s : σ) : (f s).2.filterMap mark = [] :=
  List.filterMap_eq_nil_iff.mpr (uneventful.writes s)

theorem less {π' : Type} (uneventful : Uneventful mark part f) (g : π → π') :
    Uneventful mark (fun s => g (part s)) f :=
  ⟨uneventful.writes, fun s => congrArg g (uneventful.keeps s)⟩

end Uneventful

/-- One event decides, and nothing is written after an error. -/
def Decided (quiet : List (Bool × PumpEvent) → List (Bool × PumpEvent) → Prop) : Prop :=
  (∀ h ∈ heard, h.2.mark = none) ∨
  (∃ before after, heard = before ++ (true, .done) :: after ∧
    ∀ h ∈ before ++ after, h.2.mark = none) ∨
  ∃ before whole c after, heard = before ++ (whole, .chunk c) :: after ∧ c.error.isSome ∧
    (∀ h ∈ before ++ after, h.2.mark = none) ∧ quiet before after

theorem first_marked :
    (∀ h ∈ heard, h.2.mark = none) ∨ ∃ before h after, heard = before ++ h :: after ∧
      (∀ x ∈ before, x.2.mark = none) ∧ h.2.mark ≠ none := by
  induction heard with
  | nil => exact .inl (by simp)
  | cons h heard ih =>
    by_cases free : h.2.mark = none
    · rcases ih with none | ⟨before, x, after, rfl, none, marked⟩
      · exact .inl (List.forall_mem_cons.mpr ⟨free, none⟩)
      · exact .inr ⟨h :: before, x, after, rfl, List.forall_mem_cons.mpr ⟨free, none⟩, marked⟩
    · exact .inr ⟨[], h, heard, rfl, by simp, free⟩

section Surfaces

variable {σ ε : Type} {r : StreamRenderer σ ε} {mark : ε → Option Mark} {relayed : σ → Bool}
  (surface : Surface r mark relayed)
include surface

theorem Surface.marks_each (events : List PumpEvent) (s : σ) :
    (each r.render events s).2.filterMap mark = events.filterMap PumpEvent.mark := by
  induction events generalizing s with
  | nil => rfl
  | cons e events ih =>
    rw [each_cons, seq, List.filterMap_append, surface.marks, ih, List.filterMap_cons]
    cases e.mark <;> rfl

theorem Surface.relays_each (events : List PumpEvent) (s : σ) :
    relayed (each r.render events s).1 =
      (relayed s || events.any (·.mark = some .failed)) := by
  induction events generalizing s with
  | nil => simp [each, skip]
  | cons e events ih =>
    rw [each_cons, seq, ih, surface.relays, List.any_cons, Bool.or_assoc]

def written (r : StreamRenderer σ ε) (heard : List (Bool × PumpEvent)) (s : σ) : List ε :=
  (seq (each r.render (heard.map Prod.snd))
    (if (heard.map Prod.snd).any (fun e => e = .done) then skip else r.brokenEnd) s).2

variable {heard : List (Bool × PumpEvent)}

omit surface in
theorem marks_nil :
    (heard.map Prod.snd).filterMap PumpEvent.mark = [] ↔ ∀ h ∈ heard, h.2.mark = none := by
  rw [List.filterMap_eq_nil_iff, List.forall_mem_map]

omit surface in
theorem no_done (open_ : ∀ h ∈ heard, h.2.mark ≠ some .completed) :
    (heard.map Prod.snd).any (fun e => e = .done) = false := by
  rw [List.any_eq_false]
  intro e mem
  obtain ⟨h, there, rfl⟩ := List.mem_map.mp mem
  simp only [decide_eq_true_eq]
  intro done
  exact open_ h there (by rw [done]; rfl)

omit surface in
theorem not_closes (open_ : ∀ h ∈ heard, h.2.mark ≠ some .completed) : ¬ Closes heard := by
  rintro ⟨before, after, rfl, -⟩
  exact open_ (true, .done) (by simp) rfl

omit surface in
theorem not_completed {body : List ε} {last : ε} (failed : mark last = some .failed)
    (bare : ∀ e ∈ body, mark e = none) : ¬ ∃ e ∈ body ++ [last], mark e = some .completed := by
  rintro ⟨e, mem, completed⟩
  rcases List.mem_append.mp mem with mem | mem
  · rw [bare e mem] at completed
    cases completed
  · rw [List.mem_singleton.mp mem, failed] at completed
    cases completed

omit surface in
theorem truthful_failing {out body : List ε} {last : ε}
    (open_ : ∀ h ∈ heard, h.2.mark ≠ some .completed) (all : out = body ++ [last])
    (failed : mark last = some .failed) (bare : ∀ e ∈ body, mark e = none) :
    Truthful mark heard out := by
  subst all
  refine ⟨iff_of_false (not_completed failed bare) (not_closes open_),
    fun _ => ⟨body, last, rfl, failed, bare⟩, ?_⟩
  rw [List.filterMap_append, List.filterMap_eq_nil_iff.mpr bare]
  simp [failed]

variable {s : σ}

theorem Surface.truthful_broken
    (fresh : relayed s = false) (unmarked : ∀ h ∈ heard, h.2.mark = none) :
    Truthful mark heard (written r heard s) := by
  have open_ : ∀ h ∈ heard, h.2.mark ≠ some .completed := fun h mem => by simp [unmarked h mem]
  have silent := surface.marks_each (heard.map Prod.snd) s
  rw [marks_nil.mpr unmarked, List.filterMap_eq_nil_iff] at silent
  have still : relayed (each r.render (heard.map Prod.snd) s).1 = false := by
    rw [surface.relays_each, fresh, Bool.false_or, List.any_eq_false]
    intro e mem
    obtain ⟨h, there, rfl⟩ := List.mem_map.mp mem
    simp [unmarked h there]
  obtain ⟨body, last, ends, failed, free⟩ := surface.broken _ still
  have all : written r heard s = ((each r.render (heard.map Prod.snd) s).2 ++ body) ++ [last] := by
    simp [written, no_done open_, seq, ends]
  have bare : ∀ e ∈ (each r.render (heard.map Prod.snd) s).2 ++ body, mark e = none :=
    List.forall_mem_append.mpr ⟨silent, free⟩
  exact truthful_failing open_ all failed bare

omit surface in
theorem translateStream_written (unmarshal : Bytes → Option OpenAIStreamChunk) (reads : List Bytes)
    (s : σ) : (translateStream unmarshal r reads s).2 = written r (hears unmarshal reads) s := by
  simp only [translateStream, written, pump_hears]

theorem Surface.marks_written (heard : List (Bool × PumpEvent)) (s : σ) :
    ∃ more, (written r heard s).filterMap mark =
      (heard.map Prod.snd).filterMap PumpEvent.mark ++ more := by
  rw [written, seq, List.filterMap_append, surface.marks_each]
  exact ⟨_, rfl⟩

theorem Surface.completes_iff (heard : List (Bool × PumpEvent)) (s : σ) :
    (∃ e ∈ written r heard s, mark e = some .completed) ↔
      (heard.map Prod.snd).any (fun e => e = .done) = true := by
  constructor
  · rintro ⟨e, mem, completed⟩
    by_contra open_
    simp only [written, open_, if_false, seq] at mem
    rcases List.mem_append.mp mem with mem | mem
    · have marked := List.mem_filterMap.mpr ⟨e, mem, completed⟩
      rw [surface.marks_each] at marked
      obtain ⟨x, there, is⟩ := List.mem_filterMap.mp marked
      apply open_
      rw [List.any_eq_true]
      refine ⟨x, there, ?_⟩
      cases x with
      | done => rfl
      | chunk c =>
        rw [PumpEvent.mark] at is
        split at is <;> cases is
    · cases said : relayed (each r.render (heard.map Prod.snd) s).1 with
      | true =>
        rw [surface.relayed _ said] at mem
        cases mem
      | false =>
        obtain ⟨body, last, ends, failed, free⟩ := surface.broken _ said
        rw [ends] at mem
        exact not_completed failed free ⟨e, mem, completed⟩
  · intro done
    obtain ⟨e, there, is⟩ := List.any_eq_true.mp done
    obtain ⟨more, marks⟩ := surface.marks_written heard s
    have marked : Mark.completed ∈ (written r heard s).filterMap mark := by
      rw [marks, List.mem_append]
      exact .inl (List.mem_filterMap.mpr ⟨e, there, by rw [of_decide_eq_true is]; rfl⟩)
    exact List.mem_filterMap.mp marked

variable {before after : List (Bool × PumpEvent)}

theorem Surface.not_once {h : Bool × PumpEvent}
    (marked : h.2.mark ≠ none) (again : ¬ ∀ x ∈ after, x.2.mark = none) :
    ¬ Truthful mark (before ++ h :: after) (written r (before ++ h :: after) s) := by
  intro truthful
  obtain ⟨more, marks⟩ := surface.marks_written (before ++ h :: after) s
  have once := truthful.once
  obtain ⟨m, is⟩ := Option.ne_none_iff_exists'.mp marked
  have second : (after.map Prod.snd).filterMap PumpEvent.mark ≠ [] := fun nil =>
    again (marks_nil.mp nil)
  have := List.length_pos_iff.mpr second
  rw [marks, List.map_append, List.map_cons, List.filterMap_append, List.filterMap_cons, is] at once
  simp only [List.length_append, List.length_cons] at once
  omega

theorem Surface.truthful_done {whole : Bool} (unmarked : ∀ h ∈ before ++ after, h.2.mark = none) :
    Truthful mark (before ++ (whole, .done) :: after)
      (written r (before ++ (whole, .done) :: after) s) ↔ whole = true := by
  obtain ⟨unmarked_before, unmarked_after⟩ := List.forall_mem_append.mp unmarked
  have done : ((before ++ (whole, PumpEvent.done) :: after).map Prod.snd).any
      (fun e => e = .done) = true := by simp
  have marks : (written r (before ++ (whole, .done) :: after) s).filterMap mark =
      [.completed] := by
    simp only [written, done, if_true, seq_skip]
    rw [surface.marks_each, List.map_append, List.map_cons, List.filterMap_append,
      marks_nil.mpr unmarked_before, List.filterMap_cons, marks_nil.mpr unmarked_after]
    rfl
  have emitted : ∃ e ∈ written r (before ++ (whole, .done) :: after) s,
      mark e = some .completed := by
    have : Mark.completed ∈ (written r (before ++ (whole, .done) :: after) s).filterMap mark := by
      simp [marks]
    exact List.mem_filterMap.mp this
  constructor
  · intro truthful
    obtain ⟨start, rest, split, -⟩ := truthful.completes.mp emitted
    have mem : (true, PumpEvent.done) ∈ before ++ (whole, .done) :: after := by simp [split]
    rcases List.mem_append.mp mem with mem | mem
    · cases unmarked_before _ mem
    · rcases List.mem_cons.mp mem with same | mem
      · exact (congrArg Prod.fst same).symm
      · cases unmarked_after _ mem
  · rintro rfl
    have closes : Closes (before ++ (true, .done) :: after) :=
      ⟨before, after, rfl, fun h mem => by simp [unmarked_before h mem]⟩
    exact ⟨iff_of_true emitted closes, fun other => absurd closes other, by simp [marks]⟩

theorem Surface.truthful_error {whole : Bool} {c : OpenAIStreamChunk} (error : c.error.isSome)
    (unmarked : ∀ h ∈ before ++ after, h.2.mark = none) :
    Truthful mark (before ++ (whole, .chunk c) :: after)
        (written r (before ++ (whole, .chunk c) :: after) s) ↔
      (each r.render (after.map Prod.snd)
        (each r.render (before.map Prod.snd ++ [.chunk c]) s).1).2 = [] := by
  obtain ⟨unmarked_before, unmarked_after⟩ := List.forall_mem_append.mp unmarked
  have is : (PumpEvent.chunk c).mark = some .failed := by simp [PumpEvent.mark, error]
  have open_ : ∀ h ∈ before ++ (whole, PumpEvent.chunk c) :: after,
      h.2.mark ≠ some .completed := by
    intro h mem
    rcases List.mem_append.mp mem with mem | mem
    · simp [unmarked_before h mem]
    · rcases List.mem_cons.mp mem with rfl | mem
      · simp [is]
      · simp [unmarked_after h mem]
  have split : (before ++ (whole, PumpEvent.chunk c) :: after).map Prod.snd =
      (before.map Prod.snd ++ [.chunk c]) ++ after.map Prod.snd := by simp
  have said : relayed (each r.render ((before ++ (whole, .chunk c) :: after).map Prod.snd) s).1 =
      true := by
    rw [surface.relays_each, List.any_eq_true.mpr ⟨.chunk c, by simp, by simp [is]⟩, Bool.or_true]
  -- everything up to the error, and what the chunks after it add
  obtain ⟨body, last, ends, failed⟩ := surface.failing c (each r.render (before.map Prod.snd) s).1
    error
  have upTo : (each r.render (before.map Prod.snd ++ [.chunk c]) s).2 =
      ((each r.render (before.map Prod.snd) s).2 ++ body) ++ [last] := by
    rw [each_append, seq]
    simp [each, seq_skip, ends]
  have all : written r (before ++ (whole, .chunk c) :: after) s =
      (each r.render (before.map Prod.snd ++ [.chunk c]) s).2 ++
        (each r.render (after.map Prod.snd)
          (each r.render (before.map Prod.snd ++ [.chunk c]) s).1).2 := by
    simp only [written, no_done open_, Bool.false_eq_true, if_false]
    rw [seq, surface.relayed _ said, List.append_nil, split, each_append, seq]
  have bare : ∀ e ∈ (each r.render (before.map Prod.snd) s).2 ++ body, mark e = none := by
    have marks := surface.marks_each (before.map Prod.snd ++ [.chunk c]) s
    rw [upTo, List.filterMap_append, List.filterMap_append (l := before.map Prod.snd),
      marks_nil.mpr unmarked_before] at marks
    simp only [List.filterMap_cons, List.filterMap_nil, failed, is] at marks
    exact List.filterMap_eq_nil_iff.mp (List.append_cancel_right marks)
  constructor
  · intro truthful
    obtain ⟨body', last', whole', failed', -⟩ := truthful.fails (not_closes open_)
    by_contra more
    obtain ⟨rest, e, eq⟩ := List.eq_nil_or_concat _ |>.resolve_left more
    have quiet := surface.marks_each (after.map Prod.snd)
      (each r.render (before.map Prod.snd ++ [.chunk c]) s).1
    rw [marks_nil.mpr unmarked_after, eq, List.filterMap_eq_nil_iff] at quiet
    rw [all, eq, List.concat_eq_append, ← List.append_assoc] at whole'
    have same := (List.append_inj' whole' rfl).2
    have : mark e = none := quiet e (by simp)
    rw [(List.cons.inj same).1, failed'] at this
    cases this
  · intro nothing
    rw [nothing, List.append_nil, upTo] at all
    exact truthful_failing open_ all failed bare

theorem Surface.truthful_iff (fresh : relayed s = false)
    {quiet : List (Bool × PumpEvent) → List (Bool × PumpEvent) → Prop}
    (agrees : ∀ before c after, c.error.isSome → (∀ h ∈ before ++ after, h.2.mark = none) →
      ((each r.render (after.map Prod.snd)
        (each r.render (before.map Prod.snd ++ [.chunk c]) s).1).2 = [] ↔ quiet before after)) :
    Truthful mark heard (written r heard s) ↔ Decided heard quiet := by
  constructor
  · intro truthful
    rcases first_marked heard with unmarked | ⟨before, ⟨whole, e⟩, after, rfl, unmarked, marked⟩
    · exact .inl unmarked
    · have rest : ∀ h ∈ after, h.2.mark = none := by
        by_contra again
        exact surface.not_once marked again truthful
      have unmarked := List.forall_mem_append.mpr ⟨unmarked, rest⟩
      cases e with
      | done =>
        rw [surface.truthful_done unmarked] at truthful
        exact .inr (.inl ⟨before, after, by rw [truthful], unmarked⟩)
      | chunk c =>
        have error : c.error.isSome := by
          by_contra fine
          simp [PumpEvent.mark, fine] at marked
        rw [surface.truthful_error error unmarked, agrees before c after error unmarked] at truthful
        exact .inr (.inr ⟨before, whole, c, after, rfl, error, unmarked, truthful⟩)
  · rintro (unmarked | ⟨before, after, rfl, unmarked⟩ |
      ⟨before, whole, c, after, rfl, error, unmarked, hushed⟩)
    · exact surface.truthful_broken fresh unmarked
    · exact (surface.truthful_done unmarked).mpr rfl
    · exact (surface.truthful_error error unmarked).mpr ((agrees before c after error unmarked).mpr hushed)

end Surfaces

end YunhouUsers.Inference.Providers
