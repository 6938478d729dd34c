import YunhouUsers.Inference.Providers.Completion

/-!
The end of a Responses stream.
-/

namespace YunhouUsers.Inference.Providers

open Transducer

namespace Responses

def Frame.mark (f : Frame) : Option Mark :=
  match f.event with
  | .completed _ | .incomplete _ => some .completed
  | .error _ _ => some .failed
  | _ => none

def progress (s : StreamState) : Bool × Bool × Bool := (s.errorRelayed, s.completed, s.started)

abbrev Uneventful := Providers.Uneventful Frame.mark progress

/-! ### Steps that do not end the stream -/

inductive Plain : Action → Prop
  | skip : Plain skip
  | seq {f g : Action} : Plain f → Plain g → Plain (seq f g)
  | send {e : ServerEvent} : (∀ n, Frame.mark ⟨n, e⟩ = none) → Plain (send e)
  | set {f : StreamState → StreamState} :
    (∀ s, progress (f s) = progress s ∧ (f s).seq = s.seq) → Plain (set f)
  | reading {f : StreamState → Action} : (∀ s, Plain (f s)) → Plain (reading f)

namespace Plain

variable {f : Action}

theorem choice (one : ∀ s, ∃ g, Plain g ∧ f s = g s) : Plain f := by
  choose g plain same using one
  rw [show f = Responses.reading g from funext same]
  exact .reading plain

theorem each {α : Type} {step : α → Action} (one : ∀ x, Plain (step x)) (xs : List α) :
    Plain (each step xs) := by
  induction xs with
  | nil => exact .skip
  | cons x xs ih => exact .seq (one x) ih

theorem uneventful (plain : Plain f) : Uneventful f := by
  induction plain with
  | skip => exact .skip
  | seq _ _ first second => exact .seq first second
  | send unmarked => exact .one fun s => ⟨_, unmarked (s.seq + 1), rfl, rfl⟩
  | set keeps => exact .silent fun s => ⟨rfl, (keeps s).1⟩
  | reading _ one => exact .of_choice fun s => ⟨_, one s, rfl⟩

end Plain

theorem ensureCreated_uneventful :
    Providers.Uneventful Frame.mark (fun s : StreamState => (s.errorRelayed, s.completed))
      ensureCreated := by
  refine .of_choice fun s => ?_
  unfold ensureCreated
  split
  · exact ⟨skip, .skip, rfl⟩
  · refine ⟨_, .seq (f := set fun s => { s with started := true }) (.silent ?_) (.seq ?_ ?_), rfl⟩
    · exact fun s => ⟨rfl, rfl⟩
    · exact (Plain.send fun _ => rfl).uneventful.less fun p => (p.1, p.2.1)
    · exact (Plain.send fun _ => rfl).uneventful.less fun p => (p.1, p.2.1)

theorem closeTextualItem_plain : Plain closeTextualItem := by
  refine .reading fun s => ?_
  dsimp only
  split
  · exact .skip
  · rename_i kind _
    refine .seq (.set fun _ => ⟨rfl, rfl⟩) ?_
    cases kind <;>
      exact .seq (.send fun _ => rfl) (.seq (.send fun _ => rfl) (.seq (.send fun _ => rfl)
        (.set fun _ => ⟨rfl, rfl⟩)))

theorem closeToolItem_plain (key : Int) : Plain (closeToolItem key) := by
  refine .reading fun s => ?_
  dsimp only
  split
  · exact .skip
  · split
    · exact .skip
    · refine .seq (.set fun _ => ⟨rfl, rfl⟩) (.seq (.send fun _ => rfl) (.seq (.send fun _ => rfl) ?_))
      exact .set fun _ => ⟨rfl, rfl⟩

theorem closeOpenItem_plain : Plain closeOpenItem := by
  refine .choice fun s => ⟨each closeItem (openItems s), .each (fun x => ?_) _, rfl⟩
  obtain ⟨_, key⟩ := x
  cases key with
  | none => exact closeTextualItem_plain
  | some key => exact closeToolItem_plain key

variable (kind : TextualKind)

theorem addTextualItem_plain : Plain (addTextualItem kind) := by
  refine .seq (.set fun _ => ⟨rfl, rfl⟩) (.reading fun s => ?_)
  cases kind <;> exact .seq (.send fun _ => rfl) (.send fun _ => rfl)

theorem openTextualItem_plain : Plain (openTextualItem kind) := by
  refine .choice fun s => ?_
  unfold openTextualItem
  split
  · exact ⟨skip, .skip, rfl⟩
  · exact ⟨_, closeTextualItem_plain.seq (addTextualItem_plain kind), rfl⟩

variable (tc : ToolCallDelta)

theorem emitArguments_plain : Plain (emitArguments tc) := by
  refine .choice fun s => ?_
  unfold emitArguments
  split
  · exact ⟨skip, .skip, rfl⟩
  · split
    · refine ⟨_, ?_, rfl⟩
      exact .seq (.set fun _ => ⟨rfl, rfl⟩) (.send fun _ => rfl)
    · exact ⟨skip, .skip, rfl⟩

theorem renderToolDelta_plain : Plain (renderToolDelta tc) := by
  refine .choice fun s => ?_
  unfold renderToolDelta
  split
  · exact ⟨_, emitArguments_plain tc, rfl⟩
  · refine ⟨_, closeTextualItem_plain.seq (.seq (.reading fun s => ?_) (emitArguments_plain tc)), rfl⟩
    exact .seq (.set fun _ => ⟨rfl, rfl⟩) (.send fun _ => rfl)

def renderItem : Item → Action
  | .thinking s => if s ≠ "" then renderReasoning s else skip
  | .text s => if s ≠ "" then renderContent s else skip
  | .tool tc => renderToolDelta tc
  | .finish reason => renderFinish reason

theorem renderChoice_eq (c : Choice) : renderChoice c = each renderItem c.items := by
  rw [c.each_items, renderChoice]
  cases c.finishReason <;> rfl

theorem renderChoices_eq (c : OpenAIStreamChunk) :
    each renderChoice c.choices = each renderItem c.items :=
  c.each_items renderChoice_eq

theorem spoken_plain {f : StreamState → StreamState} {e : StreamState → ServerEvent} (text : String)
    (keeps : ∀ s, progress (f s) = progress s ∧ (f s).seq = s.seq)
    (plain : ∀ s n, Frame.mark ⟨n, e s⟩ = none) :
    Plain (if text ≠ "" then
      seq (openTextualItem kind) (seq (set f) (reading fun s => send (e s))) else skip) := by
  split
  · exact (openTextualItem_plain kind).seq (.seq (.set keeps) (.reading fun s => .send (plain s)))
  · exact .skip

theorem renderItem_plain (item : Item) : Plain (renderItem item) := by
  cases item with
  | thinking text => exact spoken_plain .reasoning text (fun _ => ⟨rfl, rfl⟩) fun _ _ => rfl
  | text text => exact spoken_plain .message text (fun _ => ⟨rfl, rfl⟩) fun _ _ => rfl
  | tool tc => exact renderToolDelta_plain tc
  | finish reason => exact .seq (.set fun _ => ⟨rfl, rfl⟩) closeOpenItem_plain

theorem renderChunk_uneventful {c : OpenAIStreamChunk} (fine : c.error = none) :
    Providers.Uneventful Frame.mark (fun s : StreamState => (s.errorRelayed, s.completed))
      (renderChunk c) := by
  simp only [renderChunk, fine, renderChoices_eq]
  refine ensureCreated_uneventful.seq (.seq (.silent fun s => ⟨rfl, rfl⟩) ?_)
  exact (Plain.each renderItem_plain _).uneventful.less fun p => (p.1, p.2.1)

/-! ### The end of the stream -/

theorem terminalEvent_mark (s : StreamState) (n : Nat) :
    Frame.mark ⟨n, terminalEvent s⟩ = some .completed := by
  unfold terminalEvent
  split <;> rfl

theorem finishClean_split : ∃ f, Providers.Uneventful Frame.mark StreamState.errorRelayed f ∧
    ∀ s, finishClean s =
      seq f (seq (set fun s => { s with completed := true }) (send (terminalEvent (f s).1))) s := by
  refine ⟨seq ensureCreated closeOpenItem, .seq (ensureCreated_uneventful.less Prod.fst)
    (closeOpenItem_plain.uneventful.less Prod.fst), fun s => ?_⟩
  simp [finishClean, seq, reading]

theorem surface : Surface responsesStreamRenderer Frame.mark StreamState.errorRelayed where
  marks e s := by
    cases e with
    | done =>
      obtain ⟨f, before, all⟩ := finishClean_split
      show (finishClean s).2.filterMap Frame.mark = [.completed]
      rw [all, seq, List.filterMap_append, before.marks]
      simp [seq, set, send, terminalEvent_mark]
    | chunk c =>
      show (renderChunk c s).2.filterMap Frame.mark = _
      cases error : c.error with
      | none =>
        rw [(renderChunk_uneventful error).marks]
        simp [PumpEvent.mark, error]
      | some message =>
        simp [renderChunk, error, seq, set, emitError, send, Frame.mark, PumpEvent.mark]
  relays e s := by
    cases e with
    | done =>
      obtain ⟨f, before, all⟩ := finishClean_split
      show (finishClean s).1.errorRelayed = _
      rw [all]
      simpa [seq, set, send, PumpEvent.mark] using before.keeps s
    | chunk c =>
      show (renderChunk c s).1.errorRelayed = _
      cases error : c.error with
      | none =>
        have kept := (renderChunk_uneventful error).keeps s
        simpa [PumpEvent.mark, error] using congrArg Prod.fst kept
      | some message => simp [renderChunk, error, seq, set, emitError, send, PumpEvent.mark]
  failing c s error := by
    obtain ⟨message, is⟩ := Option.isSome_iff_exists.mp error
    refine ⟨[], ⟨s.seq + 1, .error (if c.errorCode = "" then "server_error" else c.errorCode)
      message⟩, ?_, rfl⟩
    show (renderChunk c s).2 = _
    simp [renderChunk, is, seq, set, emitError, send]
  broken s fresh := by
    refine ⟨(ensureCreated s).2, ⟨(ensureCreated s).1.seq + 1, .error "server_error"
      "upstream stream interrupted"⟩, ?_, rfl, ensureCreated_uneventful.writes s⟩
    show (brokenEnd s).2 = _
    simp [brokenEnd, fresh, seq, emitError, send]
  relayed s said := by
    show (brokenEnd s).2 = []
    simp [brokenEnd, said, skip]

/-! ### What is open -/

def shut (ti : ToolItem) : ToolItem := { ti with isOpen := false }

theorem closeTextualItem_spec (s : StreamState) :
    (closeTextualItem s).1.openKind = none ∧ (closeTextualItem s).1.toolItems = s.toolItems ∧
      ((closeTextualItem s).2 = [] ↔ s.openKind = none) := by
  cases isOpen : s.openKind with
  | none =>
    simp only [closeTextualItem, reading, isOpen]
    exact ⟨isOpen, rfl, iff_of_true rfl trivial⟩
  | some kind =>
    simp only [closeTextualItem, reading, isOpen]
    cases kind with
    | message => exact ⟨rfl, rfl, iff_of_false (by simp [seq, set, send]) (by simp)⟩
    | reasoning => exact ⟨rfl, rfl, iff_of_false (by simp [seq, set, send]) (by simp)⟩

variable {s : StreamState}

theorem toolItem_eq_none {ix : Int} : toolItem s ix = none ↔ ix ∉ s.toolItems.map Prod.fst := by
  simp only [toolItem, Option.map_eq_none_iff, List.find?_eq_none, decide_eq_true_eq,
    List.mem_map, not_exists, not_and]

theorem mem_of_toolItem {ix : Int} {ti : ToolItem}
    (found : toolItem s ix = some ti) : (ix, ti) ∈ s.toolItems := by
  obtain ⟨e, eq, rfl⟩ := Option.map_eq_some_iff.mp found
  have key : e.1 = ix := by simpa using List.find?_some eq
  rw [← key]
  exact List.mem_of_find?_eq_some eq

theorem closeToolItem_spec (unique : (s.toolItems.map Prod.fst).Nodup) (key : Int) :
    (closeToolItem key s).1.openKind = s.openKind ∧ (closeToolItem key s).1.toolItems =
        s.toolItems.map (fun e => if e.1 = key then (e.1, shut e.2) else e) ∧
      ((closeToolItem key s).2 = [] → ∀ e ∈ s.toolItems, e.1 = key → e.2.isOpen = false) := by
  cases found : toolItem s key with
  | none =>
    simp only [closeToolItem, reading, found]
    have absent := toolItem_eq_none.mp found
    have apart : ∀ e ∈ s.toolItems, e.1 ≠ key := fun e mem same =>
      absent (List.mem_map.mpr ⟨e, mem, same⟩)
    refine ⟨rfl, ?_, fun _ e mem same => absurd same (apart e mem)⟩
    exact ((List.map_congr_left fun e mem => if_neg (apart e mem)).trans (List.map_id' _)).symm
  | some ti =>
    have mem := mem_of_toolItem found
    have only : ∀ e ∈ s.toolItems, e.1 = key → e = (key, ti) := fun e there same =>
      Table.eq_of_key unique there mem same
    simp only [closeToolItem, reading, found]
    cases isOpen : ti.isOpen with
    | false =>
      simp only [Bool.not_false, if_true]
      refine ⟨rfl, ?_, fun _ e there same => by rw [only e there same]; exact isOpen⟩
      refine ((List.map_congr_left fun e there => ?_).trans (List.map_id' _)).symm
      split
      · rename_i same
        rw [only e there same]
        simp [shut, ← isOpen]
      · rfl
    | true =>
      simp only [Bool.not_true, Bool.false_eq_true, if_false]
      refine ⟨rfl, rfl, fun nothing => ?_⟩
      simp [seq, set, send] at nothing

theorem closeItem_spec (unique : (s.toolItems.map Prod.fst).Nodup) (x : Nat × Option Int) :
    (closeItem x s).1.toolItems.map Prod.fst = s.toolItems.map Prod.fst ∧
      ((closeItem x s).1.openKind ≠ none → s.openKind ≠ none ∧ x.2 ≠ none) ∧
      ∀ e ∈ (closeItem x s).1.toolItems, e.2.isOpen = true → e ∈ s.toolItems ∧ some e.1 ≠ x.2 := by
  obtain ⟨ix, key⟩ := x
  cases key with
  | none =>
    obtain ⟨kind, tools, -⟩ := closeTextualItem_spec s
    refine ⟨congrArg _ tools, fun still => absurd kind still, fun e mem _ => ⟨?_, by simp⟩⟩
    rwa [← tools]
  | some key =>
    obtain ⟨kind, tools, -⟩ := closeToolItem_spec unique key
    refine ⟨?_, fun still => ⟨kind ▸ still, by simp⟩, fun e mem isOpen => ?_⟩
    · show (closeToolItem key s).1.toolItems.map Prod.fst = _
      rw [tools, List.map_map]
      refine List.map_congr_left fun e _ => ?_
      simp only [Function.comp_apply]
      split <;> rfl
    · have mem : e ∈ (closeToolItem key s).1.toolItems := mem
      rw [tools] at mem
      obtain ⟨old, there, rfl⟩ := List.mem_map.mp mem
      split at isOpen
      · cases isOpen
      · rename_i other
        rw [if_neg other]
        exact ⟨there, fun same => other (Option.some.inj same)⟩

theorem closeItems_spec (items : List (Nat × Option Int))
    (unique : (s.toolItems.map Prod.fst).Nodup) :
    (each closeItem items s).1.toolItems.map Prod.fst = s.toolItems.map Prod.fst ∧
      ((each closeItem items s).1.openKind ≠ none →
        s.openKind ≠ none ∧ none ∉ items.map Prod.snd) ∧
      ∀ e ∈ (each closeItem items s).1.toolItems, e.2.isOpen = true →
        e ∈ s.toolItems ∧ some e.1 ∉ items.map Prod.snd := by
  induction items generalizing s with
  | nil => exact ⟨rfl, fun still => ⟨still, List.not_mem_nil⟩, fun e mem _ => ⟨mem, List.not_mem_nil⟩⟩
  | cons x items ih =>
    obtain ⟨keys, kind, tools⟩ := closeItem_spec unique x
    obtain ⟨keys', kind', tools'⟩ := ih (keys ▸ unique)
    refine ⟨keys'.trans keys, fun still => ?_, fun e mem isOpen => ?_⟩
    · obtain ⟨before, rest⟩ := kind' still
      obtain ⟨first, other⟩ := kind before
      exact ⟨first, fun mem => (List.mem_cons.mp mem).elim (fun same => other same.symm) rest⟩
    · obtain ⟨before, rest⟩ := tools' e mem isOpen
      obtain ⟨first, other⟩ := tools e before isOpen
      exact ⟨first, fun mem => (List.mem_cons.mp mem).elim other rest⟩

theorem mem_openItems_iff {x : Nat × Option Int} :
    x ∈ openItems s ↔ (s.openKind ≠ none ∧ x = (s.openIndex.getD 0, none)) ∨
      ∃ e ∈ s.toolItems, e.2.isOpen = true ∧ x = (e.2.outputIndex, some e.1) := by
  simp only [openItems, (List.perm_insertionSort _ _).mem_iff, List.mem_append, List.mem_map,
    List.mem_filter, Option.mem_toList]
  constructor
  · rintro (⟨kind, isOpen, rfl⟩ | ⟨e, ⟨mem, isOpen⟩, rfl⟩)
    · exact .inl ⟨by simp [isOpen], rfl⟩
    · exact .inr ⟨e, mem, isOpen, rfl⟩
  · rintro (⟨isOpen, rfl⟩ | ⟨e, mem, isOpen, rfl⟩)
    · obtain ⟨kind, is⟩ := Option.ne_none_iff_exists'.mp isOpen
      exact .inl ⟨kind, is, rfl⟩
    · exact .inr ⟨e, ⟨mem, isOpen⟩, rfl⟩

def Closed (s : StreamState) : Prop := s.openKind = none ∧ ∀ e ∈ s.toolItems, e.2.isOpen = false

theorem openItems_eq_nil : openItems s = [] ↔ Closed s := by
  rw [List.eq_nil_iff_forall_not_mem]
  constructor
  · intro nothing
    constructor
    · by_contra isOpen
      exact nothing _ (mem_openItems_iff.mpr (.inl ⟨isOpen, rfl⟩))
    · intro e mem
      by_contra isOpen
      exact nothing _ (mem_openItems_iff.mpr (.inr ⟨e, mem, by simpa using isOpen, rfl⟩))
  · intro closed x mem
    rcases mem_openItems_iff.mp mem with ⟨isOpen, -⟩ | ⟨e, there, isOpen, -⟩
    · exact isOpen closed.1
    · rw [closed.2 e there] at isOpen
      cases isOpen

theorem closeItem_speaks (unique : (s.toolItems.map Prod.fst).Nodup) {x : Nat × Option Int}
    (mem : x ∈ openItems s) : (closeItem x s).2 ≠ [] := by
  intro nothing
  rcases mem_openItems_iff.mp mem with ⟨isOpen, rfl⟩ | ⟨e, there, isOpen, rfl⟩
  · exact isOpen ((closeTextualItem_spec s).2.2.mp nothing)
  · rw [(closeToolItem_spec unique e.1).2.2 nothing e there rfl] at isOpen
    cases isOpen

theorem closeOpenItem_spec (unique : (s.toolItems.map Prod.fst).Nodup) :
    (closeOpenItem s).1.toolItems.map Prod.fst = s.toolItems.map Prod.fst ∧
      Closed (closeOpenItem s).1 ∧ ((closeOpenItem s).2 = [] ↔ Closed s) := by
  obtain ⟨keys, kind, tools⟩ := closeItems_spec (openItems s) unique
  refine ⟨keys, ⟨?_, fun e mem => ?_⟩, ?_⟩
  · by_contra still
    obtain ⟨before, missed⟩ := kind still
    exact missed (List.mem_map.mpr ⟨_, mem_openItems_iff.mpr (.inl ⟨before, rfl⟩), rfl⟩)
  · by_contra isOpen
    rw [Bool.not_eq_false] at isOpen
    obtain ⟨before, missed⟩ := tools e mem isOpen
    exact missed (List.mem_map.mpr ⟨_, mem_openItems_iff.mpr (.inr ⟨e, before, isOpen, rfl⟩), rfl⟩)
  · rw [← openItems_eq_nil, closeOpenItem]
    cases listed : openItems s with
    | nil => exact iff_of_true rfl rfl
    | cons x rest =>
      refine iff_of_false (fun nothing => ?_) (List.cons_ne_nil _ _)
      exact closeItem_speaks unique (by simp [listed]) (List.append_eq_nil_iff.mp nothing).1

theorem openTextualItem_spec (s : StreamState) :
    (openTextualItem kind s).1.openKind = some kind ∧
      (openTextualItem kind s).1.toolItems = s.toolItems := by
  unfold openTextualItem
  split
  · rename_i same
    exact ⟨same, rfl⟩
  · obtain ⟨-, tools, -⟩ := closeTextualItem_spec s
    cases kind with
    | message => exact ⟨rfl, tools⟩
    | reasoning => exact ⟨rfl, tools⟩

variable {items : List Item}

def flags (s : StreamState) : List (Int × Bool) := s.toolItems.map fun e => (e.1, e.2.isOpen)

theorem flags_keys (s : StreamState) : (flags s).map Prod.fst = s.toolItems.map Prod.fst := by
  simp [flags]

theorem closed_iff : Closed s ↔ s.openKind = none ∧ ∀ f ∈ flags s, f.2 = false := by
  rw [Closed, flags, List.forall_mem_map]

theorem emitArguments_spec (s : StreamState) :
    flags (emitArguments tc s).1 = flags s ∧ (emitArguments tc s).1.openKind = s.openKind ∧
      (toolItem s tc.index ≠ none → ((emitArguments tc s).2 = [] ↔ tc.arguments = "")) := by
  unfold emitArguments
  split
  · rename_i empty
    exact ⟨rfl, rfl, fun _ => iff_of_true rfl empty⟩
  · rename_i nonempty
    cases found : toolItem s tc.index with
    | none => exact ⟨rfl, rfl, fun known => absurd rfl known⟩
    | some ti =>
      refine ⟨?_, rfl, fun _ => iff_of_false (by simp [seq, set, send]) nonempty⟩
      simp only [flags, seq, set, send, updateTool, List.map_map]
      refine List.map_congr_left fun e _ => ?_
      simp only [Function.comp_apply]
      split <;> rfl

theorem openToolItem_spec (s : StreamState) :
    flags (openToolItem tc s).1 = flags s ++ [(tc.index, true)] ∧ (openToolItem tc s).2 ≠ [] := by
  constructor
  · simp [flags, openToolItem, reading, seq, set, send]
  · simp [openToolItem, reading, seq, set, send]

def known (s : StreamState) : List Int := s.toolItems.map Prod.fst

def Unique (s : StreamState) : Prop := (known s).Nodup

theorem Unique.of_known {s' : StreamState} (unique : Unique s) (same : known s' = known s) :
    Unique s' := by
  rw [Unique, same]
  exact unique

abbrev Follows := Providers.Follows known Closed Unique

theorem renderToolDelta_answers (unique : Unique s) (tc : ToolCallDelta) :
    Answers known Closed Unique (.tool tc) s (renderToolDelta tc s) := by
  have keyed {s' : StreamState} (same : flags s' = flags s) : known s' = known s := by
    rw [known, ← flags_keys, same, flags_keys, known]
  cases found : toolItem s tc.index with
  | some ti =>
    have inside : tc.index ∈ known s := by
      by_contra outside
      rw [known, ← toolItem_eq_none, found] at outside
      cases outside
    have effect : renderToolDelta tc s = emitArguments tc s := by simp only [renderToolDelta, found]
    obtain ⟨same, kind, silent⟩ := emitArguments_spec tc s
    rw [effect]
    refine ⟨unique.of_known (keyed same), fun ix => ?_, ?_, ?_⟩
    · rw [keyed same]
      exact (or_iff_left_of_imp fun same => Option.some.inj same ▸ inside).symm
    · rw [closed_iff, same, kind, ← closed_iff]
      simp [Item.Adds, inside]
    · rw [silent (by simp [found])]
      simp [Item.Adds, Item.Argues, inside]
  | none =>
    have outside : tc.index ∉ known s := toolItem_eq_none.mp found
    have effect : renderToolDelta tc s =
        seq closeTextualItem (seq (openToolItem tc) (emitArguments tc)) s := by
      simp only [renderToolDelta, found]
    obtain ⟨-, tools, -⟩ := closeTextualItem_spec s
    obtain ⟨added, speaks⟩ := openToolItem_spec tc (closeTextualItem s).1
    obtain ⟨same, -, -⟩ := emitArguments_spec tc (openToolItem tc (closeTextualItem s).1).1
    have all : flags (renderToolDelta tc s).1 = flags s ++ [(tc.index, true)] := by
      rw [effect, seq, seq, same, added, flags, tools]
      rfl
    have keys : known (renderToolDelta tc s).1 = known s ++ [tc.index] := by
      rw [known, ← flags_keys, all, List.map_append, flags_keys]
      rfl
    refine ⟨?_, fun ix => ?_, iff_of_false (fun closed => ?_) ?_, iff_of_false ?_ ?_⟩
    · rw [Unique, keys]
      exact List.concat_eq_append ▸ List.Nodup.concat outside unique
    · rw [keys, List.mem_append, List.mem_singleton]
      exact or_congr_right (eq_comm.trans Option.some_inj.symm)
    · cases (closed_iff.mp closed).2 (tc.index, true) (by simp [all])
    · simp [Item.Adds, outside]
    · rw [effect, seq, seq]
      simp [speaks]
    · simp [Item.Adds, outside]

theorem renderItem_answers (s : StreamState) (unique : Unique s) (item : Item) :
    Answers known Closed Unique item s (renderItem item s) := by
  cases item with
  | thinking text =>
    obtain ⟨kind, tools⟩ := openTextualItem_spec .reasoning s
    have same : known (renderReasoning text s).1 = known s := congrArg (List.map Prod.fst) tools
    refine answers_words (.inl rfl) unique (unique.of_known same) same (fun closed => ?_) ?_
    · simp [Closed, renderReasoning, seq, set, send, reading, kind] at closed
    · simp [renderReasoning, seq, set, send, reading]
  | text text =>
    obtain ⟨kind, tools⟩ := openTextualItem_spec .message s
    have same : known (renderContent text s).1 = known s := congrArg (List.map Prod.fst) tools
    refine answers_words (.inr rfl) unique (unique.of_known same) same (fun closed => ?_) ?_
    · simp [Closed, renderContent, seq, set, send, reading, kind] at closed
    · simp [renderContent, seq, set, send, reading]
  | tool tc => exact renderToolDelta_answers unique tc
  | finish reason =>
    obtain ⟨keys, closed, quiet⟩ := closeOpenItem_spec (s := { s with finish := reason }) unique
    show Answers _ _ _ _ s (closeOpenItem { s with finish := reason })
    refine ⟨unique.of_known keys, fun ix => ?_, iff_of_true closed (.inl ⟨_, rfl⟩), quiet.trans ?_⟩
    · simp [known, keys, Item.callOf]
    · exact ⟨fun shut => ⟨id, id, fun _ => shut⟩, fun hushed => hushed.2.2 ⟨reason, rfl⟩⟩

/-! ### Chunks -/

theorem Follows.congr {s' : StreamState} (here : Follows items s)
    (kind : s'.openKind = s.openKind) (tools : s'.toolItems = s.toolItems) : Follows items s' := by
  have same : known s' = known s := congrArg (List.map Prod.fst) tools
  refine ⟨here.sound.of_known same, fun ix => ?_, ?_⟩
  · rw [same]
    exact here.knows ix
  · rw [Closed, kind, tools]
    exact here.settled

theorem ensureCreated_spec (s : StreamState) :
    (ensureCreated s).1.openKind = s.openKind ∧ (ensureCreated s).1.toolItems = s.toolItems ∧
      (ensureCreated s).1.started = true ∧ ((ensureCreated s).2 = [] ↔ s.started = true) := by
  unfold ensureCreated
  split
  · rename_i started
    exact ⟨rfl, rfl, started, iff_of_true rfl started⟩
  · rename_i fresh
    exact ⟨rfl, rfl, rfl, iff_of_false (by simp [emitCreated, reading, seq, set, send]) fresh⟩

theorem Follows.chunk (here : Follows items s) {c : OpenAIStreamChunk} (fine : c.error = none) :
    Follows (items ++ c.items) (renderChunk c s).1 ∧ (renderChunk c s).1.started = true ∧
      ((renderChunk c s).2 = [] ↔ s.started = true ∧ Hushed items c.items) := by
  obtain ⟨kind, tools, started, quiet⟩ := ensureCreated_spec s
  have ready : Follows items { (ensureCreated s).1 with usage := c.usage.or (ensureCreated s).1.usage } :=
    here.congr kind tools
  obtain ⟨next, written⟩ := ready.each renderItem_answers c.items
  have kept := (Plain.each renderItem_plain c.items).uneventful.keeps
    { (ensureCreated s).1 with usage := c.usage.or (ensureCreated s).1.usage }
  simp only [renderChunk, fine, renderChoices_eq]
  refine ⟨next, ?_, ?_⟩
  · exact (congrArg (fun p => p.2.2) kept).trans started
  · rw [← quiet, ← written]
    simp [seq, set]

variable {chunks : List OpenAIStreamChunk}

theorem Follows.before (fine : ∀ c ∈ chunks, c.error = none) (here : Follows items s) :
    Follows (items ++ itemsOf chunks) (each render (chunks.map .chunk) s).1 ∧
      ((each render (chunks.map .chunk) s).1.started = true ↔ s.started = true ∨ chunks ≠ []) := by
  induction chunks generalizing items s with
  | nil => exact ⟨by simpa [itemsOf, each, skip] using here, by simp [each, skip]⟩
  | cons c chunks ih =>
    obtain ⟨fine_c, fine⟩ := List.forall_mem_cons.mp fine
    obtain ⟨next, started, -⟩ := here.chunk fine_c
    obtain ⟨last, begun⟩ := ih fine next
    rw [itemsOf_cons, ← List.append_assoc]
    exact ⟨last, iff_of_true (begun.mpr (.inl started)) (.inr (by simp))⟩

theorem Follows.after (fine : ∀ c ∈ chunks, c.error = none) (here : Follows items s) :
    (each render (chunks.map .chunk) s).2 = [] ↔
      chunks = [] ∨ s.started = true ∧ Hushed items (itemsOf chunks) := by
  induction chunks generalizing items s with
  | nil => exact iff_of_true rfl (.inl rfl)
  | cons c chunks ih =>
    obtain ⟨fine_c, fine⟩ := List.forall_mem_cons.mp fine
    obtain ⟨next, started, first⟩ := here.chunk fine_c
    have split : (each render ((c :: chunks).map .chunk) s).2 = [] ↔
        (renderChunk c s).2 = [] ∧ (each render (chunks.map .chunk) (renderChunk c s).1).2 = [] :=
      List.append_eq_nil_iff
    rw [split, first, ih fine next, itemsOf_cons, hushed_append, and_assoc]
    simp only [reduceCtorEq, false_or, started, true_and]
    refine and_congr_right fun _ => and_congr_right fun _ => ?_
    exact or_iff_right_of_imp fun nil => by rw [nil]; exact hushed_nil _

def Quiet (before after : List (Bool × PumpEvent)) : Prop :=
  chunksOf after = [] ∨ chunksOf before ≠ [] ∧
    Hushed (itemsOf (chunksOf before)) (itemsOf (chunksOf after))

section Stream

variable (responseId model : String) (createdAt : Int) (cacheReadInInput : Bool)
  (newPublicId : String → Nat → String)

theorem quiet_from {start : StreamState} (fresh : Follows [] start) (unstarted : start.started = false)
    (before : List (Bool × PumpEvent)) (c : OpenAIStreamChunk) (after : List (Bool × PumpEvent))
    (error : c.error.isSome) (unmarked : ∀ h ∈ before ++ after, h.2.mark = none) :
    (each render (after.map Prod.snd)
      (each render (before.map Prod.snd ++ [.chunk c]) start).1).2 = [] ↔ Quiet before after := by
  obtain ⟨unmarked_before, unmarked_after⟩ := List.forall_mem_append.mp unmarked
  obtain ⟨chunks, fine⟩ := heard_unmarked unmarked_before
  obtain ⟨chunks', fine'⟩ := heard_unmarked unmarked_after
  obtain ⟨here, started⟩ := fresh.before fine
  obtain ⟨message, is⟩ := Option.isSome_iff_exists.mp error
  rw [chunks, chunks', each_append, seq]
  have relayed : Follows (itemsOf (chunksOf before))
      (renderChunk c (each render ((chunksOf before).map .chunk) start).1).1 := by
    rw [List.nil_append] at here
    exact here.congr (by simp [renderChunk, is, seq, set, emitError, send])
      (by simp [renderChunk, is, seq, set, emitError, send])
  have still : (renderChunk c (each render ((chunksOf before).map .chunk) start).1).1.started =
      (each render ((chunksOf before).map .chunk) start).1.started := by
    simp [renderChunk, is, seq, set, emitError, send]
  have rest := relayed.after fine'
  rw [still, started, unstarted, or_iff_right Bool.false_ne_true] at rest
  exact rest

theorem quiet_iff (before : List (Bool × PumpEvent)) (c : OpenAIStreamChunk)
    (after : List (Bool × PumpEvent)) (error : c.error.isSome)
    (unmarked : ∀ h ∈ before ++ after, h.2.mark = none) :
    (each responsesStreamRenderer.render (after.map Prod.snd)
        (each responsesStreamRenderer.render (before.map Prod.snd ++ [.chunk c])
          { responseId, model, createdAt, cacheReadInInput, newPublicId }).1).2 = [] ↔
      Quiet before after := by
  refine quiet_from ?_ rfl before c after error unmarked
  refine ⟨by simp [Unique, known], by simp [calls, known],
    iff_of_true (fun before item after eq => ?_) ⟨rfl, by simp⟩⟩
  simp at eq

theorem render_completed (e : PumpEvent) (s : StreamState) :
    (render e s).1.completed = (s.completed || e = .done) := by
  cases e with
  | done =>
    obtain ⟨f, -, all⟩ := finishClean_split
    show (finishClean s).1.completed = _
    rw [all]
    simp [seq, set, send]
  | chunk c =>
    show (renderChunk c s).1.completed = _
    cases error : c.error with
    | none =>
      have kept := (renderChunk_uneventful error).keeps s
      simpa using congrArg Prod.snd kept
    | some message => simp [renderChunk, error, seq, set, emitError, send]

theorem each_render_completed (events : List PumpEvent) (s : StreamState) :
    (each render events s).1.completed = (s.completed || events.any (fun e => e = .done)) := by
  induction events generalizing s with
  | nil => simp [each, skip]
  | cons e events ih => rw [each_cons, seq, ih, render_completed, List.any_cons, Bool.or_assoc]

theorem brokenEnd_completed (s : StreamState) : (brokenEnd s).1.completed = s.completed := by
  unfold brokenEnd
  split
  · rfl
  · exact congrArg Prod.snd (ensureCreated_uneventful.keeps s)

theorem completed_iff (unmarshal : Bytes → Option OpenAIStreamChunk) (reads : List Bytes) :
    (translateOpenAIToResponsesStream unmarshal reads responseId model createdAt cacheReadInInput
      newPublicId).1.completed = true ↔
      ∃ e ∈ (translateOpenAIToResponsesStream unmarshal reads responseId model createdAt
        cacheReadInInput newPublicId).2, e.mark = some .completed := by
  rw [translateOpenAIToResponsesStream, translateStream_written, surface.completes_iff,
    ← pump_hears, translateStream, seq]
  dsimp only
  cases done : (pump unmarshal [] reads).any (fun e => e = .done) with
  | true =>
    simp only [if_true, skip, iff_true]
    exact (each_render_completed _ _).trans (by rw [done, Bool.or_true])
  | false =>
    simp only [Bool.false_eq_true, if_false, iff_false, Bool.not_eq_true]
    refine (brokenEnd_completed _).trans ((each_render_completed _ _).trans ?_)
    rw [done, Bool.or_false]

end Stream

end Responses

/-! ### Both surfaces -/

/-- The surfaces end their streams as the source does exactly when one event decides: `[DONE]` on
a line within the cap, or an error after which the chunks have nothing to say. -/
theorem completion_markers_truthful (unmarshal : Bytes → Option OpenAIStreamChunk)
    (reads : List Bytes) (messageId responseId model : String) (createdAt : Int)
    (cacheReadInInput : Bool) (newPublicId : String → Nat → String) :
    (Truthful Event.mark (hears unmarshal reads)
        (translateOpenAIToAnthropicStream unmarshal reads messageId model cacheReadInInput) ↔
      Decided (hears unmarshal reads) Messages.Quiet) ∧
    (Truthful Responses.Frame.mark (hears unmarshal reads)
        (Responses.translateOpenAIToResponsesStream unmarshal reads responseId model createdAt
          cacheReadInInput newPublicId).2 ∧
      ((Responses.translateOpenAIToResponsesStream unmarshal reads responseId model createdAt
          cacheReadInInput newPublicId).1.completed = true ↔ Closes (hears unmarshal reads)) ↔
      Decided (hears unmarshal reads) Responses.Quiet) := by
  constructor
  · rw [translateOpenAIToAnthropicStream_eq, translateStream_written]
    exact Messages.surface.truthful_iff rfl (Messages.quiet_iff messageId model cacheReadInInput)
  · rw [Responses.completed_iff, and_iff_left_of_imp fun truthful => truthful.completes,
      Responses.translateOpenAIToResponsesStream, translateStream_written]
    exact Responses.surface.truthful_iff rfl
      (Responses.quiet_iff responseId model createdAt cacheReadInInput newPublicId)

def errorThenDone : Bytes := encodeLines [ascii "data: {}", ascii "data: [DONE]"]

def overloaded : Bytes → Option OpenAIStreamChunk :=
  fun _ => some { error := some "overloaded", errorCode := "server_error" }

def numbered (kind : String) (n : Nat) : String := kind ++ toString n

theorem twice_marked : (translateOpenAIToAnthropicStream overloaded [errorThenDone] "msg_1" "m"
      false).filterMap Event.mark = [.failed, .completed] ∧
    (Responses.translateOpenAIToResponsesStream overloaded [errorThenDone] "resp_1" "m" 0 false
      numbered).2.filterMap Responses.Frame.mark = [.failed, .completed] ∧
    (Responses.translateOpenAIToResponsesStream overloaded [errorThenDone] "resp_1" "m" 0 false
      numbered).1.completed = true := by
  decide +kernel

theorem completion_fabricated_after_error :
    ¬ Truthful Event.mark (hears overloaded [errorThenDone])
        (translateOpenAIToAnthropicStream overloaded [errorThenDone] "msg_1" "m" false) ∧
      ¬ Truthful Responses.Frame.mark (hears overloaded [errorThenDone])
        (Responses.translateOpenAIToResponsesStream overloaded [errorThenDone] "resp_1" "m" 0 false
          numbered).2 ∧
      (Responses.translateOpenAIToResponsesStream overloaded [errorThenDone] "resp_1" "m" 0 false
        numbered).1.completed = true := by
  obtain ⟨messages, responses, completed⟩ := twice_marked
  refine ⟨fun truthful => ?_, fun truthful => ?_, completed⟩
  · have once := truthful.once
    rw [messages] at once
    exact absurd once (by decide)
  · have once := truthful.once
    rw [responses] at once
    exact absurd once (by decide)

end YunhouUsers.Inference.Providers
