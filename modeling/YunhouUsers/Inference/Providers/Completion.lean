import YunhouUsers.Inference.Providers.Termination

/-!
Both client surfaces against the rule that completion markers are not made up.
-/

namespace YunhouUsers.Inference.Providers

open Transducer

def Hushed (before items : List Item) : Prop :=
  Silent before items ∧ ((∃ reason, .finish reason ∈ items) → Settled before)

theorem hushed_nil (before : List Item) : Hushed before [] := by
  refine ⟨fun _ mem => (by cases mem), ?_⟩
  rintro ⟨_, mem⟩
  cases mem

theorem hushed_singleton {before : List Item} {item : Item} :
    Hushed before [item] ↔ ¬ item.Begins before ∧ ¬ item.Argues ∧
      ((∃ reason, item = .finish reason) → Settled before) := by
  rw [Hushed, Silent, List.forall_mem_singleton, and_assoc]
  simp only [List.mem_singleton, eq_comm]

theorem begins_concat {before : List Item} {item other : Item} (quiet : ¬ item.Begins before) :
    other.Begins (before ++ [item]) ↔ other.Begins before := by
  cases other with
  | tool tc =>
    cases item with
    | tool tc' =>
      simp only [Item.Begins, not_not] at quiet
      simp only [Item.Begins, calls, List.filterMap_append, List.mem_append, not_or]
      refine and_iff_left_of_imp fun new => ?_
      simp only [List.filterMap_cons, List.filterMap_nil, Item.callOf, List.mem_singleton]
      intro same
      exact new (same ▸ quiet)
    | _ => simp [Item.Begins, calls, Item.callOf]
  | _ => rfl

theorem hushed_cons {before items : List Item} {item : Item} :
    Hushed before (item :: items) ↔ Hushed before [item] ∧ Hushed (before ++ [item]) items := by
  by_cases quiet : item.Begins before
  · refine iff_of_false (fun hushed => ?_) fun hushed => (hushed_singleton.mp hushed.1).1 quiet
    exact (hushed.1 item List.mem_cons_self).1 quiet
  · have silent : Silent (before ++ [item]) items ↔ Silent before items := by
      simp only [Silent, begins_concat quiet]
    rw [hushed_singleton, Hushed, Hushed, silent, settled_concat, Silent, List.forall_mem_cons]
    constructor
    · rintro ⟨⟨⟨_, mute⟩, rest⟩, settled⟩
      refine ⟨⟨quiet, mute, ?_⟩, rest, ?_⟩
      · rintro ⟨reason, rfl⟩
        exact settled ⟨reason, List.mem_cons_self⟩
      · rintro ⟨reason, mem⟩
        exact .inr ⟨settled ⟨reason, List.mem_cons_of_mem _ mem⟩, quiet⟩
    · rintro ⟨⟨_, mute, first⟩, rest, settled⟩
      refine ⟨⟨⟨quiet, mute⟩, rest⟩, ?_⟩
      rintro ⟨reason, mem⟩
      rcases List.mem_cons.mp mem with same | mem
      · exact first ⟨reason, same.symm⟩
      · rcases settled ⟨reason, mem⟩ with finish | ⟨settled, _⟩
        · exact first finish
        · exact settled

theorem hushed_append {before items more : List Item} :
    Hushed before (items ++ more) ↔ Hushed before items ∧ Hushed (before ++ items) more := by
  induction items generalizing before with
  | nil => simp [hushed_nil]
  | cons item items ih =>
    rw [List.cons_append, hushed_cons, ih, @hushed_cons _ items, and_assoc]
    simp

theorem calls_concat (items : List Item) (item : Item) :
    calls (items ++ [item]) = calls items ++ item.callOf.toList := by
  cases item <;> simp [calls, Item.callOf]

/-! ### Renderers that follow the items -/

def Item.Adds (known : List Int) : Item → Prop
  | .thinking s | .text s => s ≠ ""
  | .tool tc => tc.index ∉ known
  | .finish _ => False

section Following

variable {σ ε : Type} (known : σ → List Int) (closed fine : σ → Prop)

structure Answers (item : Item) (s : σ) (r : σ × List ε) : Prop where
  sound : fine r.1
  knows : ∀ ix, ix ∈ known r.1 ↔ ix ∈ known s ∨ item.callOf = some ix
  closes : closed r.1 ↔ (∃ reason, item = .finish reason) ∨ closed s ∧ ¬ item.Adds (known s)
  silent : r.2 = [] ↔ ¬ item.Adds (known s) ∧ ¬ item.Argues ∧
    ((∃ reason, item = .finish reason) → closed s)

structure Follows (items : List Item) (s : σ) : Prop where
  sound : fine s
  knows : ∀ ix, ix ∈ calls items ↔ ix ∈ known s
  settled : Settled items ↔ closed s

variable {known closed fine} {item : Item} {items : List Item} {s : σ}

theorem Follows.answers (here : Follows known closed fine items s) {r : σ × List ε}
    (answers : Answers known closed fine item s r) :
    Follows known closed fine (items ++ [item]) r.1 ∧ (r.2 = [] ↔ Hushed items [item]) := by
  have begins : item.Begins items ↔ item.Adds (known s) := by
    cases item with
    | tool tc => exact not_congr (here.knows tc.index)
    | _ => exact Iff.rfl
  refine ⟨⟨answers.sound, fun ix => ?_, ?_⟩, ?_⟩
  · rw [calls_concat, List.mem_append, here.knows, answers.knows, Option.mem_toList]
  · rw [settled_concat, here.settled, begins, answers.closes]
  · rw [hushed_singleton, here.settled, begins, answers.silent]

theorem Follows.each {step : Item → Step σ ε}
    (one : ∀ s, fine s → ∀ item, Answers known closed fine item s (step item s))
    (here : Follows known closed fine items s) (more : List Item) :
    Follows known closed fine (items ++ more) (Transducer.each step more s).1 ∧
      ((Transducer.each step more s).2 = [] ↔ Hushed items more) := by
  induction more generalizing items s with
  | nil => exact ⟨by simpa [Transducer.each, skip] using here, iff_of_true rfl (hushed_nil items)⟩
  | cons item more ih =>
    obtain ⟨next, first⟩ := here.answers (one s here.sound item)
    obtain ⟨last, rest⟩ := ih next
    rw [List.append_assoc, List.singleton_append] at last
    refine ⟨last, ?_⟩
    rw [each_cons, seq, List.append_eq_nil_iff, hushed_cons, first, rest]

theorem answers_words {text : String} (is : item = .thinking text ∨ item = .text text)
    {f : Step σ ε} (here : fine s) (said : fine (f s).1) (same : known (f s).1 = known s)
    (opens : ¬ closed (f s).1) (speaks : (f s).2 ≠ []) :
    Answers known closed fine item s ((if text ≠ "" then f else skip) s) := by
  obtain ⟨adds, call, mute, going⟩ : (item.Adds (known s) ↔ text ≠ "") ∧ item.callOf = none ∧
      ¬ item.Argues ∧ ¬ ∃ reason, item = .finish reason := by
    rcases is with rfl | rfl <;> simp [Item.Adds, Item.callOf, Item.Argues]
  split
  · rename_i nonempty
    have new := adds.mpr nonempty
    exact ⟨said, by simp [same, call], by simp [opens, going, new], by simp [speaks, new]⟩
  · rename_i empty
    have old := mt adds.mp empty
    exact ⟨here, by simp [skip, call], by simp [skip, going, old], by simp [skip, going, old, mute]⟩

end Following

def chunksOf (heard : List (Bool × PumpEvent)) : List OpenAIStreamChunk :=
  heard.filterMap fun h => match h.2 with
    | .chunk c => some c
    | .done => none

theorem heard_unmarked {heard : List (Bool × PumpEvent)} (unmarked : ∀ h ∈ heard, h.2.mark = none) :
    heard.map Prod.snd = (chunksOf heard).map .chunk ∧ ∀ c ∈ chunksOf heard, c.error = none := by
  induction heard with
  | nil => exact ⟨rfl, fun _ mem => (by cases mem)⟩
  | cons h heard ih =>
    obtain ⟨first, rest⟩ := List.forall_mem_cons.mp unmarked
    obtain ⟨all, fine⟩ := ih rest
    obtain ⟨whole, e⟩ := h
    cases e with
    | done => cases first
    | chunk c =>
      have plain : c.error = none := by simpa [PumpEvent.mark] using first
      have head : chunksOf ((whole, .chunk c) :: heard) = c :: chunksOf heard := rfl
      rw [head, List.map_cons, List.map_cons, all]
      exact ⟨rfl, List.forall_mem_cons.mpr ⟨plain, fine⟩⟩

theorem itemsOf_cons (c : OpenAIStreamChunk) (chunks : List OpenAIStreamChunk) :
    itemsOf (c :: chunks) = c.items ++ itemsOf chunks := rfl

def Event.mark : Event → Option Mark
  | .messageStop => some .completed
  | .error _ => some .failed
  | _ => none

namespace Messages

open Renderer

abbrev Uneventful := Providers.Uneventful Event.mark Renderer.errorRelayed

theorem ensureStarted_uneventful : Uneventful ensureStarted := by
  refine .of_choice fun r => ?_
  unfold ensureStarted
  split
  · exact ⟨skip, .skip, rfl⟩
  · exact ⟨emitStart, .one fun _ => ⟨_, rfl, rfl, rfl⟩, rfl⟩

theorem closeBlock_uneventful (i : Nat) : Uneventful (closeBlock i) :=
  .one fun _ => ⟨_, rfl, rfl, rfl⟩

theorem closeTextBlock_uneventful : Uneventful closeTextBlock := by
  refine .of_choice fun r => ?_
  unfold closeTextBlock
  split
  · exact ⟨skip, .skip, rfl⟩
  · exact ⟨closeBlock _, closeBlock_uneventful _, rfl⟩

theorem closeOpenBlock_uneventful : Uneventful closeOpenBlock :=
  .of_choice fun r => ⟨each closeBlock (openIndexes r), .each closeBlock_uneventful _, rfl⟩

theorem openTextualBlock_uneventful (kind : TextKind) : Uneventful (openTextualBlock kind) := by
  refine .of_choice fun r => ?_
  unfold openTextualBlock
  split
  · exact ⟨skip, .skip, rfl⟩
  · exact ⟨_, closeTextBlock_uneventful.seq (.one fun _ => ⟨_, rfl, rfl, rfl⟩), rfl⟩

theorem emitArguments_uneventful (tc : ToolCallDelta) : Uneventful (emitArguments tc) := by
  refine .of_choice fun r => ?_
  unfold emitArguments
  split
  · exact ⟨skip, .skip, rfl⟩
  · split
    · exact ⟨fun s => (s, _), .one fun _ => ⟨_, rfl, rfl, rfl⟩, rfl⟩
    · exact ⟨skip, .skip, rfl⟩

theorem renderToolCallDelta_uneventful (tc : ToolCallDelta) :
    Uneventful (renderToolCallDelta tc) := by
  refine .of_choice fun r => ?_
  unfold renderToolCallDelta
  split
  · exact ⟨_, emitArguments_uneventful tc, rfl⟩
  · exact ⟨_, closeTextBlock_uneventful.seq (.seq (.one fun _ => ⟨_, rfl, rfl, rfl⟩)
      (emitArguments_uneventful tc)), rfl⟩

theorem textual_uneventful (kind : TextKind) (d : BlockDelta) (s : String) :
    Uneventful (if s ≠ "" then seq (openTextualBlock kind) (emitTextual d) else skip) := by
  split
  · exact (openTextualBlock_uneventful kind).seq (.one fun _ => ⟨_, rfl, rfl, rfl⟩)
  · exact .skip

theorem renderItem_uneventful (item : Item) : Uneventful (renderItem item) := by
  cases item with
  | thinking s => exact textual_uneventful _ _ s
  | text s => exact textual_uneventful _ _ s
  | tool tc => exact renderToolCallDelta_uneventful tc
  | finish reason => exact .seq (.silent fun _ => ⟨rfl, rfl⟩) closeOpenBlock_uneventful

theorem emitMessageDelta_uneventful (usage : Option OpenAIUsage) :
    Uneventful (emitMessageDelta usage) := .one fun _ => ⟨_, rfl, rfl, rfl⟩

variable {c : OpenAIStreamChunk}

theorem renderChunk_uneventful (fine : c.error = none) : Uneventful (renderChunk c) := by
  unfold renderChunk
  rw [fine]
  refine ensureStarted_uneventful.seq ?_
  split
  · exact .seq (.silent fun _ => ⟨rfl, rfl⟩) (emitMessageDelta_uneventful _)
  · rw [renderChoices_eq]
    exact .each renderItem_uneventful _

theorem renderDone_split : ∃ f, Uneventful f ∧ renderDone = seq f (emit .messageStop) := by
  refine ⟨seq ensureStarted (seq closeOpenBlock
    (fun r => if r.usageEmitted then skip r else emitMessageDelta none r)), ?_, ?_⟩
  · refine ensureStarted_uneventful.seq (closeOpenBlock_uneventful.seq (.of_choice fun r => ?_))
    split
    · exact ⟨skip, .skip, rfl⟩
    · exact ⟨_, emitMessageDelta_uneventful none, rfl⟩
  · simp only [renderDone, seq_assoc]

theorem surface : Surface anthropicStreamRenderer Event.mark Renderer.errorRelayed where
  marks e r := by
    cases e with
    | done =>
      obtain ⟨f, before, all⟩ := renderDone_split
      show (renderDone r).2.filterMap Event.mark = [.completed]
      rw [all, seq, List.filterMap_append, before.marks]
      rfl
    | chunk c =>
      show (renderChunk c r).2.filterMap Event.mark = _
      cases error : c.error with
      | none =>
        rw [(renderChunk_uneventful error).marks]
        simp [PumpEvent.mark, error]
      | some message =>
        simp only [renderChunk, error, seq, List.nil_append, List.filterMap_append,
          ensureStarted_uneventful.marks]
        simp [PumpEvent.mark, error, emit, Event.mark]
  relays e r := by
    cases e with
    | done =>
      obtain ⟨f, before, all⟩ := renderDone_split
      show (renderDone r).1.errorRelayed = _
      rw [all, seq]
      simpa [PumpEvent.mark, emit] using before.keeps r
    | chunk c =>
      show (renderChunk c r).1.errorRelayed = _
      cases error : c.error with
      | none =>
        rw [(renderChunk_uneventful error).keeps]
        simp [PumpEvent.mark, error]
      | some message =>
        have kept := ensureStarted_uneventful.keeps { r with errorRelayed := true }
        simpa [renderChunk, error, seq, emit, PumpEvent.mark] using kept
  failing c r error := by
    obtain ⟨message, is⟩ := Option.isSome_iff_exists.mp error
    refine ⟨(ensureStarted { r with errorRelayed := true }).2, .error message, ?_, rfl⟩
    show (renderChunk c r).2 = _
    simp [renderChunk, is, seq, emit]
  broken r fresh := by
    refine ⟨(ensureStarted r).2, .error "upstream stream interrupted", ?_, rfl,
      ensureStarted_uneventful.writes r⟩
    show (brokenEnd r).2 = _
    simp [brokenEnd, fresh, seq, emit]
  relayed r said := by
    show (brokenEnd r).2 = []
    simp [brokenEnd, said, skip]

def known (r : Renderer) : List Int := r.slots.map Prod.fst

def Closed (r : Renderer) : Prop := ∀ i k, ¬ r.Open i k

abbrev Sound (r : Renderer) : Prop := r.started = true ∧ r.Shape

abbrev Follows := Providers.Follows known Closed Sound

variable {r : Renderer} {items : List Item}

theorem renderItem_answers (r : Renderer) (here : Sound r) (item : Item) :
    Answers known Closed Sound item r (renderItem item r) := by
  have spoken {kind : TextKind} {d : BlockDelta} {text : String} {item : Item}
      (is : item = .thinking text ∨ item = .text text) (fits : d.kind = kind.block) :
      Answers known Closed Sound item r
        ((if text ≠ "" then seq (openTextualBlock kind) (emitTextual d) else skip) r) := by
    obtain ⟨r', i, es, eq, -, shape, tools, -, started, -, -, opened, -⟩ :=
      textual_spec here.2 fits
    refine answers_words is here ?_ ?_ ?_ ?_ <;> rw [eq]
    · exact ⟨started.trans here.1, shape⟩
    · simp only [known, Renderer.slots, tools]
    · exact fun closed => closed i _ opened
    · simp
  cases item with
  | thinking text => exact spoken (.inl rfl) rfl
  | text text => exact spoken (.inr rfl) rfl
  | tool tc =>
    show Answers _ _ _ _ r (renderToolCallDelta tc r)
    cases found : toolBlock r tc.index with
    | some tb =>
      have inside : tc.index ∈ known r := by
        by_contra outside
        rw [known, ← toolBlock_eq_none, found] at outside
        cases outside
      rw [renderToolCallDelta_known found]
      refine ⟨here, fun ix => ?_, by simp [Item.Adds, inside], ?_⟩
      · exact (or_iff_left_of_imp fun same => Option.some.inj same ▸ inside).symm
      · by_cases empty : tc.arguments = "" <;>
          simp [argumentDelta, empty, Item.Adds, Item.Argues, inside]
    | none =>
      have outside : tc.index ∉ known r := toolBlock_eq_none.mp found
      rw [renderToolCallDelta_new here.2 found]
      refine ⟨⟨here.1, here.2.startedTool found⟩, fun ix => ?_, ?_, by simp [Item.Adds, outside]⟩
      · simp [known, Renderer.slots, Renderer.startedTool, Item.callOf, eq_comm]
      · refine iff_of_false (fun closed => ?_) (by simp [Item.Adds, outside])
        exact closed r.nextBlock .toolUse (.inr ⟨rfl, tc.index, by simp [Renderer.startedTool]⟩)
  | finish reason =>
    have shape : ({ r with finish := reason } : Renderer).Shape :=
      ⟨here.2.kind, here.2.text, here.2.below, here.2.keys, here.2.indexes⟩
    obtain ⟨alike, shape', events, closed, -⟩ := closeOpenBlock_spec shape
    show Answers _ _ _ _ r (closeOpenBlock { r with finish := reason })
    refine ⟨⟨alike.started.trans here.1, shape'⟩, fun ix => ?_, iff_of_true closed (.inl ⟨_, rfl⟩), ?_⟩
    · rw [known, alike.slots]
      simp [known, Item.callOf, Renderer.slots]
    · rw [events, List.map_eq_nil_iff, List.eq_nil_iff_forall_not_mem]
      simp only [mem_openIndexes shape, not_exists, Item.Adds, Item.Argues]
      exact ⟨fun none_ => ⟨id, id, fun _ => none_⟩, fun hushed => hushed.2.2 ⟨reason, rfl⟩⟩

/-- What the renderer looks at: a chunk with usage is only read for its usage. -/
def spoken (chunks : List OpenAIStreamChunk) : List Item :=
  itemsOf (chunks.filter fun c => c.usage = none)

theorem spoken_cons (c : OpenAIStreamChunk) (chunks : List OpenAIStreamChunk) :
    spoken (c :: chunks) = (if c.usage = none then c.items else []) ++ spoken chunks := by
  unfold spoken
  rw [List.filter_cons]
  by_cases plain : c.usage = none <;> simp [plain, itemsOf]

theorem Follows.flagged (here : Follows items r) (usage error : Bool) :
    Follows items { r with
      usageEmitted := usage
      errorRelayed := error } :=
  ⟨⟨here.sound.1, ⟨here.sound.2.kind, here.sound.2.text, here.sound.2.below, here.sound.2.keys,
    here.sound.2.indexes⟩⟩, here.knows, here.settled⟩

theorem started_ensureStarted (r : Renderer) : (ensureStarted r).1.started = true := by
  unfold ensureStarted
  split
  · assumption
  · rfl

theorem Follows.chunk (here : Follows items r) (fine : c.error = none) :
    Follows (items ++ if c.usage = none then c.items else []) (renderChunk c r).1 ∧
      ((renderChunk c r).2 = [] ↔ c.usage = none ∧ Hushed items c.items) := by
  cases usage : c.usage with
  | some u =>
    simp only [renderChunk, fine, usage]
    rw [seq, ensureStarted_of_started here.sound.1]
    refine ⟨?_, iff_of_false (by simp [seq, emitMessageDelta]) (by simp)⟩
    simpa [seq, emitMessageDelta] using here.flagged true r.errorRelayed
  | none =>
    simp only [renderChunk, fine, usage]
    rw [seq, ensureStarted_of_started here.sound.1, renderChoices_eq]
    simpa using here.each renderItem_answers c.items

theorem renderChunk_ensureStarted (fine : c.error = none) (r : Renderer) :
    (renderChunk c r).1 = (renderChunk c (ensureStarted r).1).1 := by
  unfold renderChunk
  rw [fine]
  simp only [seq, ensureStarted_of_started (started_ensureStarted r)]

variable {chunks : List OpenAIStreamChunk}

theorem Follows.before (fine : ∀ c ∈ chunks, c.error = none)
    (here : Follows items (ensureStarted r).1) :
    Follows (items ++ spoken chunks)
      (ensureStarted (each render (chunks.map .chunk) r).1).1 := by
  induction chunks generalizing items r with
  | nil => simpa [spoken, itemsOf, each, skip] using here
  | cons c chunks ih =>
    obtain ⟨fine_c, fine⟩ := List.forall_mem_cons.mp fine
    have next := (here.chunk fine_c).1
    rw [← renderChunk_ensureStarted fine_c] at next
    have rest := ih fine (r := (renderChunk c r).1) (by rwa [ensureStarted_of_started next.sound.1])
    rw [spoken_cons, ← List.append_assoc]
    exact rest

theorem Follows.after (fine : ∀ c ∈ chunks, c.error = none) (here : Follows items r) :
    (each render (chunks.map .chunk) r).2 = [] ↔
      (∀ c ∈ chunks, c.usage = none) ∧ Hushed items (itemsOf chunks) := by
  induction chunks generalizing items r with
  | nil => exact iff_of_true rfl ⟨by simp, hushed_nil items⟩
  | cons c chunks ih =>
    obtain ⟨fine_c, fine⟩ := List.forall_mem_cons.mp fine
    obtain ⟨next, first⟩ := here.chunk fine_c
    have split : (each render ((c :: chunks).map .chunk) r).2 = [] ↔
        (renderChunk c r).2 = [] ∧ (each render (chunks.map .chunk) (renderChunk c r).1).2 = [] :=
      List.append_eq_nil_iff
    rw [split, ih fine next, first, itemsOf_cons, hushed_append, List.forall_mem_cons]
    constructor
    · rintro ⟨⟨plain, hushed⟩, rest, more⟩
      rw [if_pos plain] at more
      exact ⟨⟨plain, rest⟩, hushed, more⟩
    · rintro ⟨⟨plain, rest⟩, hushed, more⟩
      rw [if_pos plain]
      exact ⟨⟨plain, hushed⟩, rest, more⟩

def Quiet (before after : List (Bool × PumpEvent)) : Prop :=
  (∀ c ∈ chunksOf after, c.usage = none) ∧
    Hushed (spoken (chunksOf before)) (itemsOf (chunksOf after))

theorem quiet_iff (messageId model : String) (cacheReadInInput : Bool)
    (before : List (Bool × PumpEvent)) (c : OpenAIStreamChunk)
    (after : List (Bool × PumpEvent)) (error : c.error.isSome)
    (unmarked : ∀ h ∈ before ++ after, h.2.mark = none) :
    (each anthropicStreamRenderer.render (after.map Prod.snd)
        (each anthropicStreamRenderer.render (before.map Prod.snd ++ [.chunk c])
          { messageId, model, cacheReadInInput }).1).2 = [] ↔ Quiet before after := by
  obtain ⟨unmarked_before, unmarked_after⟩ := List.forall_mem_append.mp unmarked
  obtain ⟨chunks, fine⟩ := heard_unmarked unmarked_before
  obtain ⟨chunks', fine'⟩ := heard_unmarked unmarked_after
  have start : Follows [] (ensureStarted { messageId, model, cacheReadInInput }).1 := by
    refine ⟨⟨rfl, rfl, fun i eq => (by cases eq), ?_, ?_, ?_⟩, ?_, ?_⟩
    · simp [ensureStarted, emitStart, Renderer.slots]
    · simp [ensureStarted, emitStart, Renderer.slots]
    · simp [ensureStarted, emitStart, Renderer.slots]
    · simp [ensureStarted, emitStart, known, Renderer.slots, calls]
    · refine iff_of_true (fun before item after eq => ?_) fun i k => ?_
      · simp at eq
      · simp [Renderer.Open, ensureStarted, emitStart]
  have here := start.before fine
  obtain ⟨message, is⟩ := Option.isSome_iff_exists.mp error
  rw [chunks, chunks', each_append, seq]
  have relayed : Follows (spoken (chunksOf before)) (renderChunk c
      (each render ((chunksOf before).map .chunk) { messageId, model, cacheReadInInput }).1).1 := by
    have flagged := here.flagged
      (ensureStarted (each render ((chunksOf before).map .chunk)
        { messageId, model, cacheReadInInput }).1).1.usageEmitted true
    simp only [renderChunk, is, seq, emit]
    rw [List.nil_append] at flagged
    convert flagged using 1
    unfold ensureStarted
    split <;> rfl
  exact relayed.after fine'

end Messages

end YunhouUsers.Inference.Providers
