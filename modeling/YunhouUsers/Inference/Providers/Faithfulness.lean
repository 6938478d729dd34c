import Mathlib.Algebra.Order.Group.Nat
import YunhouUsers.Inference.Providers.Lines
import YunhouUsers.Inference.Providers.Simulation

/-!
When the Messages stream is a faithful rendering of the chunk stream.

The first usage object ends the message for a reader, whatever the renderer writes after it.
-/

namespace YunhouUsers.Inference.Providers

open Transducer Renderer

theorem itemsOf_append (chunks more : List OpenAIStreamChunk) :
    itemsOf (chunks ++ more) = itemsOf chunks ++ itemsOf more :=
  List.flatMap_append

/-! What a list of items adds. -/

theorem join_eq_empty {l : List String} : String.join l = "" ↔ ∀ s ∈ l, s = "" := by
  induction l with
  | nil => simp
  | cons s l ih => rw [String.join_cons, String.append_eq_empty_iff, ih, List.forall_mem_cons]

def argumentLength : Item → Nat
  | .tool tc => tc.arguments.length
  | _ => 0

theorem nodup_callArgs (items : List Item) : ((callArgs items).map Prod.fst).Nodup := by
  induction items using List.reverseRecOn with
  | nil => simp [callArgs]
  | append_singleton items item ih =>
    rw [callArgs_concat, keys_addItem]
    refine List.Nodup.append ih ?_ ?_
    · cases item.callOf with
      | none => simp
      | some ix => exact (List.nodup_singleton ix).filter _
    · intro ix old new
      simp only [List.mem_filter, decide_eq_true_eq] at new
      exact new.2 old

theorem size_addTo {K : Type} [DecidableEq K] {key : K} {table : List (K × String)}
    (unique : (table.map Prod.fst).Nodup) (mem : key ∈ table.map Prod.fst) (s : String) :
    ((addTo key s table).map (fun e => e.2.length)).sum =
      (table.map (fun e => e.2.length)).sum + s.length := by
  induction table with
  | nil => cases mem
  | cons e table ih =>
    obtain ⟨fresh, unique⟩ := List.nodup_cons.mp unique
    have unfolded : addTo key s (e :: table) =
        (if e.1 = key then (e.1, e.2 ++ s) else e) :: addTo key s table := rfl
    rw [unfolded, List.map_cons, List.map_cons, List.sum_cons, List.sum_cons]
    by_cases here : e.1 = key
    · rw [if_pos here, addTo_of_absent (here ▸ fresh), String.length_append]
      omega
    · have there : key ∈ table.map Prod.fst := by
        rcases List.mem_cons.mp mem with same | there
        · exact absurd same.symm here
        · exact there
      rw [if_neg here, ih unique there]
      omega

theorem size_callArgs (items : List Item) :
    ((callArgs items).map (fun e => e.2.length)).sum = (items.map argumentLength).sum := by
  induction items using List.reverseRecOn with
  | nil => rfl
  | append_singleton items item ih =>
    rw [callArgs_concat, List.map_append, List.sum_append, ← ih]
    cases item with
    | tool tc =>
      simp only [addItem]
      split
      · rename_i known
        rw [size_addTo (nodup_callArgs items) known]
        simp [argumentLength]
      · simp [argumentLength]
    | _ => simp [addItem, argumentLength]

theorem keys_callArgs (before more : List Item) :
    ∃ extra, (callArgs (before ++ more)).map Prod.fst = (callArgs before).map Prod.fst ++ extra := by
  induction more using List.reverseRecOn with
  | nil => exact ⟨[], by simp⟩
  | append_singleton more item ih =>
    obtain ⟨extra, eq⟩ := ih
    rw [← List.append_assoc, callArgs_concat, keys_addItem, eq, List.append_assoc]
    exact ⟨_, rfl⟩

theorem join_same {α : Type} (f : α → Option String) (before more : List α) :
    String.join (before.filterMap f) = String.join ((before ++ more).filterMap f) ↔
      ∀ x ∈ more, (f x).getD "" = "" := by
  rw [List.filterMap_append, String.join_append, eq_comm, String.append_eq_left_iff, join_eq_empty]
  constructor
  · intro empty x mem
    cases eq : f x with
    | none => rfl
    | some s => exact empty s (List.mem_filterMap.mpr ⟨x, mem, eq⟩)
  · intro empty s mem
    obtain ⟨x, inMore, eq⟩ := List.mem_filterMap.mp mem
    simpa [eq] using empty x inMore

theorem arguments_same (before more : List Item) :
    (callArgs before).map Prod.snd = (callArgs (before ++ more)).map Prod.snd ↔
      ∀ tc, .tool tc ∈ more → tc.index ∈ calls before ∧ tc.arguments = "" := by
  constructor
  · intro same tc mem
    have sizes : ((callArgs before).map (fun e => e.2.length)).sum =
        ((callArgs (before ++ more)).map (fun e => e.2.length)).sum := by
      have := congrArg (fun l => (l.map String.length).sum) same
      simpa only [List.map_map, Function.comp_def] using this
    have count : (callArgs before).length = (callArgs (before ++ more)).length := by
      simpa using congrArg List.length same
    constructor
    · -- equally many calls, and those of `before` come first
      obtain ⟨extra, keys⟩ := keys_callArgs before more
      have none : extra = [] := by
        have := congrArg List.length keys
        simp only [List.length_map, List.length_append] at this
        exact List.length_eq_zero_iff.mp (by omega)
      rw [none, List.append_nil] at keys
      rw [← mem_calls, ← keys, mem_calls, calls]
      exact List.mem_filterMap.mpr ⟨.tool tc, List.mem_append_right _ mem, rfl⟩
    · rw [size_callArgs, size_callArgs, List.map_append, List.sum_append] at sizes
      have zero : (more.map argumentLength).sum = 0 := by omega
      have within := List.single_le_sum (fun _ _ => Nat.zero_le _) (argumentLength (.tool tc))
        (List.mem_map_of_mem mem)
      rw [zero] at within
      exact String.length_eq_zero_iff.mp (Nat.le_zero.mp within)
  · intro silent
    induction more using List.reverseRecOn with
    | nil => simp
    | append_singleton more item ih =>
      rw [← List.append_assoc, callArgs_concat,
        ih fun tc mem => silent tc (List.mem_append_left _ mem)]
      cases item with
      | tool tc =>
        obtain ⟨known, empty⟩ := silent tc (by simp)
        have known' : tc.index ∈ (callArgs (before ++ more)).map Prod.fst := by
          rw [mem_calls, calls, List.filterMap_append]
          exact List.mem_append_left _ known
        simp only [addItem]
        rw [if_pos known', empty, addTo_empty]
      | _ => rfl

theorem silent_iff (before more : List Item) :
    (String.join (before.filterMap Item.textOf) =
        String.join ((before ++ more).filterMap Item.textOf) ∧
      String.join (before.filterMap Item.thinkingOf) =
        String.join ((before ++ more).filterMap Item.thinkingOf) ∧
      (callArgs before).map Prod.snd = (callArgs (before ++ more)).map Prod.snd) ↔
    Silent before more := by
  rw [join_same, join_same, arguments_same]
  constructor
  · rintro ⟨text, thinking, args⟩ item mem
    cases item with
    | text s => exact ⟨not_not.mpr (text _ mem), fun h => h⟩
    | thinking s => exact ⟨not_not.mpr (thinking _ mem), fun h => h⟩
    | tool tc => exact ⟨not_not.mpr (args tc mem).1, not_not.mpr (args tc mem).2⟩
    | finish reason => exact ⟨fun h => h, fun h => h⟩
  · intro silent
    refine ⟨fun item mem => ?_, fun item mem => ?_, fun tc mem => ?_⟩
    · cases item with
      | text s => exact not_not.mp (silent _ mem).1
      | _ => rfl
    · cases item with
      | thinking s => exact not_not.mp (silent _ mem).1
      | _ => rfl
    · exact ⟨not_not.mp (silent _ mem).1, not_not.mp (silent _ mem).2⟩

/-! Chunks before the first usage object. -/

def Begun (chunks : List OpenAIStreamChunk) (r : Renderer) (out : List Event) : Prop :=
  Sim (itemsOf chunks) (ensureStarted r).1 (out ++ (ensureStarted r).2)

theorem begun_initial (messageId model : String) (cacheReadInInput : Bool) :
    Begun [] { messageId, model, cacheReadInInput } [] := by
  refine ⟨⟨rfl, by simp [ensureStarted, emitStart], by simp [ensureStarted, emitStart, Renderer.slots],
    by simp [ensureStarted, emitStart, Renderer.slots],
    by simp [ensureStarted, emitStart, Renderer.slots]⟩, rfl, rfl, rfl, ⟨rfl, rfl, rfl⟩,
    ⟨[], rfl, rfl, rfl⟩, by simp [ensureStarted, emitStart], ?_, fun _ => ?_, fun late => ?_⟩
  · refine iff_of_true (fun before item after eq => ?_) fun i k => ?_
    · simp [itemsOf] at eq
    · simp [Renderer.Open, ensureStarted, emitStart]
  · exact ⟨[], rfl, fun i k => by simp [Renderer.Open, ensureStarted, emitStart]⟩
  · refine absurd (fun before tc after eq => ?_) late
    simp [itemsOf] at eq

variable {c : OpenAIStreamChunk}

theorem renderChunk_plain (fine : c.error = none) (plain : c.usage = none) :
    renderChunk c = seq ensureStarted (each renderItem c.items) := by
  simp only [renderChunk, fine, plain, renderChoices_eq]

theorem begun_chunk {chunks : List OpenAIStreamChunk}
    (fine : c.error = none) (plain : c.usage = none) :
    Triple (Begun chunks) (renderChunk c) (Begun (chunks ++ [c])) := by
  intro r out begun
  have items := Triple.each (I := Sim) (fun done item => Sim.item item) (itemsOf chunks) c.items
    _ _ begun
  rw [renderChunk_plain fine plain]
  have all : itemsOf (chunks ++ [c]) = itemsOf chunks ++ c.items := by
    simp [itemsOf]
  unfold Begun
  rw [all, seq, ensureStarted_of_started items.started]
  simpa using items

theorem begun_chunks {chunks : List OpenAIStreamChunk} (fine : ∀ c ∈ chunks, c.error = none)
    (plain : ∀ c ∈ chunks, c.usage = none) (done : List OpenAIStreamChunk) :
    Triple (Begun done) (each render (chunks.map .chunk)) (Begun (done ++ chunks)) := by
  induction chunks generalizing done with
  | nil => exact Triple.skip fun _ _ begun => by simpa using begun
  | cons c chunks ih =>
    obtain ⟨fine_c, fine⟩ := List.forall_mem_cons.mp fine
    obtain ⟨plain_c, plain⟩ := List.forall_mem_cons.mp plain
    have rest := ih fine plain (done ++ [c])
    rw [List.append_assoc, List.singleton_append] at rest
    exact (begun_chunk fine_c plain_c).seq rest

def ending (stop : StopReason) (usage : Option AnthropicUsage) : List Event :=
  [.messageDelta stop usage, .messageStop]

variable {r : Renderer} {out : List Event} {items : List Item}

theorem renderDone_plain (sim : Sim items (ensureStarted r).1 out) :
    (renderDone r).2 = (ensureStarted r).2 ++ ((closeOpenBlock (ensureStarted r).1).2 ++
      ending (chatFinishToAnthropicStop (lastFinish items)) none) := by
  obtain ⟨alike, _⟩ := closeOpenBlock_spec sim.shape
  have open_ : (closeOpenBlock (ensureStarted r).1).1.usageEmitted = false :=
    alike.usageEmitted.trans sim.unreported
  have finish := alike.finish.trans sim.finish
  simp only [renderDone, seq, open_, emitMessageDelta, emit, finish]
  rfl

theorem Sim.ends (sim : Sim items r out)
    (stop : StopReason) (usage : Option AnthropicUsage) :
    scan (some .idle) (out ++ ((closeOpenBlock r).2 ++ ending stop usage)) = some .stopped ↔
      NoneLate items := by
  constructor
  · intro accepted
    by_contra late
    rw [sim.stays_lost late] at accepted
    cases accepted
  · intro none
    obtain ⟨_, _, _, closed, tracks⟩ := closeOpenBlock_spec sim.shape
    obtain ⟨opened, phase, agree⟩ := tracks out (sim.tracks none)
    have empty : opened = [] :=
      List.eq_nil_iff_forall_not_mem.mpr fun e mem => closed e.1 e.2 ((agree e.1 e.2).mp mem)
    rw [← List.append_assoc, scan_append, phase, empty]
    rfl

theorem Sim.faithful_iff {es : List Event}
    (sim : Sim items r out) (bare : ∀ e ∈ es, e.Wordless ∧ ∀ table, addEvent table e = table)
    (stop : StopReason) (usage : Option AnthropicUsage) (chunks : List OpenAIStreamChunk) :
    Faithful chunks (out ++ (es ++ ending stop usage)) ↔
      scan (some .idle) (out ++ (es ++ ending stop usage)) = some .stopped ∧
      (String.join (items.filterMap Item.textOf) =
          String.join ((itemsOf chunks).filterMap Item.textOf) ∧
        String.join (items.filterMap Item.thinkingOf) =
          String.join ((itemsOf chunks).filterMap Item.thinkingOf) ∧
        (callArgs items).map Prod.snd = (callArgs (itemsOf chunks)).map Prod.snd) ∧
      stop = chatFinishToAnthropicStop (lastFinish (itemsOf chunks)) := by
  have said := sim.said.events fun e mem => (bare e mem).1
  have text : String.join ((out ++ (es ++ ending stop usage)).filterMap Event.text) =
      String.join (items.filterMap Item.textOf) := by
    rw [← List.append_assoc, List.filterMap_append, String.join_append, said.text]
    exact String.append_empty
  have thinking : String.join ((out ++ (es ++ ending stop usage)).filterMap Event.thinking) =
      String.join (items.filterMap Item.thinkingOf) := by
    rw [← List.append_assoc, List.filterMap_append, String.join_append, said.thinking]
    exact String.append_empty
  have args : (blockArgs (out ++ (es ++ ending stop usage))).map Prod.snd =
      (callArgs items).map Prod.snd := by
    rw [blockArgs_same, sim.carries.arguments]
    intro e mem table
    rcases List.mem_append.mp mem with mem | mem
    · exact (bare e mem).2 table
    · rcases List.mem_cons.mp mem with rfl | mem
      · rfl
      · rw [List.mem_singleton.mp mem]
        rfl
  have stops : (out ++ (es ++ ending stop usage)).filterMap Event.stopReason = [stop] := by
    rw [← List.append_assoc, List.filterMap_append, said.noStop]
    rfl
  constructor
  · rintro ⟨accepted, text', thinking', args', stop'⟩
    rw [stops] at stop'
    exact ⟨accepted, ⟨text ▸ text', thinking ▸ thinking', args ▸ args'⟩, (List.cons.inj stop').1⟩
  · rintro ⟨accepted, ⟨text', thinking', args'⟩, stop'⟩
    exact ⟨accepted, text.trans text', thinking.trans thinking', args.trans args',
      by rw [stops, stop']⟩

theorem bare_closeOpenBlock (shape : r.Shape) :
    ∀ e ∈ (closeOpenBlock r).2, e.Wordless ∧ ∀ table, addEvent table e = table := by
  rw [(closeOpenBlock_spec shape).2.2.1]
  intro e mem
  obtain ⟨i, _, rfl⟩ := List.mem_map.mp mem
  exact ⟨⟨rfl, rfl, rfl⟩, fun _ => rfl⟩

def rendered (r : Renderer) (events : List PumpEvent) : List Event := (each render events r).2

theorem rendered_append (r : Renderer) (events more : List PumpEvent) :
    rendered r (events ++ more) = rendered r events ++ rendered (each render events r).1 more := by
  rw [rendered, each_append]
  rfl

theorem rendered_cons (r : Renderer) (e : PumpEvent) (events : List PumpEvent) :
    rendered r (e :: events) = (render e r).2 ++ rendered (render e r).1 events := rfl

theorem faithful_plain {chunks : List OpenAIStreamChunk} (fine : ∀ c ∈ chunks, c.error = none)
    (plain : ∀ c ∈ chunks, c.usage = none) (messageId model : String) (cacheReadInInput : Bool) :
    Faithful chunks (rendered { messageId, model, cacheReadInInput }
      (chunks.map .chunk ++ [.done])) ↔ NoneLate (itemsOf chunks) := by
  have sim := begun_chunks fine plain [] _ _ (begun_initial messageId model cacheReadInInput)
  rw [List.nil_append, Begun, List.nil_append] at sim
  rw [rendered, each_append, seq, each_cons]
  simp only [each, seq_skip, render]
  rw [renderDone_plain sim, ← List.append_assoc,
    sim.faithful_iff (bare_closeOpenBlock sim.shape), sim.ends]
  simp

/-! After the first usage object. -/

structure Dormant (items : List Item) (r : Renderer) : Prop where
  started : r.started = true
  reported : r.usageEmitted = true
  noText : r.openTextBlock = none
  noTool : ∀ e ∈ r.toolBlocks, e.2.isOpen = false
  known : ∀ ix, ix ∈ calls items ↔ toolBlock r ix ≠ none

theorem Dormant.closeOpenBlock (dormant : Dormant items r) :
    closeOpenBlock r = (r, []) := by
  have none_open : openIndexes r = [] := by
    have tools : r.toolBlocks.filter (fun e => e.2.isOpen) = [] :=
      List.filter_eq_nil_iff.mpr fun e mem => by simp [dormant.noTool e mem]
    simp [openIndexes, dormant.noText, tools]
  simp [Providers.closeOpenBlock, none_open, each, skip]

theorem Dormant.item (dormant : Dormant items r) (item : Item) :
    ((renderItem item r).2 = [] ↔ ¬ item.Begins items ∧ ¬ item.Argues) ∧
      ((renderItem item r).2 = [] → Dormant items (renderItem item r).1) := by
  have words : ∀ (s : String) (kind : TextKind) (d : BlockDelta),
      ((if s ≠ "" then seq (openTextualBlock kind) (emitTextual d) else skip) r =
        if s ≠ "" then seq (openTextualBlock kind) (emitTextual d) r else (r, [])) := by
    intro s kind d
    split <;> rfl
  cases item with
  | thinking s | text s =>
    simp only [renderItem, words, Item.Begins, Item.Argues, not_false_iff, and_true]
    split
    · rename_i nonempty
      simp [seq, emitTextual, nonempty]
    · rename_i empty
      simp [not_not.mp empty, dormant]
  | tool tc =>
    simp only [renderItem, Item.Begins, Item.Argues, not_not, dormant.known]
    cases found : toolBlock r tc.index with
    | none => simp [renderToolCallDelta, found, seq, openToolBlock]
    | some tb =>
      rw [renderToolCallDelta_known found]
      by_cases empty : tc.arguments = "" <;> simp [argumentDelta, empty, dormant]
  | finish reason =>
    have still : Dormant items { r with finish := reason } :=
      ⟨dormant.started, dormant.reported, dormant.noText, dormant.noTool, dormant.known⟩
    have effect : renderItem (.finish reason) r = ({ r with finish := reason }, []) :=
      still.closeOpenBlock
    rw [effect]
    exact ⟨iff_of_true rfl ⟨fun h => h, fun h => h⟩, fun _ => still⟩

theorem Dormant.eachItem (dormant : Dormant items r) (more : List Item) :
    ((each renderItem more r).2 = [] ↔ Silent items more) ∧
      ((each renderItem more r).2 = [] → Dormant items (each renderItem more r).1) := by
  induction more generalizing r with
  | nil => exact ⟨iff_of_true rfl fun _ mem => (by cases mem), fun _ => dormant⟩
  | cons item more ih =>
    obtain ⟨first, next⟩ := dormant.item item
    have split : (each renderItem (item :: more) r).2 = [] ↔
        (renderItem item r).2 = [] ∧ (each renderItem more (renderItem item r).1).2 = [] :=
      List.append_eq_nil_iff
    rw [split, Silent, List.forall_mem_cons, ← first]
    refine ⟨and_congr_right fun nothing => (ih (next nothing)).1, ?_⟩
    rintro ⟨nothing, rest⟩
    exact (ih (next nothing)).2 rest

theorem Dormant.chunk (dormant : Dormant items r) (fine : c.error = none) :
    ((renderChunk c r).2 = [] ↔ c.usage = none ∧ Silent items c.items) ∧
      ((renderChunk c r).2 = [] → Dormant items (renderChunk c r).1) := by
  cases usage : c.usage with
  | none =>
    rw [renderChunk_plain fine usage, seq, ensureStarted_of_started dormant.started]
    simpa using dormant.eachItem c.items
  | some u =>
    simp [renderChunk, fine, usage, seq, emitMessageDelta]

variable {after : List OpenAIStreamChunk}

theorem Dormant.chunks (dormant : Dormant items r)
    (fine : ∀ c ∈ after, c.error = none) :
    ((each render (after.map .chunk) r).2 = [] ↔
        (∀ c ∈ after, c.usage = none) ∧ Silent items (itemsOf after)) ∧
      ((each render (after.map .chunk) r).2 = [] →
        Dormant items (each render (after.map .chunk) r).1) := by
  induction after generalizing r with
  | nil =>
    refine ⟨iff_of_true rfl ⟨by simp, fun _ mem => (by cases mem)⟩, fun _ => dormant⟩
  | cons c after ih =>
    obtain ⟨fine_c, fine⟩ := List.forall_mem_cons.mp fine
    obtain ⟨first, next⟩ := dormant.chunk fine_c
    have split : (each render ((c :: after).map .chunk) r).2 = [] ↔
        (renderChunk c r).2 = [] ∧ (each render (after.map .chunk) (renderChunk c r).1).2 = [] :=
      List.append_eq_nil_iff
    have silent : Silent items (itemsOf (c :: after)) ↔
        Silent items c.items ∧ Silent items (itemsOf after) := by
      simp only [Silent, itemsOf, List.flatMap_cons, List.forall_mem_append]
    rw [split, silent, List.forall_mem_cons]
    refine ⟨?_, ?_⟩
    · constructor
      · rintro ⟨nothing, rest⟩
        obtain ⟨plain, quiet⟩ := first.mp nothing
        obtain ⟨plain', quiet'⟩ := (ih (next nothing) fine).1.mp rest
        exact ⟨⟨plain, plain'⟩, quiet, quiet'⟩
      · rintro ⟨⟨plain, plain'⟩, quiet, quiet'⟩
        have nothing := first.mpr ⟨plain, quiet⟩
        exact ⟨nothing, (ih (next nothing) fine).1.mpr ⟨plain', quiet'⟩⟩
    · rintro ⟨nothing, rest⟩
      exact (ih (next nothing) fine).2 rest

theorem scan_ended (es : List Event) :
    scan (some .ended) es = some .stopped ↔ es = [.messageStop] := by
  cases es with
  | nil => simp [scan]
  | cons e es =>
    have step : scan (some .ended) (e :: es) = scan (Phase.ended.step e) es := rfl
    rw [step]
    cases e with
    | messageStop =>
      cases es with
      | nil => simp [scan, Phase.step]
      | cons e es =>
        have lost : scan (Phase.ended.step .messageStop) (e :: es) = scan none es := by
          cases e <;> rfl
        simp [lost, scan_none]
    | _ => simp [Phase.step, scan_none]

theorem Dormant.rest (dormant : Dormant items r)
    (fine : ∀ c ∈ after, c.error = none) :
    rendered r (after.map .chunk ++ [.done]) = [.messageStop] ↔
      (∀ c ∈ after, c.usage = none) ∧ Silent items (itemsOf after) := by
  obtain ⟨quiet, still⟩ := dormant.chunks fine
  rw [← quiet, rendered, each_append, seq, each_cons]
  simp only [each, seq_skip, render]
  constructor
  · intro alone
    have last : ∀ r, ∃ es, (renderDone r).2 = es ++ [.messageStop] := by
      intro r
      simp only [renderDone, seq, emit, ← List.append_assoc]
      exact ⟨_, rfl⟩
    obtain ⟨es, eq⟩ := last (each render (after.map .chunk) r).1
    rw [eq, ← List.append_assoc] at alone
    have nothing := List.append_cancel_right (alone.trans (List.nil_append _).symm)
    exact (List.append_eq_nil_iff.mp nothing).1
  · intro nothing
    have dormant' := still nothing
    simp [nothing, renderDone, seq, ensureStarted_of_started dormant'.started,
      dormant'.closeOpenBlock, dormant'.reported, emit, skip]

theorem Sim.dormant (sim : Sim items r out)
    (settled : Settled items) : Dormant items { r with usageEmitted := true } := by
  have closed := sim.settled.mp settled
  refine ⟨sim.started, rfl, ?_, fun e mem => ?_, fun ix => ?_⟩
  · change r.openTextBlock = none
    cases text : r.openTextBlock with
    | none => rfl
    | some i =>
      have kind := sim.shape.kind
      rw [text, Option.isSome_some] at kind
      obtain ⟨kind, eq⟩ := Option.isSome_iff_exists.mp kind
      exact absurd (.inl ⟨kind, text, eq, rfl⟩) (closed i kind.block)
  · by_contra isOpen
    rw [Bool.not_eq_false] at isOpen
    refine closed e.2.index .toolUse (.inr ⟨rfl, e.1, ?_⟩)
    rw [← isOpen]
    exact mem
  · rw [sim.known]
    change _ ↔ ¬ toolBlock r ix = none
    rw [toolBlock_eq_none, not_not]

theorem Sim.reported {rest : List Event}
    (sim : Sim items r out) (stop : StopReason) (usage : Option AnthropicUsage) :
    scan (some .idle) (out ++ .messageDelta stop usage :: rest) = some .stopped ↔
      NoneLate items ∧ Settled items ∧ rest = [.messageStop] := by
  by_cases none : NoneLate items
  · obtain ⟨opened, phase, agree⟩ := sim.tracks none
    have step : scan (some .idle) (out ++ .messageDelta stop usage :: rest) =
        scan ((Phase.body r.nextBlock opened).step (.messageDelta stop usage)) rest := by
      rw [scan_append, phase]
      rfl
    rw [step, sim.settled]
    cases opened with
    | nil =>
      have closed : ∀ i k, ¬ r.Open i k := fun i k here => by
        have := (agree i k).mpr here
        cases this
      simp only [Phase.step, scan_ended, none, true_and]
      exact (and_iff_right closed).symm
    | cons e opened =>
      have here := (agree e.1 e.2).mp List.mem_cons_self
      refine iff_of_false ?_ fun h => h.2.1 e.1 e.2 here
      simp [Phase.step, scan_none]
  · rw [sim.stays_lost none]
    simp [none]

theorem renderChunk_usage (fine : c.error = none) {u : OpenAIUsage}
    (usage : c.usage = some u) (r : Renderer) :
    renderChunk c r = ({ (ensureStarted r).1 with usageEmitted := true },
      (ensureStarted r).2 ++ [.messageDelta (chatFinishToAnthropicStop (ensureStarted r).1.finish)
        (some (anthropicUsageShape u (ensureStarted r).1.cacheReadInInput))]) := by
  simp [renderChunk, fine, usage, seq, emitMessageDelta]

variable {before : List OpenAIStreamChunk}

theorem rendered_usage (fine : ∀ d ∈ before, d.error = none) (fine_c : c.error = none)
    (plain : ∀ d ∈ before, d.usage = none) (usage : c.usage ≠ none) (messageId model : String)
    (cacheReadInInput : Bool) :
    ∃ r out total, Sim (itemsOf before) r out ∧
      rendered { messageId, model, cacheReadInInput }
          ((before ++ c :: after).map .chunk ++ [.done]) =
        out ++ .messageDelta (chatFinishToAnthropicStop (lastFinish (itemsOf before))) total ::
          rendered { r with usageEmitted := true } (after.map .chunk ++ [.done]) := by
  obtain ⟨u, some_u⟩ := Option.ne_none_iff_exists'.mp usage
  have sim := begun_chunks fine plain [] _ _ (begun_initial messageId model cacheReadInInput)
  rw [List.nil_append, Begun, List.nil_append] at sim
  rw [List.map_append, List.append_assoc, rendered_append, List.map_cons, List.cons_append,
    rendered_cons, rendered]
  generalize each render (before.map .chunk) { messageId, model, cacheReadInInput } = state at sim ⊢
  refine ⟨_, _, some (anthropicUsageShape u (ensureStarted state.1).1.cacheReadInInput), sim, ?_⟩
  rw [render, renderChunk_usage fine_c some_u, ← sim.finish]
  simp

theorem faithful_usage
    (fine : ∀ d ∈ before ++ c :: after, d.error = none) (plain : ∀ d ∈ before, d.usage = none)
    (usage : c.usage ≠ none) (messageId model : String) (cacheReadInInput : Bool) :
    Faithful (before ++ c :: after) (rendered { messageId, model, cacheReadInInput }
        ((before ++ c :: after).map .chunk ++ [.done])) ↔
      NoneLate (itemsOf before) ∧ Settled (itemsOf before) ∧ (∀ d ∈ after, d.usage = none) ∧
        Silent (itemsOf before) (itemsOf (c :: after)) ∧
        chatFinishToAnthropicStop (lastFinish (itemsOf before)) =
          chatFinishToAnthropicStop (lastFinish (itemsOf (before ++ c :: after))) := by
  obtain ⟨fine, fineRest⟩ := List.forall_mem_append.mp fine
  obtain ⟨fine_c, fine'⟩ := List.forall_mem_cons.mp fineRest
  obtain ⟨r, out, total, sim, eq⟩ :=
    rendered_usage fine fine_c plain usage messageId model cacheReadInInput
  rw [eq]
  have content : Faithful (before ++ c :: after) (out ++ ([] ++ ending _ total)) ↔ _ :=
    sim.faithful_iff (by simp) (chatFinishToAnthropicStop (lastFinish (itemsOf before))) total _
  rw [itemsOf_append, silent_iff] at content
  constructor
  · intro faithful
    obtain ⟨none, settled, alone⟩ := (sim.reported _ _).mp faithful.wellFormed
    rw [alone] at faithful
    obtain ⟨_, silent, stop⟩ := content.mp faithful
    refine ⟨none, settled, ((sim.dormant settled).rest fine').mp alone |>.1, silent, ?_⟩
    rw [itemsOf_append]
    exact stop
  · rintro ⟨none, settled, plain', silent, stop⟩
    have quiet : Silent (itemsOf before) (itemsOf after) := fun item mem =>
      silent item (by simp only [itemsOf, List.flatMap_cons]; exact List.mem_append_right _ mem)
    have alone := ((sim.dormant settled).rest fine').mpr ⟨plain', quiet⟩
    rw [itemsOf_append] at stop
    rw [alone]
    exact content.mpr ⟨(sim.reported _ _).mpr ⟨none, settled, rfl⟩, silent, stop⟩

theorem faithful_iff_orderly {chunks : List OpenAIStreamChunk}
    (fine : ∀ c ∈ chunks, c.error = none) (messageId model : String) (cacheReadInInput : Bool) :
    Faithful chunks (rendered { messageId, model, cacheReadInInput }
      (chunks.map .chunk ++ [.done])) ↔ Orderly chunks := by
  constructor
  · intro faithful
    by_cases plain : ∀ c ∈ chunks, c.usage = none
    · exact .inl ⟨plain, (faithful_plain fine plain messageId model cacheReadInInput).mp faithful⟩
    · obtain ⟨c, mem, usage⟩ := by simpa only [not_forall] using plain
      -- split at the first usage object
      obtain ⟨c, before, after, none, usage, rfl, _⟩ :=
        List.exists_of_eraseP mem (p := fun c => c.usage ≠ .none) (by simpa using usage)
      have plain' : ∀ d ∈ before, d.usage = .none := by simpa using none
      have usage' : c.usage ≠ .none := by simpa using usage
      obtain ⟨late, settled, plain'', silent, stop⟩ :=
        (faithful_usage fine plain' usage' messageId model cacheReadInInput).mp faithful
      exact .inr ⟨before, c, after, rfl, usage', List.forall_mem_append.mpr ⟨plain', plain''⟩, late,
        settled, silent, stop.symm⟩
  · rintro (⟨plain, late⟩ | ⟨before, c, after, rfl, usage, plain, late, settled, silent, stop⟩)
    · exact (faithful_plain fine plain messageId model cacheReadInInput).mpr late
    · obtain ⟨plain', plain''⟩ := List.forall_mem_append.mp plain
      exact (faithful_usage fine plain' usage messageId model cacheReadInInput).mpr
        ⟨late, settled, plain'', silent, stop.symm⟩

/-- However the source is cut into reads: the Messages stream is well formed and lossless exactly
when usage comes at most once, after everything else, and no call goes on after a finish reason. -/
theorem messages_stream_faithful (unmarshal : Bytes → Option OpenAIStreamChunk)
    (lines reads : List Bytes) (chunks : List OpenAIStreamChunk) (messageId model : String)
    (cacheReadInInput : Bool) (plain : ∀ l ∈ lines, newline ∉ l ∧ l.length ≤ trackLineCap)
    (cut : reads.flatten = encodeLines lines)
    (decoded : lines.filterMap (scanLine unmarshal) = chunks.map .chunk ++ [.done])
    (fine : ∀ c ∈ chunks, c.error = none) :
    Faithful chunks
        (translateOpenAIToAnthropicStream unmarshal reads messageId model cacheReadInInput) ↔
      Orderly chunks := by
  have events : pump unmarshal [] reads = chunks.map .chunk ++ [.done] :=
    (pump_lines unmarshal plain cut).trans decoded
  have terminal : (chunks.map PumpEvent.chunk ++ [PumpEvent.done]).any (· = PumpEvent.done) := by
    simp
  have output : translateOpenAIToAnthropicStream unmarshal reads messageId model cacheReadInInput =
      rendered { messageId, model, cacheReadInInput } (chunks.map .chunk ++ [.done]) := by
    simp [translateOpenAIToAnthropicStream, events, terminal, seq_skip, rendered]
  rw [output]
  exact faithful_iff_orderly fine messageId model cacheReadInInput

theorem settled_concat_finish (items : List Item) (reason : String) :
    Settled (items ++ [.finish reason]) := by
  intro before item after eq begins
  rcases List.eq_nil_or_concat after with rfl | ⟨after, last, rfl⟩
  · obtain ⟨_, same⟩ := List.append_inj' eq rfl
    simp only [List.cons.injEq, and_true] at same
    rw [← same] at begins
    exact begins.elim
  · have eq' : items ++ [.finish reason] = (before ++ item :: after) ++ [last] := by simpa using eq
    obtain ⟨_, same⟩ := List.append_inj' eq' rfl
    exact ⟨reason, by simpa using .inr (List.cons.inj same).1⟩

theorem noneLate_concat_finish (reason : String)
    (unfinished : ∀ r, Item.finish r ∉ items) : NoneLate (items ++ [.finish reason]) := by
  rintro before tc after eq - ⟨start, r, rest, rfl, -⟩
  have mem : Item.finish r ∈ (items ++ [Item.finish reason]).dropLast := by
    rw [eq, List.append_assoc, List.dropLast_append_of_ne_nil (by simp)]
    simp [List.dropLast]
  exact unfinished r (by simpa using mem)

theorem messages_stream_faithful_parallel :
    let calls : List ToolCallDelta := [{ index := 0, id := "a", name := "f", arguments := "x" },
      { index := 1, id := "b", name := "g", arguments := "z" }, { index := 0, arguments := "y" }]
    let first : OpenAIStreamChunk :=
      { choices := [{ content := "hi", toolCalls := calls, finishReason := some "tool_calls" }] }
    let last : OpenAIStreamChunk := { usage := some { promptTokens := some 3 } }
    let unmarshal (payload : Bytes) := some (if payload.length = 2 then first else last)
    let reads := [ascii "data: {}\n\nda", ascii "ta: {usage}\ndata: [DONE]\n"]
    Faithful [first, last] (translateOpenAIToAnthropicStream unmarshal reads "m" "gpt" false) := by
  intro calls first last unmarshal reads
  refine (messages_stream_faithful unmarshal
    [ascii "data: {}", [], ascii "data: {usage}", ascii "data: [DONE]"] reads [first, last] "m" "gpt"
    false (by decide +kernel) (by decide +kernel) (by decide +kernel) (by decide +kernel)).mpr ?_
  have items : itemsOf [first] =
      [.thinking "", .text "hi"] ++ calls.map .tool ++ [.finish "tool_calls"] := by decide
  refine .inr ⟨[first], last, [], rfl, by decide, by decide, ?_, ?_, ?_, rfl⟩
  · rw [items]
    exact noneLate_concat_finish _ (by simp)
  · rw [items]
    exact settled_concat_finish _ _
  · simp [Silent, itemsOf, OpenAIStreamChunk.items, last]

/-- Text on the usage chunk is lost, and a fragment after the finish reason goes to a stopped
block. -/
theorem usage_chunk_and_late_fragment_rendered :
    let call : ToolCallDelta := { index := 0, id := "a", name := "f", arguments := "x" }
    let one : OpenAIStreamChunk :=
      { choices := [{ content := "hi", finishReason := some "stop" }], usage := some {} }
    let two : OpenAIStreamChunk :=
      { choices := [{ toolCalls := [call], finishReason := some "tool_calls" },
          { toolCalls := [call] }] }
    let lines := [ascii "data: {}", ascii "data: [DONE]"]
    (∀ l ∈ lines, newline ∉ l ∧ l.length ≤ trackLineCap) ∧
    ∀ chunk ∈ [one, two], chunk.error = none ∧
      lines.filterMap (scanLine (fun _ => some chunk)) = [.chunk chunk, .done] ∧
      ¬ Faithful [chunk] (translateOpenAIToAnthropicStream (fun _ => some chunk)
        [encodeLines lines] "m" "gpt" false) := by
  intro call one two lines
  refine ⟨by decide +kernel, ?_⟩
  simp only [List.forall_mem_cons, List.not_mem_nil, false_implies, implies_true, and_true]
  constructor
  · exact ⟨rfl, by decide +kernel, fun faithful => absurd faithful.text (by decide +kernel)⟩
  · exact ⟨rfl, by decide +kernel, fun faithful => absurd faithful.wellFormed (by decide +kernel)⟩

end YunhouUsers.Inference.Providers
