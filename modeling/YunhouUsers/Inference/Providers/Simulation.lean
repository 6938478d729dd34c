import Mathlib.Data.List.Induction
import YunhouUsers.Inference.Providers.Content

/-!
Up to the first usage object the renderer and a reader of its events are in step, unless a call
goes on after a finish reason.
-/

namespace YunhouUsers.Inference.Providers

open Transducer Renderer

def renderItem : Item → Action
  | .thinking s =>
    if s ≠ "" then seq (openTextualBlock .thinking) (emitTextual (.thinking s)) else skip
  | .text s => if s ≠ "" then seq (openTextualBlock .text) (emitTextual (.text s)) else skip
  | .tool tc => renderToolCallDelta tc
  | .finish reason => renderFinish reason

theorem ensureStarted_of_started {r : Renderer} (started : r.started = true) :
    ensureStarted r = (r, []) := by
  simp [ensureStarted, started, skip]

theorem renderChoice_eq (c : Choice) : renderChoice c = each renderItem c.items := by
  rw [c.each_items, renderChoice]
  cases c.finishReason <;> rfl

theorem renderChoices_eq (c : OpenAIStreamChunk) :
    each renderChoice c.choices = each renderItem c.items :=
  c.each_items renderChoice_eq

theorem keys_addTo {K : Type} [DecidableEq K] (key : K) (s : String) (table : List (K × String)) :
    (addTo key s table).map Prod.fst = table.map Prod.fst := by
  rw [addTo, List.map_map]
  refine List.map_congr_left fun e _ => ?_
  dsimp only [Function.comp]
  split <;> rfl

theorem keys_addItem (table : List (Int × String)) (item : Item) :
    (addItem table item).map Prod.fst = table.map Prod.fst ++
      item.callOf.toList.filter (fun ix => ix ∉ table.map Prod.fst) := by
  cases item with
  | tool tc =>
    simp only [addItem]
    split
    · rename_i known
      rw [keys_addTo]
      simp [Item.callOf, known]
    · rename_i fresh
      simp [Item.callOf, fresh]
  | _ => simp [addItem, Item.callOf]

theorem mem_calls {items : List Item} {ix : Int} :
    ix ∈ (callArgs items).map Prod.fst ↔ ix ∈ calls items := by
  induction items using List.reverseRecOn with
  | nil => simp [callArgs, calls]
  | append_singleton items item ih =>
    rw [callArgs_concat, keys_addItem, calls, List.filterMap_append, List.mem_append,
      List.mem_append]
    refine Iff.trans ?_ (or_congr_left ih)
    cases eq : item.callOf with
    | none => simp [eq]
    | some ix' =>
      simp only [Option.toList_some, List.mem_filter, List.mem_singleton, decide_eq_true_eq,
        List.filterMap_cons, eq, List.filterMap_nil]
      constructor
      · rintro (old | ⟨same, _⟩)
        · exact .inl old
        · exact .inr same
      · rintro (old | rfl)
        · exact .inl old
        · exact or_iff_not_imp_left.mpr fun fresh => ⟨rfl, fresh⟩

theorem lastFinish_concat (items : List Item) (item : Item) :
    lastFinish (items ++ [item]) = item.finishOf.getD (lastFinish items) := by
  unfold lastFinish
  cases eq : item.finishOf <;> simp [List.filterMap_append, eq]

theorem calls_of_sealed {items : List Item} {ix : Int} (sealed_ : Sealed items ix) :
    ix ∈ calls items := by
  obtain ⟨before, reason, after, rfl, mem⟩ := sealed_
  simp only [calls, List.filterMap_append, List.mem_append]
  exact .inl mem

structure Sim (items : List Item) (r : Renderer) (out : List Event) : Prop where
  shape : r.Shape
  started : r.started = true
  unreported : r.usageEmitted = false
  finish : r.finish = lastFinish items
  said : Says items out
  carries : Carries items r.slots out
  ceased : ∀ e ∈ r.toolBlocks, e.2.isOpen = false ↔ Sealed items e.1
  settled : Settled items ↔ ∀ i k, ¬ r.Open i k
  tracks : NoneLate items → r.Tracks out
  lost : ¬ NoneLate items → scan (some .idle) out = none

namespace Sim

variable {items : List Item} {r : Renderer} {out : List Event}

theorem known (sim : Sim items r out) {ix : Int} : ix ∈ calls items ↔ ix ∈ r.slots.map Prod.fst := by
  rw [← mem_calls, sim.carries.calls]

theorem stays_lost (sim : Sim items r out) (late : ¬ NoneLate items) (es : List Event) :
    scan (some .idle) (out ++ es) = none := by
  rw [scan_append, sim.lost late, scan_none]

theorem textual (sim : Sim items r out) {r' : Renderer} {es : List Event} {item : Item}
    (call : item.callOf = none) (finish : item.finishOf = none) (shape : r'.Shape)
    (tools : r'.toolBlocks = r.toolBlocks) (finish' : r'.finish = r.finish)
    (started : r'.started = r.started) (usage : r'.usageEmitted = r.usageEmitted)
    (said : Says (items ++ [item]) (out ++ es))
    (same : ∀ e ∈ es, ∀ table, addEvent table e = table)
    (settled : Settled (items ++ [item]) ↔ ∀ i k, ¬ r'.Open i k)
    (tracks : r.Tracks out → r'.Tracks (out ++ es)) : Sim (items ++ [item]) r' (out ++ es) := by
  have notTool : ∀ tc, item ≠ .tool tc := by
    rintro tc rfl
    cases call
  have notFinish : ¬ ∃ reason, item = .finish reason := by
    rintro ⟨reason, rfl⟩
    cases finish
  have late : NoneLate (items ++ [item]) ↔ NoneLate items := by
    rw [noneLate_concat]
    exact and_iff_left fun tc eq => absurd eq (notTool tc)
  have slots : r'.slots = r.slots := by rw [Renderer.slots, tools]; rfl
  refine ⟨shape, started.trans sim.started, usage.trans sim.unreported, ?_, said, ?_, ?_, settled,
    fun none => tracks (sim.tracks (late.mp none)),
    fun some => sim.stays_lost (fun none => some (late.mpr none)) es⟩
  · rw [lastFinish_concat, finish, finish', sim.finish]
    rfl
  · rw [slots]
    exact sim.carries.other call same
  · intro e mem
    rw [tools] at mem
    rw [sealed_concat, sim.ceased e mem]
    simp [notFinish]

theorem words (sim : Sim items r out) {item : Item} {kind : TextKind} {s : String}
    {d : BlockDelta} (call : item.callOf = none) (finish : item.finishOf = none)
    (begins : item.Begins items ↔ s ≠ "") (fits : d.kind = kind.block)
    (wordless : s = "" → item.Wordless)
    (text : ∀ i, (Event.contentBlockDelta i d).text.getD "" = item.textOf.getD "")
    (thinking : ∀ i, (Event.contentBlockDelta i d).thinking.getD "" = item.thinkingOf.getD "")
    (step : renderItem item = if s ≠ "" then seq (openTextualBlock kind) (emitTextual d) else skip) :
    Sim (items ++ [item]) (renderItem item r).1 (out ++ (renderItem item r).2) := by
  have notFinish : ¬ ∃ reason, item = .finish reason := by
    rintro ⟨reason, rfl⟩
    cases finish
  rw [step]
  split
  · rename_i nonempty
    obtain ⟨r', i, es, eq, opening, shape, tools, finish', started, usage, text', opened, tracks⟩ :=
      textual_spec sim.shape fits
    rw [eq]
    have bare : ∀ e ∈ es, e.Wordless ∧ ∀ table, addEvent table e = table := by
      rcases opening with rfl | rfl
      · simp
      · refine Table.forall_mem_concat (fun e stop => ?_) ?_
        · obtain ⟨j, _, rfl⟩ := List.mem_map.mp stop
          exact ⟨⟨rfl, rfl, rfl⟩, fun _ => rfl⟩
        · exact ⟨⟨rfl, rfl, rfl⟩, fun _ => rfl⟩
    refine sim.textual call finish shape tools finish' started usage ?_ ?_ ?_ (tracks out)
    · rw [← List.append_assoc]
      exact (sim.said.events fun e mem => (bare e mem).1).both (text i) (thinking i) rfl
    · intro e mem table
      rcases List.mem_append.mp mem with mem | mem
      · exact (bare e mem).2 table
      · rw [List.mem_singleton.mp mem]
        cases d <;> first | rfl | (cases kind <;> cases fits)
    · rw [settled_concat]
      refine iff_of_false ?_ fun closed => closed i _ opened
      rintro (reason | ⟨_, silent⟩)
      · exact notFinish reason
      · exact silent (begins.mpr nonempty)
  · rename_i empty
    refine sim.textual call finish sim.shape rfl rfl rfl rfl ?_ (by simp [skip]) ?_
      (by simp [skip])
    · simpa [skip] using sim.said.item (wordless (not_not.mp empty))
    · rw [settled_concat, sim.settled]
      simp [notFinish, begins, not_not.mp empty, skip]

theorem fragment (sim : Sim items r out) {tc : ToolCallDelta} {tb : AnthropicToolBlock}
    (found : toolBlock r tc.index = some tb) :
    Sim (items ++ [.tool tc]) r (out ++ argumentDelta tb.index tc) := by
  have mem := mem_of_toolBlock found
  have slot : (tc.index, tb.index) ∈ r.slots := List.mem_map.mpr ⟨_, mem, rfl⟩
  have inCalls : tc.index ∈ calls items := sim.known.mpr (List.mem_map.mpr ⟨_, slot, rfl⟩)
  have opened : tb.isOpen = true ↔ r.Open tb.index .toolUse := by
    constructor
    · intro isOpen
      refine .inr ⟨rfl, tc.index, ?_⟩
      rw [← isOpen]
      exact mem
    · rintro (⟨kind, _, _, tool⟩ | ⟨_, ix, mem'⟩)
      · cases kind <;> cases tool
      · -- blocks have indices of their own
        have slot' : (ix, tb.index) ∈ r.slots := List.mem_map.mpr ⟨_, mem', rfl⟩
        have same := Table.eq_of_key sim.shape.indexes slot slot' rfl
        have key : tc.index = ix := congrArg Prod.fst same
        have keys : (r.toolBlocks.map Prod.fst).Nodup := by
          simpa [Renderer.slots, Function.comp_def] using sim.shape.keys
        have entry := Table.eq_of_key keys mem mem' key
        exact congrArg (fun e => e.2.isOpen) entry
  have late : NoneLate (items ++ [.tool tc]) ↔
      NoneLate items ∧ (tc.arguments ≠ "" → r.Open tb.index .toolUse) := by
    rw [noneLate_concat]
    refine and_congr_right fun _ => ?_
    have iff := sim.ceased _ mem
    simp [← iff, ← opened]
  have iff_settled : Settled (items ++ [.tool tc]) ↔ Settled items := by
    rw [settled_concat]
    simp [Item.Begins, inCalls]
  refine ⟨sim.shape, sim.started, sim.unreported, ?_, ?_, ?_, ?_, ?_, fun none => ?_, fun some => ?_⟩
  · rw [lastFinish_concat, sim.finish]
    rfl
  · exact (sim.said.events (wordless_argumentDelta _ _)).item ⟨rfl, rfl⟩
  · exact sim.carries.known sim.shape.keys sim.shape.indexes slot
  · intro e mem
    rw [sealed_concat, sim.ceased e mem]
    simp
  · rw [iff_settled, sim.settled]
  · obtain ⟨none, free⟩ := late.mp none
    unfold argumentDelta
    split
    · simpa using sim.tracks none
    · rename_i nonempty
      exact (sim.tracks none).delta (free nonempty)
  · by_cases none : NoneLate items
    · have late' : tc.arguments ≠ "" ∧ ¬ r.Open tb.index .toolUse := by
        rw [late] at some
        simpa [none] using some
      rw [argumentDelta, if_neg late'.1]
      exact (sim.tracks none).lost late'.2
    · exact sim.stays_lost none _

theorem call (sim : Sim items r out) {tc : ToolCallDelta} (fresh : toolBlock r tc.index = none) :
    Sim (items ++ [.tool tc]) (r.startedTool tc.index)
      (out ++ (r.textStop ++ [.contentBlockStart r.nextBlock (.toolUse tc.id tc.name)] ++
        argumentDelta r.nextBlock tc)) := by
  have newCall := toolBlock_eq_none.mp fresh
  have notIn : tc.index ∉ calls items := fun mem => newCall (sim.known.mp mem)
  have notSealed : ¬ Sealed items tc.index := fun ended => notIn (calls_of_sealed ended)
  have opened : (r.startedTool tc.index).Open r.nextBlock .toolUse :=
    .inr ⟨rfl, tc.index, by simp [Renderer.startedTool]⟩
  have late : NoneLate (items ++ [.tool tc]) ↔ NoneLate items := by
    rw [noneLate_concat]
    simp [notSealed]
  refine ⟨sim.shape.startedTool fresh, sim.started, sim.unreported, ?_, ?_, ?_, ?_, ?_,
    fun none => ?_, fun some => sim.stays_lost (fun none => some (late.mpr none)) _⟩
  · rw [lastFinish_concat, ← sim.finish]
    rfl
  · refine (sim.said.events fun e mem => ?_).item ⟨rfl, rfl⟩
    rcases List.mem_append.mp mem with mem | mem
    · rcases List.mem_append.mp mem with mem | mem
      · exact wordless_textStop r e mem
      · rw [List.mem_singleton.mp mem]
        exact ⟨rfl, rfl, rfl⟩
    · exact wordless_argumentDelta _ _ e mem
  · have slots : (r.startedTool tc.index).slots = r.slots ++ [(tc.index, r.nextBlock)] := by
      simp [Renderer.slots, Renderer.startedTool]
    rw [slots]
    refine sim.carries.new newCall (fun mem => Nat.lt_irrefl _ (sim.shape.below _ mem)) ?_ _ _
    intro e mem table
    obtain ⟨i, _, rfl⟩ := List.mem_map.mp mem
    rfl
  · intro e mem
    rw [sealed_concat]
    rcases List.mem_append.mp mem with old | new
    · rw [sim.ceased e old]
      simp
    · rw [List.mem_singleton.mp new]
      simp [notSealed]
  · rw [settled_concat]
    refine iff_of_false ?_ fun closed => closed _ _ opened
    rintro (⟨reason, eq⟩ | ⟨_, silent⟩)
    · cases eq
    · exact silent notIn
  · have started := (sim.tracks (late.mp none)).startedTool sim.shape tc
    unfold argumentDelta
    split
    · simpa using started
    · rw [← List.append_assoc]
      exact started.delta opened

theorem finished (sim : Sim items r out) (reason : String) :
    Sim (items ++ [.finish reason]) (renderFinish reason r).1
      (out ++ (renderFinish reason r).2) := by
  have shape : ({ r with finish := reason } : Renderer).Shape :=
    ⟨sim.shape.kind, sim.shape.text, sim.shape.below, sim.shape.keys, sim.shape.indexes⟩
  obtain ⟨alike, shape', events, closed, tracks⟩ := closeOpenBlock_spec shape
  have effect : renderFinish reason r = closeOpenBlock { r with finish := reason } := rfl
  rw [effect]
  have stops : ∀ e ∈ (closeOpenBlock { r with finish := reason }).2,
      e.Wordless ∧ ∀ table, addEvent table e = table := by
    rw [events]
    intro e mem
    obtain ⟨i, _, rfl⟩ := List.mem_map.mp mem
    exact ⟨⟨rfl, rfl, rfl⟩, fun _ => rfl⟩
  have late : NoneLate (items ++ [.finish reason]) ↔ NoneLate items := by
    rw [noneLate_concat]
    simp
  refine ⟨shape', alike.started.trans sim.started, alike.usageEmitted.trans sim.unreported, ?_, ?_,
    ?_, ?_, ?_, fun none => tracks _ (sim.tracks (late.mp none)),
    fun some => sim.stays_lost (fun none => some (late.mpr none)) _⟩
  · rw [lastFinish_concat, alike.finish]
    rfl
  · exact (sim.said.events fun e mem => (stops e mem).1).item ⟨rfl, rfl⟩
  · rw [alike.slots]
    exact sim.carries.other rfl fun e mem => (stops e mem).2
  · intro e mem
    have inCalls : e.1 ∈ calls items := by
      rw [sim.known]
      have : e.1 ∈ (closeOpenBlock { r with finish := reason }).1.slots.map Prod.fst :=
        List.mem_map.mpr ⟨_, List.mem_map.mpr ⟨e, mem, rfl⟩, rfl⟩
      rwa [alike.slots] at this
    have isClosed : e.2.isOpen = false := by
      by_contra isOpen
      rw [Bool.not_eq_false] at isOpen
      refine closed e.2.index .toolUse (.inr ⟨rfl, e.1, ?_⟩)
      rw [← isOpen]
      exact mem
    refine iff_of_true isClosed (sealed_concat.mpr (.inr ⟨⟨reason, rfl⟩, inCalls⟩))
  · exact iff_of_true (settled_concat.mpr (.inl ⟨reason, rfl⟩)) closed

theorem item (item : Item) : Triple (Sim items) (renderItem item) (Sim (items ++ [item])) := by
  intro r out sim
  cases item with
  | thinking s =>
    exact sim.words rfl rfl Iff.rfl rfl (fun empty => ⟨rfl, empty⟩) (fun _ => rfl) (fun _ => rfl) rfl
  | text s =>
    exact sim.words rfl rfl Iff.rfl rfl (fun empty => ⟨empty, rfl⟩) (fun _ => rfl) (fun _ => rfl) rfl
  | tool tc =>
    change Sim _ (renderToolCallDelta tc r).1 (out ++ (renderToolCallDelta tc r).2)
    cases found : toolBlock r tc.index with
    | none =>
      rw [renderToolCallDelta_new sim.shape found]
      exact sim.call found
    | some tb =>
      rw [renderToolCallDelta_known found]
      exact sim.fragment found
  | finish reason => exact sim.finished reason

end Sim

end YunhouUsers.Inference.Providers
