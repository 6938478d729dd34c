import YunhouUsers.Inference.Providers.StreamSpec

/-!
The renderer against the grammar, item by item.
-/

namespace YunhouUsers.Inference.Providers

open Transducer

/-! The conditions on chunk streams, one item at a time. -/

theorem concat_eq_append_cons {α : Type} {items before after : List α} {x y : α}
    (eq : items ++ [y] = before ++ x :: after) :
    (before = items ∧ x = y ∧ after = []) ∨
      ∃ rest, after = rest ++ [y] ∧ items = before ++ x :: rest := by
  rcases List.eq_nil_or_concat after with rfl | ⟨rest, z, rfl⟩
  · obtain ⟨rfl, last⟩ := List.append_inj' eq rfl
    exact .inl ⟨rfl, (List.cons.inj last).1.symm, rfl⟩
  · rw [List.concat_eq_append, ← List.cons_append, ← List.append_assoc] at eq
    obtain ⟨rfl, last⟩ := List.append_inj' eq rfl
    obtain rfl := (List.cons.inj last).1
    exact .inr ⟨rest, List.concat_eq_append, rfl⟩

variable {items : List Item}

theorem sealed_concat {item : Item} {call : Int} :
    Sealed (items ++ [item]) call ↔
      Sealed items call ∨ (∃ reason, item = .finish reason) ∧ call ∈ calls items := by
  constructor
  · rintro ⟨before, reason, after, eq, mem⟩
    rcases concat_eq_append_cons eq with ⟨rfl, rfl, _⟩ | ⟨rest, _, rfl⟩
    · exact .inr ⟨⟨reason, rfl⟩, mem⟩
    · exact .inl ⟨before, reason, rest, rfl, mem⟩
  · rintro (⟨before, reason, after, rfl, mem⟩ | ⟨⟨reason, rfl⟩, mem⟩)
    · exact ⟨before, reason, after ++ [item], by simp, mem⟩
    · exact ⟨items, reason, [], rfl, mem⟩

theorem noneLate_concat {item : Item} :
    NoneLate (items ++ [item]) ↔ NoneLate items ∧
      ∀ tc, item = .tool tc → tc.arguments ≠ "" → ¬ Sealed items tc.index := by
  constructor
  · intro none
    refine ⟨fun before tc after eq => none before tc (after ++ [item]) (by simp [eq]), ?_⟩
    rintro tc rfl
    exact none items tc [] rfl
  · rintro ⟨none, last⟩ before tc after eq
    rcases concat_eq_append_cons eq with ⟨rfl, rfl, _⟩ | ⟨rest, _, rfl⟩
    · exact last tc rfl
    · exact none before tc rest rfl

theorem settled_concat {item : Item} :
    Settled (items ++ [item]) ↔
      (∃ reason, item = .finish reason) ∨ Settled items ∧ ¬ item.Begins items := by
  constructor
  · intro settled
    by_cases finish : ∃ reason, item = .finish reason
    · exact .inl finish
    refine .inr ⟨fun before x after eq begins => ?_, fun begins => ?_⟩
    · obtain ⟨reason, mem⟩ := settled before x (after ++ [item]) (by simp [eq]) begins
      rcases List.mem_append.mp mem with mem | mem
      · exact ⟨reason, mem⟩
      · exact absurd ⟨reason, (List.mem_singleton.mp mem).symm⟩ finish
    · obtain ⟨reason, mem⟩ := settled items item [] rfl begins
      cases mem
  · rintro (⟨reason, rfl⟩ | ⟨settled, quiet⟩) before x after eq begins
    · rcases concat_eq_append_cons eq with ⟨_, rfl, _⟩ | ⟨rest, rfl, _⟩
      · cases begins
      · exact ⟨reason, by simp⟩
    · rcases concat_eq_append_cons eq with ⟨rfl, rfl, _⟩ | ⟨rest, rfl, rfl⟩
      · exact absurd begins quiet
      · obtain ⟨reason, mem⟩ := settled before x rest rfl begins
        exact ⟨reason, List.mem_append_left _ mem⟩

theorem scan_append (phase : Option Phase) (out more : List Event) :
    scan phase (out ++ more) = scan (scan phase out) more :=
  List.foldl_append

theorem scan_none (out : List Event) : scan none out = none := by
  induction out with
  | nil => rfl
  | cons e out ih => exact ih

namespace Renderer

variable (r : Renderer)

def slots : List (Int × Nat) := r.toolBlocks.map (fun e => (e.1, e.2.index))

def Open (i : Nat) (k : BlockKind) : Prop :=
  (∃ kind : TextKind, r.openTextBlock = some i ∧ r.openTextKind = some kind ∧ k = kind.block) ∨
    k = .toolUse ∧ ∃ ix, (ix, ⟨i, true⟩) ∈ r.toolBlocks

structure Shape (r : Renderer) : Prop where
  kind : r.openTextKind.isSome = r.openTextBlock.isSome
  text : ∀ i, r.openTextBlock = some i → i < r.nextBlock ∧ i ∉ r.slots.map Prod.snd
  below : ∀ i ∈ r.slots.map Prod.snd, i < r.nextBlock
  keys : (r.slots.map Prod.fst).Nodup
  indexes : (r.slots.map Prod.snd).Nodup

variable {i : Nat} {d : BlockDelta}

def Tracks (out : List Event) : Prop :=
  ∃ opened, scan (some .idle) out = some (.body r.nextBlock opened) ∧
    ∀ i k, (i, k) ∈ opened ↔ r.Open i k

namespace Tracks

variable {r r' : Renderer} {out : List Event}

theorem stop (tracks : r.Tracks out) {k : BlockKind} (here : r.Open i k)
    (next : r'.nextBlock = r.nextBlock) (closed : ∀ j k, r'.Open j k ↔ r.Open j k ∧ j ≠ i) :
    r'.Tracks (out ++ [.contentBlockStop i]) := by
  obtain ⟨opened, phase, agree⟩ := tracks
  refine ⟨opened.filter (fun e => e.1 ≠ i), ?_, fun j k => ?_⟩
  · have mem : i ∈ opened.map Prod.fst := List.mem_map.mpr ⟨(i, k), (agree i k).mpr here, rfl⟩
    rw [scan_append, phase]
    simp [scan, Phase.step, mem, next]
  · rw [closed, ← agree]
    simp

theorem start (tracks : r.Tracks out) {block : ContentBlock}
    (next : r'.nextBlock = r.nextBlock + 1)
    (added : ∀ j k, r'.Open j k ↔ (j = r.nextBlock ∧ k = block.kind) ∨ r.Open j k) :
    r'.Tracks (out ++ [.contentBlockStart r.nextBlock block]) := by
  obtain ⟨opened, phase, agree⟩ := tracks
  refine ⟨(r.nextBlock, block.kind) :: opened, ?_, fun j k => ?_⟩
  · rw [scan_append, phase]
    simp [scan, Phase.step, next]
  · rw [added, ← agree]
    simp

theorem delta (tracks : r.Tracks out) (here : r.Open i d.kind) :
    r.Tracks (out ++ [.contentBlockDelta i d]) := by
  obtain ⟨opened, phase, agree⟩ := tracks
  refine ⟨opened, ?_, agree⟩
  rw [scan_append, phase]
  simp [scan, Phase.step, (agree i d.kind).mpr here]

theorem lost (tracks : r.Tracks out) (gone : ¬ r.Open i d.kind) :
    scan (some .idle) (out ++ [.contentBlockDelta i d]) = none := by
  obtain ⟨opened, phase, agree⟩ := tracks
  rw [scan_append, phase]
  simp [scan, Phase.step, (agree i d.kind).not.mpr gone]

end Tracks

structure Alike (r r' : Renderer) : Prop where
  nextBlock : r'.nextBlock = r.nextBlock
  slots : r'.slots = r.slots
  finish : r'.finish = r.finish
  started : r'.started = r.started
  usageEmitted : r'.usageEmitted = r.usageEmitted

theorem Alike.trans {r r' r'' : Renderer} (first : r.Alike r') (second : r'.Alike r'') :
    r.Alike r'' :=
  ⟨second.1.trans first.1, second.2.trans first.2, second.3.trans first.3,
    second.4.trans first.4, second.5.trans first.5⟩

theorem alike_closeBlock (i : Nat) : r.Alike (closeBlock i r).1 := by
  refine ⟨rfl, ?_, rfl, rfl, rfl⟩
  simp only [slots, closeBlock, List.map_map]
  refine List.map_congr_left fun e _ => ?_
  dsimp only [Function.comp]
  split <;> rfl

variable {ix : Int}

theorem mem_closed_tools {tools : List (Int × AnthropicToolBlock)} {j : Nat} :
    (ix, (⟨j, true⟩ : AnthropicToolBlock)) ∈ tools.map (fun e =>
        if e.2.index = i then (e.1, { e.2 with isOpen := false }) else e) ↔
      (ix, ⟨j, true⟩) ∈ tools ∧ j ≠ i := by
  rw [List.mem_map]
  constructor
  · rintro ⟨e, mem, eq⟩
    split at eq
    · simp at eq
    · rename_i other
      subst eq
      exact ⟨mem, other⟩
  · rintro ⟨mem, other⟩
    exact ⟨_, mem, if_neg other⟩

theorem open_closeBlock (i j : Nat) (k : BlockKind) :
    (closeBlock i r).1.Open j k ↔ r.Open j k ∧ j ≠ i := by
  simp only [Open, closeBlock, mem_closed_tools, exists_and_right]
  by_cases here : r.openTextBlock = some i
  · simp only [here, if_true]
    constructor
    · rintro (⟨_, impossible, _⟩ | ⟨tool, mem, other⟩)
      · cases impossible
      · exact ⟨.inr ⟨tool, mem⟩, other⟩
    · rintro ⟨⟨_, same, _⟩ | ⟨tool, mem⟩, other⟩
      · exact absurd (Option.some.inj same).symm other
      · exact .inr ⟨tool, mem, other⟩
  · simp only [if_neg here]
    constructor
    · rintro (⟨kind, same, rest⟩ | ⟨tool, mem, other⟩)
      · exact ⟨.inl ⟨kind, same, rest⟩, fun eq => here (eq ▸ same)⟩
      · exact ⟨.inr ⟨tool, mem⟩, other⟩
    · rintro ⟨text | ⟨tool, mem⟩, other⟩
      · exact .inl text
      · exact .inr ⟨tool, mem, other⟩

theorem Shape.closeBlock {r : Renderer} (shape : r.Shape) (i : Nat) :
    (closeBlock i r).1.Shape := by
  obtain ⟨next, slots, _⟩ := r.alike_closeBlock i
  constructor
  · simp only [Providers.closeBlock]
    split
    · rfl
    · exact shape.kind
  · intro j open_j
    rw [slots, next]
    refine shape.text j ?_
    simp only [Providers.closeBlock] at open_j
    split at open_j
    · cases open_j
    · exact open_j
  · rw [slots, next]
    exact shape.below
  · rw [slots]
    exact shape.keys
  · rw [slots]
    exact shape.indexes

theorem closes (ixs : List Nat) (r : Renderer) (shape : r.Shape) (distinct : ixs.Nodup)
    (opened : ∀ i ∈ ixs, ∃ k, r.Open i k) :
    r.Alike (each closeBlock ixs r).1 ∧ (each closeBlock ixs r).1.Shape ∧
      (each closeBlock ixs r).2 = ixs.map .contentBlockStop ∧
      (∀ j k, (each closeBlock ixs r).1.Open j k ↔ r.Open j k ∧ j ∉ ixs) ∧
      ∀ out, r.Tracks out → (each closeBlock ixs r).1.Tracks (out ++ (each closeBlock ixs r).2) := by
  induction ixs generalizing r with
  | nil => exact ⟨⟨rfl, rfl, rfl, rfl, rfl⟩, shape, rfl, by simp [each, skip], by simp [each, skip]⟩
  | cons i ixs ih =>
    obtain ⟨fresh, distinct⟩ := List.nodup_cons.mp distinct
    obtain ⟨k, here⟩ := opened i List.mem_cons_self
    have still : ∀ j ∈ ixs, ∃ k, (closeBlock i r).1.Open j k := by
      intro j mem
      obtain ⟨k, open_j⟩ := opened j (List.mem_cons_of_mem _ mem)
      exact ⟨k, (r.open_closeBlock i j k).mpr ⟨open_j, fun eq => fresh (eq ▸ mem)⟩⟩
    obtain ⟨alike, shape', events, open_iff, tracks⟩ :=
      ih (closeBlock i r).1 (shape.closeBlock i) distinct still
    refine ⟨(r.alike_closeBlock i).trans alike, shape', ?_, fun j k => ?_, fun out tracked => ?_⟩
    · simp only [each_cons, seq, events]
      rfl
    · simp only [each_cons, seq, open_iff, r.open_closeBlock i]
      simp [and_assoc]
    · have step : (closeBlock i r).1.Tracks (out ++ [.contentBlockStop i]) :=
        tracked.stop here rfl (r.open_closeBlock i)
      simpa [each_cons, seq, closeBlock] using tracks _ step

variable {r : Renderer}

theorem mem_openIndexes (shape : r.Shape) : i ∈ openIndexes r ↔ ∃ k, r.Open i k := by
  simp only [openIndexes, (List.perm_insertionSort _ _).mem_iff, List.mem_append,
    Option.mem_toList, List.mem_map, List.mem_filter]
  constructor
  · rintro (text | ⟨⟨ix, index, isOpen⟩, ⟨mem, opened⟩, rfl⟩)
    · have some : r.openTextKind.isSome := by rw [shape.kind, text]; rfl
      obtain ⟨kind, eq⟩ := Option.isSome_iff_exists.mp some
      exact ⟨_, .inl ⟨kind, text, eq, rfl⟩⟩
    · cases opened
      exact ⟨_, .inr ⟨rfl, ix, mem⟩⟩
  · rintro ⟨k, ⟨_, text, _⟩ | ⟨_, ix, mem⟩⟩
    · exact .inl text
    · exact .inr ⟨_, ⟨mem, rfl⟩, rfl⟩

theorem nodup_openIndexes (shape : r.Shape) : (openIndexes r).Nodup := by
  have tools : ((r.toolBlocks.filter (fun e => e.2.isOpen)).map (fun e => e.2.index)).Sublist
      (r.slots.map Prod.snd) := by
    simpa [slots, Function.comp_def] using
      (List.filter_sublist).map (fun e : Int × AnthropicToolBlock => e.2.index)
  refine ((List.perm_insertionSort _ _).nodup_iff).mpr (List.Nodup.append ?_ ?_ ?_)
  · cases r.openTextBlock <;> simp
  · exact tools.nodup shape.indexes
  · intro i text tool
    exact (shape.text i (Option.mem_toList.mp text)).2 (tools.subset tool)

theorem closeOpenBlock_spec (shape : r.Shape) :
    r.Alike (closeOpenBlock r).1 ∧ (closeOpenBlock r).1.Shape ∧
      (closeOpenBlock r).2 = (openIndexes r).map .contentBlockStop ∧
      (∀ j k, ¬ (closeOpenBlock r).1.Open j k) ∧
      ∀ out, r.Tracks out → (closeOpenBlock r).1.Tracks (out ++ (closeOpenBlock r).2) := by
  obtain ⟨alike, shape', events, open_iff, tracks⟩ := closes (openIndexes r) r shape
    (nodup_openIndexes shape) fun i mem => (mem_openIndexes shape).mp mem
  refine ⟨alike, shape', events, fun j k opened => ?_, tracks⟩
  obtain ⟨before, other⟩ := (open_iff j k).mp opened
  exact other ((mem_openIndexes shape).mpr ⟨k, before⟩)

def closedText : Renderer := { r with openTextBlock := none, openTextKind := none }

def textStop : List Event := r.openTextBlock.toList.map .contentBlockStop

theorem closeTextBlock_eq (shape : r.Shape) : closeTextBlock r = (r.closedText, r.textStop) := by
  unfold closeTextBlock
  cases text : r.openTextBlock with
  | none =>
    have kind : r.openTextKind = none := by
      have := shape.kind
      simpa [text] using this
    simp only [skip, closedText, textStop, text, Option.toList_none, List.map_nil, Prod.mk.injEq,
      and_true]
    cases r
    simp_all
  | some i =>
    have apart := (shape.text i text).2
    have tools : r.toolBlocks.map (fun e =>
        if e.2.index = i then (e.1, { e.2 with isOpen := false }) else e) = r.toolBlocks := by
      refine (List.map_congr_left fun e mem => if_neg fun eq => apart ?_).trans (List.map_id' _)
      exact List.mem_map.mpr ⟨(e.1, e.2.index), List.mem_map.mpr ⟨e, mem, rfl⟩, eq⟩
    simp [closeBlock, closedText, textStop, text, tools]

theorem open_closedText {j : Nat} {k : BlockKind} :
    r.closedText.Open j k ↔ k = .toolUse ∧ ∃ ix, (ix, ⟨j, true⟩) ∈ r.toolBlocks := by
  simp [Open, closedText]

variable {out : List Event}

theorem Tracks.closedText (shape : r.Shape) (tracks : r.Tracks out) :
    r.closedText.Tracks (out ++ r.textStop) := by
  have kind := shape.kind
  unfold textStop
  cases text : r.openTextBlock with
  | none =>
    obtain ⟨opened, phase, agree⟩ := tracks
    refine ⟨opened, ?_, fun j k => ?_⟩
    · rw [Option.toList_none, List.map_nil, List.append_nil]
      exact phase
    · rw [agree, open_closedText]
      simp [Open, text]
  | some i =>
    rw [text, Option.isSome_some] at kind
    obtain ⟨kind, eq⟩ := Option.isSome_iff_exists.mp kind
    refine tracks.stop (.inl ⟨kind, text, eq, rfl⟩) rfl fun j k => ?_
    rw [open_closedText]
    constructor
    · rintro ⟨tool, ix, mem⟩
      refine ⟨.inr ⟨tool, ix, mem⟩, fun same => (shape.text i text).2 ?_⟩
      exact List.mem_map.mpr ⟨(ix, j), List.mem_map.mpr ⟨_, mem, rfl⟩, same⟩
    · rintro ⟨⟨_, same, _⟩ | tool, other⟩
      · rw [text] at same
        exact absurd (Option.some.inj same).symm other
      · exact tool

def startedText (kind : TextKind) : Renderer :=
  { r.closedText with
    openTextBlock := some r.nextBlock
    nextBlock := r.nextBlock + 1
    openTextKind := some kind }

theorem openTextualBlock_eq (shape : r.Shape) (kind : TextKind) :
    openTextualBlock kind r =
      if r.openTextKind = some kind ∧ r.openTextBlock.isSome then (r, [])
      else (r.startedText kind,
        r.textStop ++ [.contentBlockStart r.nextBlock (.textual kind)]) := by
  unfold openTextualBlock
  split
  · rfl
  · rw [seq, closeTextBlock_eq shape]
    rfl

theorem Shape.startedText (shape : r.Shape) (kind : TextKind) : (r.startedText kind).Shape := by
  refine ⟨rfl, fun i eq => ?_, fun i mem => Nat.lt_succ_of_lt (shape.below i mem), shape.keys,
    shape.indexes⟩
  obtain rfl := Option.some.inj eq
  exact ⟨Nat.lt_succ_self _, fun mem => Nat.lt_irrefl _ (shape.below _ mem)⟩

theorem Tracks.startedText (shape : r.Shape) (tracks : r.Tracks out)
    (kind : TextKind) : (r.startedText kind).Tracks
      (out ++ (r.textStop ++ [.contentBlockStart r.nextBlock (.textual kind)])) := by
  rw [← List.append_assoc]
  refine Tracks.start (tracks.closedText shape) rfl fun j k => ?_
  rw [open_closedText]
  simp [Open, Renderer.startedText, Renderer.closedText, ContentBlock.kind, eq_comm]

theorem textual_spec (shape : r.Shape) {kind : TextKind} (fits : d.kind = kind.block) :
    ∃ r' i es, seq (openTextualBlock kind) (emitTextual d) r = (r', es ++ [.contentBlockDelta i d]) ∧
      (es = [] ∨ es = r.textStop ++ [.contentBlockStart r.nextBlock (.textual kind)]) ∧
      r'.Shape ∧ r'.toolBlocks = r.toolBlocks ∧ r'.finish = r.finish ∧ r'.started = r.started ∧
      r'.usageEmitted = r.usageEmitted ∧ r'.openTextBlock = some i ∧ r'.Open i kind.block ∧
      ∀ out, r.Tracks out → r'.Tracks (out ++ (es ++ [.contentBlockDelta i d])) := by
  rw [seq, openTextualBlock_eq shape]
  split
  · rename_i same
    obtain ⟨i, text⟩ := Option.isSome_iff_exists.mp same.2
    have opened : r.Open i kind.block := .inl ⟨kind, text, same.1, rfl⟩
    refine ⟨r, i, [], by simp [emitTextual, text], .inl rfl, shape, rfl, rfl, rfl, rfl, text, opened,
      fun out tracks => tracks.delta (fits ▸ opened)⟩
  · have opened : (r.startedText kind).Open r.nextBlock kind.block := .inl ⟨kind, rfl, rfl, rfl⟩
    refine ⟨r.startedText kind, r.nextBlock, _, rfl, .inr rfl, shape.startedText kind, rfl, rfl, rfl,
      rfl, rfl, opened, fun out tracks => ?_⟩
    rw [← List.append_assoc]
    exact (tracks.startedText shape kind).delta (fits ▸ opened)

def startedTool (ix : Int) : Renderer :=
  { r.closedText with
    nextBlock := r.nextBlock + 1
    toolBlocks := r.toolBlocks ++ [(ix, ⟨r.nextBlock, true⟩)] }

theorem toolBlock_eq_none : toolBlock r ix = none ↔ ix ∉ r.slots.map Prod.fst := by
  simp only [toolBlock, Option.map_eq_none_iff, List.find?_eq_none, decide_eq_true_eq, slots,
    List.map_map, List.mem_map, Function.comp, not_exists, not_and]

theorem mem_of_toolBlock {tb : AnthropicToolBlock} (found : toolBlock r ix = some tb) :
    (ix, tb) ∈ r.toolBlocks := by
  obtain ⟨e, eq, rfl⟩ := Option.map_eq_some_iff.mp found
  have key : e.1 = ix := by simpa using List.find?_some eq
  rw [← key]
  exact List.mem_of_find?_eq_some eq

theorem toolBlock_startedTool (fresh : toolBlock r ix = none) :
    toolBlock (r.startedTool ix) ix = some ⟨r.nextBlock, true⟩ := by
  have none_found : r.toolBlocks.find? (fun e => e.1 = ix) = none := by
    simpa [toolBlock] using fresh
  simp [toolBlock, startedTool, List.find?_append, none_found]

theorem Shape.startedTool (shape : r.Shape) (fresh : toolBlock r ix = none) :
    (r.startedTool ix).Shape := by
  have slots : (r.startedTool ix).slots = r.slots ++ [(ix, r.nextBlock)] := by
    simp [Renderer.slots, Renderer.startedTool]
  refine ⟨rfl, fun i impossible => (by cases impossible), ?_, ?_, ?_⟩
  · rw [slots, List.map_append]
    intro i mem
    rcases List.mem_append.mp mem with mem | mem
    · exact Nat.lt_succ_of_lt (shape.below i mem)
    · rw [List.mem_singleton.mp mem]
      exact Nat.lt_succ_self _
  · rw [slots, List.map_append]
    exact List.concat_eq_append ▸ shape.keys.concat (toolBlock_eq_none.mp fresh)
  · rw [slots, List.map_append]
    exact List.concat_eq_append ▸
      shape.indexes.concat fun mem => Nat.lt_irrefl _ (shape.below _ mem)

theorem Tracks.startedTool (shape : r.Shape) (tracks : r.Tracks out)
    (tc : ToolCallDelta) : (r.startedTool tc.index).Tracks
      (out ++ (r.textStop ++ [.contentBlockStart r.nextBlock (.toolUse tc.id tc.name)])) := by
  rw [← List.append_assoc]
  refine Tracks.start (tracks.closedText shape) rfl fun j k => ?_
  rw [open_closedText]
  simp only [Open, Renderer.startedTool, Renderer.closedText, ContentBlock.kind, List.mem_append,
    List.mem_singleton, Prod.mk.injEq, AnthropicToolBlock.mk.injEq, and_true]
  constructor
  · rintro (⟨_, impossible, _⟩ | ⟨tool, ix, mem | ⟨_, here⟩⟩)
    · cases impossible
    · exact .inr ⟨tool, ix, mem⟩
    · exact .inl ⟨here, tool⟩
  · rintro (⟨here, tool⟩ | ⟨tool, ix, mem⟩)
    · exact .inr ⟨tool, tc.index, .inr ⟨rfl, here⟩⟩
    · exact .inr ⟨tool, ix, .inl mem⟩

def argumentDelta (i : Nat) (tc : ToolCallDelta) : List Event :=
  if tc.arguments = "" then [] else [.contentBlockDelta i (.inputJson tc.arguments)]

theorem renderToolCallDelta_known {tc : ToolCallDelta} {tb : AnthropicToolBlock}
    (known : toolBlock r tc.index = some tb) :
    renderToolCallDelta tc r = (r, argumentDelta tb.index tc) := by
  simp only [renderToolCallDelta, emitArguments, argumentDelta, known]
  split <;> rfl

theorem renderToolCallDelta_new (shape : r.Shape) {tc : ToolCallDelta}
    (fresh : toolBlock r tc.index = none) :
    renderToolCallDelta tc r = (r.startedTool tc.index,
      r.textStop ++ [.contentBlockStart r.nextBlock (.toolUse tc.id tc.name)] ++
        argumentDelta r.nextBlock tc) := by
  simp only [renderToolCallDelta, fresh, seq, closeTextBlock_eq shape]
  have opened : openToolBlock tc r.closedText = (r.startedTool tc.index,
      [.contentBlockStart r.nextBlock (.toolUse tc.id tc.name)]) := rfl
  simp only [opened, emitArguments, argumentDelta, toolBlock_startedTool fresh]
  split <;> simp [skip]

end Renderer

end YunhouUsers.Inference.Providers
