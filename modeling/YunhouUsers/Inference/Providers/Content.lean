import YunhouUsers.Inference.Providers.Rendering
import YunhouUsers.Table

/-!
What the events of a stream carry, and how it grows with the items of the chunks.
-/

namespace YunhouUsers.Inference.Providers

open Renderer

/-! Text, thinking and the stop reason. -/

structure Says (items : List Item) (out : List Event) : Prop where
  text : String.join (out.filterMap Event.text) = String.join (items.filterMap Item.textOf)
  thinking : String.join (out.filterMap Event.thinking) =
    String.join (items.filterMap Item.thinkingOf)
  noStop : out.filterMap Event.stopReason = []

def Event.Wordless (e : Event) : Prop := e.text = none ∧ e.thinking = none ∧ e.stopReason = none

def Item.Wordless (item : Item) : Prop :=
  item.textOf.getD "" = "" ∧ item.thinkingOf.getD "" = ""

theorem join_filterMap_concat {α : Type} (f : α → Option String) (xs : List α) (x : α) :
    String.join ((xs ++ [x]).filterMap f) = String.join (xs.filterMap f) ++ (f x).getD "" := by
  rw [List.filterMap_append, String.join_append]
  cases eq : f x <;> simp [eq]

variable {items : List Item} {out es : List Event}

theorem Says.events (said : Says items out)
    (wordless : ∀ e ∈ es, e.Wordless) : Says items (out ++ es) := by
  have text : es.filterMap Event.text = [] :=
    List.filterMap_eq_nil_iff.mpr fun e mem => (wordless e mem).1
  have thinking : es.filterMap Event.thinking = [] :=
    List.filterMap_eq_nil_iff.mpr fun e mem => (wordless e mem).2.1
  have stop : es.filterMap Event.stopReason = [] :=
    List.filterMap_eq_nil_iff.mpr fun e mem => (wordless e mem).2.2
  refine ⟨?_, ?_, ?_⟩
  · rw [List.filterMap_append, text, List.append_nil, said.text]
  · rw [List.filterMap_append, thinking, List.append_nil, said.thinking]
  · rw [List.filterMap_append, stop, List.append_nil, said.noStop]

theorem Says.item (said : Says items out) {item : Item}
    (wordless : item.Wordless) : Says (items ++ [item]) out := by
  refine ⟨?_, ?_, said.noStop⟩
  · rw [join_filterMap_concat, wordless.1, said.text, String.append_empty]
  · rw [join_filterMap_concat, wordless.2, said.thinking, String.append_empty]

theorem Says.both (said : Says items out) {item : Item}
    {e : Event} (text : e.text.getD "" = item.textOf.getD "")
    (thinking : e.thinking.getD "" = item.thinkingOf.getD "") (stop : e.stopReason = none) :
    Says (items ++ [item]) (out ++ [e]) := by
  refine ⟨?_, ?_, ?_⟩
  · rw [join_filterMap_concat, join_filterMap_concat, said.text, text]
  · rw [join_filterMap_concat, join_filterMap_concat, said.thinking, thinking]
  · simp [said.noStop, stop]

theorem wordless_textStop (r : Renderer) : ∀ e ∈ r.textStop, e.Wordless := by
  intro e mem
  obtain ⟨i, _, rfl⟩ := List.mem_map.mp mem
  exact ⟨rfl, rfl, rfl⟩

theorem wordless_argumentDelta (i : Nat) (tc : ToolCallDelta) :
    ∀ e ∈ argumentDelta i tc, e.Wordless := by
  intro e mem
  unfold argumentDelta at mem
  split at mem
  · cases mem
  · rw [List.mem_singleton.mp mem]
    exact ⟨rfl, rfl, rfl⟩

def Carries (items : List Item) (slots : List (Int × Nat)) (out : List Event) : Prop :=
  ∃ rows : List (Int × Nat × String), slots = rows.map (fun e => (e.1, e.2.1)) ∧
    callArgs items = rows.map (fun e => (e.1, e.2.2)) ∧
    blockArgs out = rows.map (fun e => (e.2.1, e.2.2))

theorem callArgs_concat (items : List Item) (item : Item) :
    callArgs (items ++ [item]) = addItem (callArgs items) item := by
  simp [callArgs]

theorem blockArgs_append (out es : List Event) :
    blockArgs (out ++ es) = es.foldl addEvent (blockArgs out) :=
  List.foldl_append

theorem blockArgs_same (same : ∀ e ∈ es, ∀ table, addEvent table e = table) :
    blockArgs (out ++ es) = blockArgs out := by
  rw [blockArgs_append]
  induction es with
  | nil => rfl
  | cons e es ih =>
    rw [List.foldl_cons, same e List.mem_cons_self]
    exact ih fun e mem => same e (List.mem_cons_of_mem _ mem)

theorem addTo_empty {K : Type} [DecidableEq K] (key : K) (table : List (K × String)) :
    addTo key "" table = table := by
  unfold addTo
  refine (List.map_congr_left fun e _ => ?_).trans (List.map_id' _)
  split <;> simp

theorem addTo_of_absent {K : Type} [DecidableEq K] {key : K} {table : List (K × String)}
    (absent : key ∉ table.map Prod.fst) (s : String) : addTo key s table = table := by
  unfold addTo
  refine (List.map_congr_left fun e mem => if_neg fun eq => absent ?_).trans (List.map_id' _)
  exact List.mem_map.mpr ⟨e, mem, eq⟩

theorem blockArgs_argumentDelta (out : List Event) (i : Nat) (tc : ToolCallDelta) :
    blockArgs (out ++ argumentDelta i tc) = addTo i tc.arguments (blockArgs out) := by
  rw [blockArgs_append, argumentDelta]
  split
  · rename_i empty
    rw [empty, addTo_empty]
    rfl
  · rfl

namespace Carries

variable {items : List Item} {slots : List (Int × Nat)} {out : List Event}

theorem calls (carries : Carries items slots out) :
    (callArgs items).map Prod.fst = slots.map Prod.fst := by
  obtain ⟨rows, slots, calls, _⟩ := carries
  simp [slots, calls]

theorem arguments (carries : Carries items slots out) :
    (blockArgs out).map Prod.snd = (callArgs items).map Prod.snd := by
  obtain ⟨rows, _, calls, blocks⟩ := carries
  simp [blocks, calls]

theorem other (carries : Carries items slots out) {item : Item}
    (call : item.callOf = none) (same : ∀ e ∈ es, ∀ table, addEvent table e = table) :
    Carries (items ++ [item]) slots (out ++ es) := by
  obtain ⟨rows, slots, calls, blocks⟩ := carries
  refine ⟨rows, slots, ?_, ?_⟩
  · rw [callArgs_concat, ← calls]
    cases item <;> first | rfl | cases call
  · rw [blockArgs_same same, blocks]

theorem known (carries : Carries items slots out) (keys : (slots.map Prod.fst).Nodup)
    (indexes : (slots.map Prod.snd).Nodup) {tc : ToolCallDelta} {i : Nat}
    (slot : (tc.index, i) ∈ slots) :
    Carries (items ++ [.tool tc]) slots (out ++ argumentDelta i tc) := by
  have known : tc.index ∈ (callArgs items).map Prod.fst := by
    rw [carries.calls]
    exact List.mem_map.mpr ⟨_, slot, rfl⟩
  obtain ⟨rows, slots_eq, calls, blocks⟩ := carries
  -- the row of the call is the row of the block
  have same : ∀ e ∈ rows, e.2.1 = i ↔ e.1 = tc.index := by
    intro e mem
    have inSlots : (e.1, e.2.1) ∈ slots := slots_eq ▸ List.mem_map.mpr ⟨e, mem, rfl⟩
    constructor
    · intro eq
      exact congrArg Prod.fst (Table.eq_of_key indexes inSlots slot eq)
    · intro eq
      exact congrArg Prod.snd (Table.eq_of_key keys inSlots slot eq)
  refine ⟨rows.map (fun e =>
    if e.1 = tc.index then (e.1, e.2.1, e.2.2 ++ tc.arguments) else e), ?_, ?_, ?_⟩
  · rw [slots_eq, List.map_map]
    refine List.map_congr_left fun e _ => ?_
    dsimp only [Function.comp]
    split <;> rfl
  · rw [callArgs_concat, addItem, if_pos known, calls]
    simp only [addTo, List.map_map]
    refine List.map_congr_left fun e _ => ?_
    dsimp only [Function.comp]
    split <;> rfl
  · rw [blockArgs_argumentDelta, blocks]
    simp only [addTo, List.map_map]
    refine List.map_congr_left fun e mem => ?_
    dsimp only [Function.comp]
    by_cases eq : e.1 = tc.index
    · rw [if_pos ((same e mem).mpr eq), if_pos eq]
    · rw [if_neg fun other => eq ((same e mem).mp other), if_neg eq]

theorem new (carries : Carries items slots out) {tc : ToolCallDelta} {i : Nat}
    (newCall : tc.index ∉ slots.map Prod.fst) (newBlock : i ∉ slots.map Prod.snd)
    {stops : List Event} (same : ∀ e ∈ stops, ∀ table, addEvent table e = table) (id name : String) :
    Carries (items ++ [.tool tc]) (slots ++ [(tc.index, i)])
      (out ++ (stops ++ [.contentBlockStart i (.toolUse id name)] ++ argumentDelta i tc)) := by
  have fresh : tc.index ∉ (callArgs items).map Prod.fst := by
    rw [carries.calls]
    exact newCall
  obtain ⟨rows, rfl, calls, blocks⟩ := carries
  refine ⟨rows ++ [(tc.index, i, tc.arguments)], by simp, ?_, ?_⟩
  · rw [callArgs_concat, addItem, if_neg fresh, calls, List.map_append]
    rfl
  · rw [← List.append_assoc, ← List.append_assoc, blockArgs_argumentDelta, blockArgs_append,
      blockArgs_same same]
    have absent : i ∉ (blockArgs out).map Prod.fst := by
      rw [blocks]
      simpa using newBlock
    have started : [Event.contentBlockStart i (.toolUse id name)].foldl addEvent (blockArgs out) =
        blockArgs out ++ [(i, "")] := rfl
    rw [started, addTo, List.map_append]
    change addTo i tc.arguments (blockArgs out) ++ _ = _
    rw [addTo_of_absent absent, blocks]
    simp

end Carries

end YunhouUsers.Inference.Providers
