import YunhouUsers.Inference.Providers.MessagesStream

/-!
What a Messages event stream has to be, and what a chunk stream says.

`Phase` is the grammar of the event stream.  `Item` is one thing a chunk says, in the order in
which the renderer looks at them.
-/

namespace YunhouUsers.Inference.Providers

inductive BlockKind where
  | text
  | thinking
  | toolUse
deriving DecidableEq

def TextKind.block : TextKind → BlockKind
  | .text => .text
  | .thinking => .thinking

def ContentBlock.kind : ContentBlock → BlockKind
  | .textual kind => kind.block
  | .toolUse .. => .toolUse

def BlockDelta.kind : BlockDelta → BlockKind
  | .text _ => .text
  | .thinking _ => .thinking
  | .inputJson _ => .toolUse

/-- How far a reader of the stream is: `body next opened` when blocks below `next` were started
and those in `opened` not stopped yet. -/
inductive Phase where
  | idle
  | body (next : Nat) (opened : List (Nat × BlockKind))
  | ended
  | stopped
deriving DecidableEq

def Phase.step : Phase → Event → Option Phase
  | .idle, .messageStart .. => some (.body 0 [])
  | .body next opened, .contentBlockStart i block =>
    if next ≤ i then some (.body (i + 1) ((i, block.kind) :: opened)) else none
  | .body next opened, .contentBlockDelta i delta =>
    if (i, delta.kind) ∈ opened then some (.body next opened) else none
  | .body next opened, .contentBlockStop i =>
    if i ∈ opened.map Prod.fst then some (.body next (opened.filter (fun e => e.1 ≠ i))) else none
  | .body _ [], .messageDelta .. => some .ended
  | .ended, .messageStop => some .stopped
  | _, _ => none

def scan (phase : Option Phase) (out : List Event) : Option Phase :=
  out.foldl (fun p e => p.bind (fun q => q.step e)) phase

def Event.text : Event → Option String
  | .contentBlockDelta _ (.text s) => some s
  | _ => none

def Event.thinking : Event → Option String
  | .contentBlockDelta _ (.thinking s) => some s
  | _ => none

def Event.stopReason : Event → Option StopReason
  | .messageDelta stop _ => some stop
  | _ => none

def addTo {K : Type} [DecidableEq K] (key : K) (s : String) (table : List (K × String)) :
    List (K × String) :=
  table.map (fun e => if e.1 = key then (e.1, e.2 ++ s) else e)

def addEvent (table : List (Nat × String)) : Event → List (Nat × String)
  | .contentBlockStart i (.toolUse ..) => table ++ [(i, "")]
  | .contentBlockDelta i (.inputJson s) => addTo i s table
  | _ => table

def blockArgs (out : List Event) : List (Nat × String) := out.foldl addEvent []

inductive Item where
  | thinking (s : String)
  | text (s : String)
  | tool (tc : ToolCallDelta)
  | finish (reason : String)
deriving DecidableEq

def Choice.items (c : Choice) : List Item :=
  [.thinking c.reasoningContent, .text c.content] ++ c.toolCalls.map .tool ++
    (c.finishReason.toList.filter (fun reason => reason ≠ "")).map .finish

def OpenAIStreamChunk.items (c : OpenAIStreamChunk) : List Item := c.choices.flatMap Choice.items

section

open Transducer

variable {σ ε : Type}

theorem Choice.each_items (step : Item → Step σ ε) (c : Choice) :
    each step c.items =
      seq (step (.thinking c.reasoningContent)) (seq (step (.text c.content))
        (seq (each (fun tc => step (.tool tc)) c.toolCalls)
          (c.finishReason.elim skip
            (fun reason => if reason ≠ "" then step (.finish reason) else skip)))) := by
  have finish : each step
      ((c.finishReason.toList.filter (fun reason => reason ≠ "")).map .finish) =
      c.finishReason.elim skip
        (fun reason => if reason ≠ "" then step (.finish reason) else skip) := by
    cases c.finishReason with
    | none => rfl
    | some reason =>
      by_cases empty : reason = ""
      · simp [empty, each]
      · simp [empty, each]
  rw [Choice.items, each_append, each_append, finish, each_map]
  simp only [seq_assoc, each, skip_seq]

theorem OpenAIStreamChunk.each_items {step : Item → Step σ ε} {whole : Choice → Step σ ε}
    (agree : ∀ choice, whole choice = each step choice.items) (c : OpenAIStreamChunk) :
    each whole c.choices = each step c.items := by
  rw [OpenAIStreamChunk.items, each_flatMap]
  congr 1
  funext choice
  exact agree choice

end

def itemsOf (chunks : List OpenAIStreamChunk) : List Item :=
  chunks.flatMap OpenAIStreamChunk.items

def Item.textOf : Item → Option String
  | .text s => some s
  | _ => none

def Item.thinkingOf : Item → Option String
  | .thinking s => some s
  | _ => none

def Item.finishOf : Item → Option String
  | .finish reason => some reason
  | _ => none

def Item.callOf : Item → Option Int
  | .tool tc => some tc.index
  | _ => none

def addItem (table : List (Int × String)) : Item → List (Int × String)
  | .tool tc =>
    if tc.index ∈ table.map Prod.fst then addTo tc.index tc.arguments table
    else table ++ [(tc.index, tc.arguments)]
  | _ => table

variable (items : List Item)

def callArgs : List (Int × String) := items.foldl addItem []

def calls : List Int := items.filterMap Item.callOf

/-- The last finish reason received; nothing received reads as the empty one. -/
def lastFinish : String := (items.filterMap Item.finishOf).getLastD ""

structure Faithful (chunks : List OpenAIStreamChunk) (out : List Event) : Prop where
  wellFormed : scan (some .idle) out = some .stopped
  text : String.join (out.filterMap Event.text) = String.join ((itemsOf chunks).filterMap Item.textOf)
  thinking : String.join (out.filterMap Event.thinking) =
    String.join ((itemsOf chunks).filterMap Item.thinkingOf)
  arguments : (blockArgs out).map Prod.snd = (callArgs (itemsOf chunks)).map Prod.snd
  stopReason : out.filterMap Event.stopReason =
    [chatFinishToAnthropicStop (lastFinish (itemsOf chunks))]

/-! When a chunk stream is rendered faithfully. -/

def Item.Begins (before : List Item) : Item → Prop
  | .thinking s | .text s => s ≠ ""
  | .tool tc => tc.index ∉ calls before
  | .finish _ => False

def Item.Argues : Item → Prop
  | .tool tc => tc.arguments ≠ ""
  | _ => False

def Sealed (call : Int) : Prop :=
  ∃ before reason after, items = before ++ .finish reason :: after ∧ call ∈ calls before

def NoneLate : Prop :=
  ∀ before tc after, items = before ++ .tool tc :: after → tc.arguments ≠ "" →
    ¬ Sealed before tc.index

/-- Whatever begins a block is followed by a finish reason. -/
def Settled : Prop :=
  ∀ before item after, items = before ++ item :: after → item.Begins before →
    ∃ reason, .finish reason ∈ after

def Silent (before items : List Item) : Prop :=
  ∀ item ∈ items, ¬ item.Begins before ∧ ¬ item.Argues

/-- Usage comes at most once, after everything else. -/
def Orderly (chunks : List OpenAIStreamChunk) : Prop :=
  (∀ c ∈ chunks, c.usage = none) ∧ NoneLate (itemsOf chunks) ∨
  ∃ before c after, chunks = before ++ c :: after ∧ c.usage ≠ none ∧
    (∀ d ∈ before ++ after, d.usage = none) ∧
    NoneLate (itemsOf before) ∧ Settled (itemsOf before) ∧
    Silent (itemsOf before) (itemsOf (c :: after)) ∧
    chatFinishToAnthropicStop (lastFinish (itemsOf chunks)) =
      chatFinishToAnthropicStop (lastFinish (itemsOf before))

end YunhouUsers.Inference.Providers
