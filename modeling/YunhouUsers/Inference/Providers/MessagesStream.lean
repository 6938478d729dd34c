import Mathlib.Data.List.Sort
import YunhouUsers.Transducer
import YunhouUsers.Trim

/-!
The Messages client surface (providers/client_surface.go and messages_client.go): the internal
chunk stream is cut into lines, decoded and rendered as Anthropic events.

Decoding of JSON payloads is a parameter, and an event stands for the frame `writeSSE` makes of it.
-/

namespace YunhouUsers.Inference.Providers

open Transducer

structure OpenAIUsage where
  promptTokens : Option Int := none
  completionTokens : Option Int := none
  cachedTokens : Option Int := none
  cacheCreationTokens : Option Int := none
  reasoningTokens : Option Int := none
deriving DecidableEq

structure ToolCallDelta where
  index : Int
  id : String := ""
  name : String := ""
  arguments : String := ""
deriving DecidableEq

structure Choice where
  content : String := ""
  reasoningContent : String := ""
  toolCalls : List ToolCallDelta := []
  finishReason : Option String := none
deriving DecidableEq

structure OpenAIStreamChunk where
  choices : List Choice := []
  usage : Option OpenAIUsage := none
  /-- the message of an injected error -/
  error : Option String := none
  errorCode : String := ""
deriving DecidableEq

inductive PumpEvent where
  | chunk (c : OpenAIStreamChunk)
  | done
deriving DecidableEq

abbrev Bytes := List UInt8

def trackLineCap : Nat := 65536

def newline : UInt8 := 10

def ascii (text : String) : Bytes := text.toList.map (fun c => UInt8.ofNat c.toNat)

def trimSpace : Bytes → Bytes := Trim.trimSpace String.utf8EncodeChar

section Pump

variable (unmarshal : Bytes → Option OpenAIStreamChunk)

def scanLine (line : Bytes) : Option PumpEvent :=
  if (ascii "data:").isPrefixOf line then
    let payload := trimSpace (line.drop 5)
    if payload = ascii "[DONE]" then some .done
    else if payload.head? = some 123 then (unmarshal payload).map .chunk
    else none
  else none

/-- `Feed`: `segment` is what was read since the last newline. -/
def feedFrom (pending segment : Bytes) : Bytes → List PumpEvent × Bytes
  | [] => ([], if trackLineCap < pending.length + segment.length then [] else pending ++ segment)
  | b :: rest =>
    if b = newline then
      let (out, pending') := feedFrom [] [] rest
      if trackLineCap < pending.length + segment.length then (out, pending')
      else ((scanLine unmarshal (pending ++ segment)).toList ++ out, pending')
    else feedFrom pending (segment ++ [b]) rest

def feed (pending read : Bytes) : List PumpEvent × Bytes := feedFrom unmarshal pending [] read

def pump : Bytes → List Bytes → List PumpEvent
  | _, [] => []
  | pending, read :: reads =>
    let (out, pending') := feed unmarshal pending read
    out ++ pump pending' reads

end Pump

inductive TextKind where
  | text
  | thinking
deriving DecidableEq

inductive ContentBlock where
  | textual (kind : TextKind)
  | toolUse (id name : String)
deriving DecidableEq

inductive BlockDelta where
  | text (text : String)
  | thinking (thinking : String)
  | inputJson (partialJson : String)
deriving DecidableEq

inductive StopReason where
  | toolUse
  | maxTokens
  | endTurn
deriving DecidableEq

structure AnthropicUsage where
  inputTokens : Int
  outputTokens : Int
  cacheReadInputTokens : Option Int
  cacheCreationInputTokens : Option Int
deriving DecidableEq

inductive Event where
  | messageStart (id model : String)
  | contentBlockStart (index : Nat) (block : ContentBlock)
  | contentBlockDelta (index : Nat) (delta : BlockDelta)
  | contentBlockStop (index : Nat)
  | messageDelta (stopReason : StopReason) (usage : Option AnthropicUsage)
  | messageStop
  | error (message : String)
deriving DecidableEq

def anthropicUsageShape (u : OpenAIUsage) (cacheReadInInput : Bool) : AnthropicUsage :=
  let input := u.promptTokens.getD 0
  let cached := u.cachedTokens.getD 0
  { inputTokens := if cacheReadInInput then max (input - cached) 0 else input
    outputTokens := u.completionTokens.getD 0
    cacheReadInputTokens := if 0 < cached then some cached else none
    cacheCreationInputTokens := u.cacheCreationTokens.filter (fun n => 0 < n) }

def chatFinishToAnthropicStop (finish : String) : StopReason :=
  if finish = "tool_calls" then .toolUse
  else if finish = "length" then .maxTokens
  else .endTurn

structure AnthropicToolBlock where
  index : Nat
  isOpen : Bool
deriving DecidableEq

/-- `toolBlocks` is keyed by the index of the call on the wire, oldest first. -/
structure Renderer where
  messageId : String
  model : String
  cacheReadInInput : Bool
  started : Bool := false
  openTextBlock : Option Nat := none
  openTextKind : Option TextKind := none
  nextBlock : Nat := 0
  toolBlocks : List (Int × AnthropicToolBlock) := []
  finish : String := ""
  usageEmitted : Bool := false
  errorRelayed : Bool := false
deriving DecidableEq

abbrev Action := Step Renderer Event

def emitStart : Action := fun r =>
  ({ r with started := true, openTextBlock := none }, [.messageStart r.messageId r.model])

def ensureStarted : Action := fun r => if r.started then skip r else emitStart r

def closeBlock (ix : Nat) : Action := fun r =>
  ({ r with
      openTextBlock := if r.openTextBlock = some ix then none else r.openTextBlock
      openTextKind := if r.openTextBlock = some ix then none else r.openTextKind
      toolBlocks := r.toolBlocks.map (fun e =>
        if e.2.index = ix then (e.1, { e.2 with isOpen := false }) else e) },
    [.contentBlockStop ix])

def closeTextBlock : Action := fun r =>
  match r.openTextBlock with
  | none => skip r
  | some ix => closeBlock ix r

def openIndexes (r : Renderer) : List Nat :=
  (r.openTextBlock.toList ++
    (r.toolBlocks.filter (fun e => e.2.isOpen)).map (fun e => e.2.index)).insertionSort (· ≤ ·)

def closeOpenBlock : Action := fun r => each closeBlock (openIndexes r) r

def openTextualBlock (kind : TextKind) : Action := fun r =>
  if r.openTextKind = some kind ∧ r.openTextBlock.isSome then skip r
  else
    seq closeTextBlock (fun r =>
      ({ r with
          openTextBlock := some r.nextBlock
          nextBlock := r.nextBlock + 1
          openTextKind := some kind },
        [.contentBlockStart r.nextBlock (.textual kind)])) r

def emitTextual (delta : BlockDelta) : Action := fun r =>
  (r, [.contentBlockDelta (r.openTextBlock.getD 0) delta])

variable (tc : ToolCallDelta)

def openToolBlock : Action := fun r =>
  ({ r with
      nextBlock := r.nextBlock + 1
      toolBlocks := r.toolBlocks ++ [(tc.index, ⟨r.nextBlock, true⟩)] },
    [.contentBlockStart r.nextBlock (.toolUse tc.id tc.name)])

def toolBlock (r : Renderer) (ix : Int) : Option AnthropicToolBlock :=
  (r.toolBlocks.find? (fun e => e.1 = ix)).map (fun e => e.2)

def emitArguments : Action := fun r =>
  if tc.arguments = "" then skip r
  else
    match toolBlock r tc.index with
    | some tb => (r, [.contentBlockDelta tb.index (.inputJson tc.arguments)])
    | none => skip r

def renderToolCallDelta : Action := fun r =>
  match toolBlock r tc.index with
  | some _ => emitArguments tc r
  | none => seq closeTextBlock (seq (openToolBlock tc) (emitArguments tc)) r

def emitMessageDelta (usage : Option OpenAIUsage) : Action := fun r =>
  (r, [.messageDelta (chatFinishToAnthropicStop r.finish)
    (usage.map (fun u => anthropicUsageShape u r.cacheReadInInput))])

def renderFinish (reason : String) : Action :=
  seq (fun r => ({ r with finish := reason }, [])) closeOpenBlock

def renderChoice (c : Choice) : Action :=
  seq (if c.reasoningContent ≠ "" then
      seq (openTextualBlock .thinking) (emitTextual (.thinking c.reasoningContent)) else skip) <|
  seq (if c.content ≠ "" then
      seq (openTextualBlock .text) (emitTextual (.text c.content)) else skip) <|
  seq (each renderToolCallDelta c.toolCalls) <|
  match c.finishReason with
  | some reason => if reason ≠ "" then renderFinish reason else skip
  | none => skip

def renderChunk (c : OpenAIStreamChunk) : Action :=
  match c.error with
  | some message =>
    seq (fun r => ({ r with errorRelayed := true }, [])) (seq ensureStarted (emit (.error message)))
  | none =>
    seq ensureStarted <|
    match c.usage with
    | some usage =>
      seq (fun r => ({ r with usageEmitted := true }, [])) (emitMessageDelta (some usage))
    | none => each renderChoice c.choices

def renderDone : Action :=
  seq ensureStarted <| seq closeOpenBlock <|
    seq (fun r => if r.usageEmitted then skip r else emitMessageDelta none r) (emit .messageStop)

def render : PumpEvent → Action
  | .chunk c => renderChunk c
  | .done => renderDone

def brokenEnd : Action := fun r =>
  if r.errorRelayed then skip r
  else seq ensureStarted (emit (.error "upstream stream interrupted")) r

/-- `translateStream` with the Messages renderer: everything it writes until the end of the
source, whose reads are given. -/
def translateOpenAIToAnthropicStream (unmarshal : Bytes → Option OpenAIStreamChunk)
    (reads : List Bytes) (messageId model : String) (cacheReadInInput : Bool) : List Event :=
  let events := pump unmarshal [] reads
  let terminal := events.any (fun e => e = .done)
  (seq (each render events) (if terminal then skip else brokenEnd)
    { messageId, model, cacheReadInInput }).2

end YunhouUsers.Inference.Providers
