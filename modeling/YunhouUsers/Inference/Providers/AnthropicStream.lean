import YunhouUsers.Inference.Providers.Json
import YunhouUsers.Inference.Providers.UsageTracker

/-!
The translation of an Anthropic stream into OpenAI chunks (`providers/anthropic_stream.go`), with
the tap that meters the events on the way.  Decoding of the events is a parameter.
-/

namespace YunhouUsers.Inference.Providers

open Accounting Transducer

inductive AnthropicEventType where
  | messageStart
  | contentBlockStart
  | contentBlockDelta
  | messageDelta
  | messageStop
  | error
  | other
deriving DecidableEq

inductive AnthropicDeltaType where
  | textDelta
  | thinkingDelta
  | inputJsonDelta
  | other
deriving DecidableEq

/-- The usage of a message start; its output count is not read. -/
structure StartUsage where
  inputTokens : Option Int := none
  cacheReadTokens : Option Int := none
  cacheCreationTokens : Option Int := none
deriving DecidableEq

structure StartedBlock where
  type : String
  id : String
  name : String
deriving DecidableEq

structure AnthropicDelta where
  type : AnthropicDeltaType := .other
  text : String := ""
  thinking : String := ""
  partialJson : String := ""
  stopReason : String := ""
deriving DecidableEq

structure AnthropicEvent where
  type : AnthropicEventType
  messageUsage : Option StartUsage := none
  index : Int := 0
  contentBlock : Option StartedBlock := none
  delta : Option AnthropicDelta := none
  outputTokens : Option Int := none
deriving DecidableEq

/-- One written frame: a chunk with its members, or the end marker. -/
inductive Frame where
  | chunk (members : List (String × Json))
  | done

def Frame.line : Frame → Bytes
  | .chunk members => ascii "data: " ++ Json.marshal (.obj members)
  | .done => ascii "data: [DONE]"

def Frame.bytes (f : Frame) : Bytes := f.line ++ [newline, newline]

def optionalMember (key : String) : Option Int → List (String × Json)
  | some n => [(key, .num n)]
  | none => []

def mapAnthropicStopReason (reason : String) : String :=
  if reason = "tool_use" then "tool_calls"
  else if reason = "max_tokens" then "length"
  else "stop"

def openAIChunk (delta : List (String × Json)) (finish : String) : Frame :=
  .chunk
    [("choices", .arr [.obj
        [("delta", .obj delta),
          ("finish_reason", if finish = "" then .null else .str finish),
          ("index", .num 0)]]),
      ("object", .str "chat.completion.chunk")]

/-- The members of the usage object; what was not reported is left out. -/
def usageMembers (b : UsageBuckets) : List (String × Json) :=
  optionalMember "cache_creation_input_tokens" b.cacheWriteTokens ++
    optionalMember "completion_tokens" b.outputTokens ++
    (match b.reasoningTokens with
      | some n => [("completion_tokens_details", .obj [("reasoning_tokens", .num n)])]
      | none => []) ++
    optionalMember "prompt_tokens" b.inputTokens ++
    (if b.cacheReadTokens.isSome || b.cacheWriteTokens.isSome then
      [("prompt_tokens_details", .obj (optionalMember "cached_tokens" b.cacheReadTokens))]
    else []) ++
    [("total_tokens", .num ((b.inputTokens.getD 0 + b.outputTokens.getD 0).bmod (2 ^ 64)))]

def openAIUsageFrame (b : UsageBuckets) : Frame :=
  .chunk [("choices", .arr []), ("object", .str "chat.completion.chunk"),
    ("usage", .obj (usageMembers b))]

def errorFrame : Frame :=
  .chunk [("error", .obj [("message", .str "upstream anthropic error")])]

def marshalAnthropicRawUsage (input output cacheRead cacheWrite : Option Int) : Bytes :=
  Json.marshal (.obj [("schema_version", .num 1), ("usage", .obj
    (optionalMember "cache_creation_input_tokens" cacheWrite ++
      optionalMember "cache_read_input_tokens" cacheRead ++
      optionalMember "input_tokens" input ++ optionalMember "output_tokens" output))])

structure Translator where
  input : Option Int := none
  output : Option Int := none
  cacheRead : Option Int := none
  cacheWrite : Option Int := none
  stopSeen : Bool := false
  tap : TapResult := {}

namespace Translator

def flushUsage (t : Translator) : Translator :=
  if t.input.isSome || t.output.isSome || t.cacheRead.isSome || t.cacheWrite.isSome then
    { t with
      tap := { t.tap with
        sawUsage := true
        buckets :=
          { inputTokens := t.input
            cacheReadTokens := t.cacheRead
            cacheWriteTokens := t.cacheWrite
            outputTokens := t.output }
        raw := marshalAnthropicRawUsage t.input t.output t.cacheRead t.cacheWrite } }
  else t

def addContent (text : String) (t : Translator) : Translator :=
  { t with tap := { t.tap with contentBytes := t.tap.contentBytes + text.utf8ByteSize } }

def markTerminal (t : Translator) : Translator :=
  { t with
    stopSeen := true
    tap := { t.tap with terminal := true } }

def startUsage (usage : Option StartUsage) (t : Translator) : Translator :=
  match usage with
  | some u => flushUsage { t with
      input := u.inputTokens
      cacheRead := u.cacheReadTokens
      cacheWrite := u.cacheCreationTokens }
  | none => t

def deltaUsage (outputTokens : Option Int) (t : Translator) : Translator :=
  match outputTokens with
  | some n => flushUsage { t with output := some n }
  | none => t

def usageFrames (t : Translator) : List Frame :=
  if t.tap.sawUsage then [openAIUsageFrame t.tap.buckets] else []

end Translator

def translateEvent (ev : AnthropicEvent) : Step Translator Frame := fun t =>
  match ev.type with
  | .messageStart =>
    (t.startUsage ev.messageUsage, [openAIChunk [("role", .str "assistant")] ""])
  | .contentBlockStart =>
    match ev.contentBlock with
    | some block =>
      if block.type = "tool_use" then
        (t, [openAIChunk [("tool_calls", .arr [.obj
          [("function", .obj [("arguments", .str ""), ("name", .str block.name)]),
            ("id", .str block.id), ("index", .num ev.index), ("type", .str "function")]])] ""])
      else (t, [])
    | none => (t, [])
  | .contentBlockDelta =>
    match ev.delta with
    | some delta =>
      match delta.type with
      | .textDelta => (t.addContent delta.text, [openAIChunk [("content", .str delta.text)] ""])
      | .thinkingDelta =>
        (t.addContent delta.thinking,
          [openAIChunk [("reasoning_content", .str delta.thinking)] ""])
      | .inputJsonDelta =>
        (t, [openAIChunk [("tool_calls", .arr [.obj
          [("function", .obj [("arguments", .str delta.partialJson)]),
            ("index", .num ev.index)]])] ""])
      | .other => (t, [])
    | none => (t, [])
  | .messageDelta =>
    (t.deltaUsage ev.outputTokens,
      match ev.delta with
      | some delta =>
        if delta.stopReason = "" then []
        else [openAIChunk [] (mapAnthropicStopReason delta.stopReason)]
      | none => [])
  | .messageStop =>
    let t := t.markTerminal
    (t, t.usageFrames ++ [.done])
  | .error => (t, [errorFrame])
  | .other => (t, [])

/-- A stream that ends without its stop still reports what was consumed, and is not complete. -/
def finishStream : Step Translator Frame := fun t => (t, if t.stopSeen then [] else t.usageFrames)

def scannerCap : Nat := 2 ^ 20

/-- `bufio.ScanLines` up to the first line that does not fit the buffer; `line` was read before. -/
def scanTokens (line : Bytes) : Bytes → List Bytes
  | [] => if line = [] ∨ scannerCap ≤ line.length then [] else [line]
  | b :: rest =>
    if b = newline then
      if scannerCap ≤ line.length then [] else line :: scanTokens [] rest
    else scanTokens (line ++ [b]) rest

def dropCR (line : Bytes) : Bytes := if line.getLast? = some 13 then line.dropLast else line

section Body

variable (unmarshalEvent : Bytes → Option AnthropicEvent)

def eventOf (line : Bytes) : Option AnthropicEvent :=
  if (ascii "data: ").isPrefixOf line then unmarshalEvent (line.drop 6) else none

def received (body : Bytes) : List AnthropicEvent :=
  (scanTokens [] body).filterMap (fun line => eventOf unmarshalEvent (dropCR line))

def translateAnthropicEvents (body : Bytes) : Translator × List Frame :=
  seq (each translateEvent (received unmarshalEvent body)) finishStream {}

end Body

end YunhouUsers.Inference.Providers
