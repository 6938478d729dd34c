import YunhouUsers.Inference.Providers.AnthropicStream

/-!
The translation of an upstream Responses stream into OpenAI chunks
(`providers/openai_responses_stream.go`).  Decoding of the events is a parameter.
-/

namespace YunhouUsers.Inference.Providers

open Accounting Transducer

inductive ResponsesEventType where
  | created
  | outputItemAdded
  | outputTextDelta
  | reasoningSummaryTextDelta
  | reasoningTextDelta
  | functionCallArgumentsDelta
  | completed
  | incomplete
  | failed
  | error
  | other
deriving DecidableEq

structure ResponsesUsage where
  inputTokens : Option Int64 := none
  outputTokens : Option Int64 := none
  cachedTokens : Option Int64 := none
  reasoningTokens : Option Int64 := none
deriving DecidableEq

structure ResponsesOutputItem where
  type : String
  callId : String := ""
  name : String := ""
deriving DecidableEq

/-- An absent string reads as the empty one. -/
structure ResponsesObjectView where
  status : String := ""
  incompleteReason : Option String := none
  errorMessage : Option String := none
  output : List ResponsesOutputItem := []
  usage : Option ResponsesUsage := none
deriving DecidableEq

/-- `delta` is what `deltaString` makes of the field. -/
structure ResponsesStreamEvent where
  type : ResponsesEventType
  outputIndex : Int := 0
  item : Option ResponsesOutputItem := none
  delta : String := ""
  response : Option ResponsesObjectView := none
  message : String := ""
deriving DecidableEq

def ResponsesUsage.usageBuckets (u : ResponsesUsage) : UsageBuckets :=
  { inputTokens := u.inputTokens.map Int64.toInt
    outputTokens := u.outputTokens.map Int64.toInt
    cacheReadTokens := u.cachedTokens.map Int64.toInt
    reasoningTokens := u.reasoningTokens.map Int64.toInt }

def marshalResponsesRawUsage (u : ResponsesUsage) : Bytes :=
  let details (key inner : String) (n : Option Int64) : List (String × Json) :=
    match n with
    | some n => [(key, .obj [(inner, .num n.toInt)])]
    | none => []
  Json.marshal (.obj [("schema_version", .num 1), ("usage", .obj
    (optionalMember "input_tokens" (u.inputTokens.map Int64.toInt) ++
      details "input_tokens_details" "cached_tokens" u.cachedTokens ++
      optionalMember "output_tokens" (u.outputTokens.map Int64.toInt) ++
      details "output_tokens_details" "reasoning_tokens" u.reasoningTokens))])

def responsesFinishReason (status incompleteReason : String) (hasToolCalls : Bool) : String :=
  if status = "incomplete" then
    if incompleteReason = "max_output_tokens" then "length"
    else if incompleteReason = "content_filter" then "content_filter"
    else "stop"
  else if hasToolCalls then "tool_calls"
  else "stop"

def upstreamErrorFrame (message : String) : Frame :=
  .chunk [("error", .obj [("message", .str message)])]

structure ResponsesTranslator where
  /-- the output indices of the calls -/
  toolCalls : List Int := []
  terminalSeen : Bool := false
  tap : TapResult := {}

namespace ResponsesTranslator

def addContent (text : String) (t : ResponsesTranslator) : ResponsesTranslator :=
  { t with tap := { t.tap with contentBytes := t.tap.contentBytes + text.utf8ByteSize } }

def recordUsage (usage : Option ResponsesUsage) (t : ResponsesTranslator) : ResponsesTranslator :=
  match usage with
  | some u =>
    { t with tap := { t.tap with
        sawUsage := true
        buckets := u.usageBuckets
        raw := marshalResponsesRawUsage u } }
  | none => t

def markTerminal (t : ResponsesTranslator) : ResponsesTranslator :=
  { t with
    terminalSeen := true
    tap := { t.tap with terminal := true } }

def usageFrames (t : ResponsesTranslator) : List Frame :=
  if t.tap.sawUsage then [openAIUsageFrame t.tap.buckets] else []

end ResponsesTranslator

namespace ResponsesStreamEvent

variable (ev : ResponsesStreamEvent)

/-- The status of the object; an object without one is what the type of the event says. -/
def status : String :=
  match ev.response with
  | some r => if r.status ≠ "" then r.status else ofType
  | none => ofType
where
  ofType : String := if ev.type = .incomplete then "incomplete" else "completed"

def incompleteReason : String :=
  (ev.response.bind ResponsesObjectView.incompleteReason).getD ""

def outputCalls : Bool :=
  (ev.response.elim [] ResponsesObjectView.output).any (·.type = "function_call")

def usage : Option ResponsesUsage :=
  ev.response.bind ResponsesObjectView.usage

end ResponsesStreamEvent

def textFragment (key text : String) : Step ResponsesTranslator Frame := fun t =>
  if text ≠ "" then (t.addContent text, [openAIChunk [(key, .str text)] ""]) else (t, [])

def translateResponsesEvent (ev : ResponsesStreamEvent) : Step ResponsesTranslator Frame := fun t =>
  match ev.type with
  | .created => (t, [openAIChunk [("role", .str "assistant")] ""])
  | .outputItemAdded =>
    match ev.item with
    | some item =>
      if item.type = "function_call" then
        ({ t with toolCalls := t.toolCalls.insert ev.outputIndex },
          [openAIChunk [("tool_calls", .arr [.obj
            [("function", .obj [("arguments", .str ""), ("name", .str item.name)]),
              ("id", .str item.callId), ("index", .num ev.outputIndex),
              ("type", .str "function")]])] ""])
      else (t, [])
    | none => (t, [])
  | .outputTextDelta => textFragment "content" ev.delta t
  | .reasoningSummaryTextDelta | .reasoningTextDelta => textFragment "reasoning_content" ev.delta t
  | .functionCallArgumentsDelta =>
    if ev.delta ≠ "" then
      (t, [openAIChunk [("tool_calls", .arr [.obj
        [("function", .obj [("arguments", .str ev.delta)]), ("index", .num ev.outputIndex)]])] ""])
    else (t, [])
  | .completed | .incomplete =>
    let t := t.markTerminal.recordUsage ev.usage
    let hasTools := !t.toolCalls.isEmpty || ev.outputCalls
    (t, openAIChunk [] (responsesFinishReason ev.status ev.incompleteReason hasTools) ::
      (t.usageFrames ++ [.done]))
  | .failed =>
    let message := (ev.response.bind ResponsesObjectView.errorMessage).getD ""
    (t.recordUsage ev.usage,
      [upstreamErrorFrame (if message ≠ "" then message else "upstream responses error")])
  | .error =>
    (t, [upstreamErrorFrame (if ev.message = "" then "upstream responses error" else ev.message)])
  | .other => (t, [])

/-- A stream that ends without a terminal event still reports what was consumed. -/
def finishResponsesStream : Step ResponsesTranslator Frame := fun t =>
  (t, if t.terminalSeen then [] else t.usageFrames)

section Body

variable (unmarshalEvent : Bytes → Option ResponsesStreamEvent)

def receivedResponses (body : Bytes) : List ResponsesStreamEvent :=
  (scanTokens [] body).filterMap (fun line =>
    if (ascii "data: ").isPrefixOf (dropCR line) then unmarshalEvent ((dropCR line).drop 6) else none)

def translateResponsesEvents (body : Bytes) : ResponsesTranslator × List Frame :=
  seq (each translateResponsesEvent (receivedResponses unmarshalEvent body)) finishResponsesStream {}

end Body

end YunhouUsers.Inference.Providers
