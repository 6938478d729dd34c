import YunhouUsers.Inference.Providers.MessagesStream

/-!
The Responses client surface (providers/responses_client.go) over the same line pump, and the pump
loop that both surfaces share (`translateStream` of client_surface.go).
-/

namespace YunhouUsers.Inference.Providers

open Transducer

structure StreamRenderer (σ ε : Type) where
  render : PumpEvent → Step σ ε
  brokenEnd : Step σ ε

variable (unmarshal : Bytes → Option OpenAIStreamChunk)

/-- Everything until the end of the source, whose reads are given. -/
def translateStream {σ ε : Type} (r : StreamRenderer σ ε) (reads : List Bytes) : Step σ ε :=
  let events := pump unmarshal [] reads
  let terminal := events.any (fun e => e = .done)
  seq (each r.render events) (if terminal then skip else r.brokenEnd)

def anthropicStreamRenderer : StreamRenderer Renderer Event := ⟨render, brokenEnd⟩

theorem translateOpenAIToAnthropicStream_eq
    (reads : List Bytes) (messageId model : String) (cacheReadInInput : Bool) :
    translateOpenAIToAnthropicStream unmarshal reads messageId model cacheReadInInput =
      (translateStream unmarshal anthropicStreamRenderer reads
        { messageId, model, cacheReadInInput }).2 := rfl

namespace Responses

inductive Status where
  | inProgress
  | completed
  | incomplete
deriving DecidableEq

/-- An output item; the content of an item that was only added is still missing. -/
inductive OutputItem where
  | message (id : String) (status : Status) (text : Option String)
  | reasoning (id : String) (summary : Option String)
  | functionCall (id callId name arguments : String) (status : Status)
deriving DecidableEq

structure Usage where
  inputTokens : Int
  cachedTokens : Int
  outputTokens : Int
  reasoningTokens : Int
  totalTokens : Int
deriving DecidableEq

structure Response where
  id : String
  createdAt : Int
  model : String
  status : Status
  output : List OutputItem := []
  usage : Option Usage := none
deriving DecidableEq

inductive ServerEvent where
  | created (response : Response)
  | inProgress (response : Response)
  | outputItemAdded (outputIndex : Nat) (item : OutputItem)
  | contentPartAdded (itemId : String) (outputIndex : Nat)
  | reasoningSummaryPartAdded (itemId : String) (outputIndex : Nat)
  | outputTextDelta (itemId : String) (outputIndex : Nat) (delta : String)
  | reasoningSummaryTextDelta (itemId : String) (outputIndex : Nat) (delta : String)
  | functionCallArgumentsDelta (itemId : String) (outputIndex : Nat) (delta : String)
  | outputTextDone (itemId : String) (outputIndex : Nat) (text : String)
  | contentPartDone (itemId : String) (outputIndex : Nat) (text : String)
  | reasoningSummaryTextDone (itemId : String) (outputIndex : Nat) (text : String)
  | reasoningSummaryPartDone (itemId : String) (outputIndex : Nat) (text : String)
  | functionCallArgumentsDone (itemId : String) (outputIndex : Nat) (arguments : String)
  | outputItemDone (outputIndex : Nat) (item : OutputItem)
  | completed (response : Response)
  | incomplete (response : Response)
  | error (code message : String)
deriving DecidableEq

structure Frame where
  sequenceNumber : Nat
  event : ServerEvent
deriving DecidableEq

/-- Input counts cached tokens here. -/
def responsesUsageShape (u : OpenAIUsage) (cacheReadInInput : Bool) : Usage :=
  let cached := u.cachedTokens.getD 0
  let input := u.promptTokens.getD 0 + if cacheReadInInput then 0 else cached
  let output := u.completionTokens.getD 0
  { inputTokens := input
    cachedTokens := cached
    outputTokens := output
    reasoningTokens := u.reasoningTokens.getD 0
    totalTokens := input + output }

inductive TextualKind where
  | message
  | reasoning
deriving DecidableEq

structure ToolItem where
  itemId : String
  outputIndex : Nat
  callId : String
  name : String
  args : String := ""
  isOpen : Bool := true
deriving DecidableEq

/-- `ResponsesStreamState`.  `newPublicId` are the identifiers still to be drawn, and `toolItems` is
keyed by the index of the call on the wire, oldest first. -/
structure StreamState where
  responseId : String
  model : String
  createdAt : Int
  cacheReadInInput : Bool
  newPublicId : String → Nat → String
  drawn : Nat := 0
  seq : Nat := 0
  started : Bool := false
  finish : String := ""
  usage : Option OpenAIUsage := none
  errorRelayed : Bool := false
  openKind : Option TextualKind := none
  openIndex : Option Nat := none
  openItemId : String := ""
  nextIndex : Nat := 0
  textBuf : String := ""
  reasonBuf : String := ""
  toolItems : List (Int × ToolItem) := []
  outputItems : List OutputItem := []
  responseItems : List OutputItem := []
  completed : Bool := false

abbrev Action := Step StreamState Frame

def send (e : ServerEvent) : Action := fun s =>
  ({ s with seq := s.seq + 1 }, [⟨s.seq + 1, e⟩])

def set (f : StreamState → StreamState) : Action := fun s => (f s, [])

def reading (f : StreamState → Action) : Action := fun s => f s s

variable (s : StreamState)

def responseShell (status : Status) : Response :=
  { id := s.responseId, createdAt := s.createdAt, model := s.model, status := status }

def emitCreated : Action := reading fun s =>
  seq (set fun s => { s with started := true }) <|
  seq (send (.created (responseShell s .inProgress)))
    (send (.inProgress (responseShell s .inProgress)))

def ensureCreated : Action := fun s => if s.started then skip s else emitCreated s

def emitError (code message : String) : Action :=
  send (.error (if code = "" then "server_error" else code) message)

def keepItem (item : OutputItem) : Action := set fun s =>
  { s with
    outputItems := s.outputItems ++ [item]
    responseItems := s.responseItems ++ [item] }

def closeTextualItem : Action := reading fun s =>
  match s.openKind with
  | none => skip
  | some kind =>
    let itemId := s.openItemId
    let ix := s.openIndex.getD 0
    seq (set fun s => { s with openKind := none, openItemId := "", openIndex := none }) <|
    match kind with
    | .message =>
      let item := OutputItem.message itemId .completed (some s.textBuf)
      seq (send (.outputTextDone itemId ix s.textBuf)) <|
      seq (send (.contentPartDone itemId ix s.textBuf)) <|
      seq (send (.outputItemDone ix item)) (keepItem item)
    | .reasoning =>
      let item := OutputItem.reasoning itemId (some s.reasonBuf)
      seq (send (.reasoningSummaryTextDone itemId ix s.reasonBuf)) <|
      seq (send (.reasoningSummaryPartDone itemId ix s.reasonBuf)) <|
      seq (send (.outputItemDone ix item)) <|
      -- the reasoning is part of the response, not of the chain
      set fun s => { s with responseItems := s.responseItems ++ [item] }

def toolItem (ix : Int) : Option ToolItem :=
  (s.toolItems.find? (fun e => e.1 = ix)).map (fun e => e.2)

def updateTool (ix : Int) (f : ToolItem → ToolItem) (s : StreamState) : StreamState :=
  { s with toolItems := s.toolItems.map (fun e => if e.1 = ix then (e.1, f e.2) else e) }

def closeToolItem (key : Int) : Action := reading fun s =>
  match toolItem s key with
  | none => skip
  | some ti =>
    if !ti.isOpen then skip
    else
      let args := if ti.args = "" then "{}" else ti.args
      let item := OutputItem.functionCall ti.itemId ti.callId ti.name args .completed
      seq (set (updateTool key fun ti => { ti with isOpen := false })) <|
      seq (send (.functionCallArgumentsDone ti.itemId ti.outputIndex args)) <|
      seq (send (.outputItemDone ti.outputIndex item)) (keepItem item)

/-- The open items in output order; `none` is the textual one. -/
def openItems : List (Nat × Option Int) :=
  let textual := s.openKind.toList.map fun _ => (s.openIndex.getD 0, none)
  let tools := (s.toolItems.filter (fun e => e.2.isOpen)).map fun e => (e.2.outputIndex, some e.1)
  (textual ++ tools).insertionSort (fun a b => a.1 ≤ b.1)

def closeItem : Nat × Option Int → Action
  | (_, none) => closeTextualItem
  | (_, some key) => closeToolItem key

def closeOpenItem : Action := fun s => each closeItem (openItems s) s

def addTextualItem (kind : TextualKind) : Action :=
  seq (set fun s => { s with
      openKind := some kind
      openIndex := some s.nextIndex
      nextIndex := s.nextIndex + 1
      textBuf := ""
      reasonBuf := ""
      openItemId := s.newPublicId (match kind with | .message => "msg_" | .reasoning => "rs_") s.drawn
      drawn := s.drawn + 1 }) <|
  reading fun s =>
    let ix := s.openIndex.getD 0
    match kind with
    | .message =>
      seq (send (.outputItemAdded ix (.message s.openItemId .inProgress none)))
        (send (.contentPartAdded s.openItemId ix))
    | .reasoning =>
      seq (send (.outputItemAdded ix (.reasoning s.openItemId none)))
        (send (.reasoningSummaryPartAdded s.openItemId ix))

def openTextualItem (kind : TextualKind) : Action := fun s =>
  if s.openKind = some kind then skip s else seq closeTextualItem (addTextualItem kind) s

variable (tc : ToolCallDelta)

def openToolItem : Action := reading fun s =>
  let ti : ToolItem :=
    { itemId := s.newPublicId "fc_" s.drawn, outputIndex := s.nextIndex, callId := tc.id
      name := tc.name }
  seq (set fun s => { s with
      drawn := s.drawn + 1
      nextIndex := s.nextIndex + 1
      toolItems := s.toolItems ++ [(tc.index, ti)] })
    (send (.outputItemAdded ti.outputIndex
      (.functionCall ti.itemId tc.id tc.name "" .inProgress)))

def emitArguments : Action := fun s =>
  if tc.arguments = "" then skip s
  else
    match toolItem s tc.index with
    | some ti =>
      seq (set (updateTool tc.index fun ti => { ti with args := ti.args ++ tc.arguments }))
        (send (.functionCallArgumentsDelta ti.itemId ti.outputIndex tc.arguments)) s
    | none => skip s

def renderToolDelta : Action := fun s =>
  match toolItem s tc.index with
  | some _ => emitArguments tc s
  | none => seq closeTextualItem (seq (openToolItem tc) (emitArguments tc)) s

def renderReasoning (text : String) : Action :=
  seq (openTextualItem .reasoning) <|
  seq (set fun s => { s with reasonBuf := s.reasonBuf ++ text }) <|
  reading fun s => send (.reasoningSummaryTextDelta s.openItemId (s.openIndex.getD 0) text)

def renderContent (text : String) : Action :=
  seq (openTextualItem .message) <|
  seq (set fun s => { s with textBuf := s.textBuf ++ text }) <|
  reading fun s => send (.outputTextDelta s.openItemId (s.openIndex.getD 0) text)

def renderFinish (reason : String) : Action :=
  seq (set fun s => { s with finish := reason }) closeOpenItem

def renderChoice (c : Choice) : Action :=
  seq (if c.reasoningContent ≠ "" then renderReasoning c.reasoningContent else skip) <|
  seq (if c.content ≠ "" then renderContent c.content else skip) <|
  seq (each renderToolDelta c.toolCalls) <|
  match c.finishReason with
  | some reason => if reason ≠ "" then renderFinish reason else skip
  | none => skip

/-- `response.completed`, or `response.incomplete` when the length cut it off. -/
def terminalEvent : ServerEvent :=
  let response (status : Status) : Response :=
    { responseShell s status with
      output := s.responseItems
      usage := s.usage.map (fun u => responsesUsageShape u s.cacheReadInInput) }
  if s.finish = "length" then .incomplete (response .incomplete)
  else .completed (response .completed)

def finishClean : Action :=
  seq ensureCreated <| seq closeOpenItem <| reading fun s =>
    seq (set fun s => { s with completed := true }) (send (terminalEvent s))

def renderChunk (c : OpenAIStreamChunk) : Action :=
  match c.error with
  | some message =>
    seq (set fun s => { s with errorRelayed := true }) (emitError c.errorCode message)
  | none =>
    seq ensureCreated <|
    seq (set fun s => { s with usage := c.usage.or s.usage }) (each renderChoice c.choices)

def render : PumpEvent → Action
  | .chunk c => renderChunk c
  | .done => finishClean

def brokenEnd : Action := fun s =>
  if s.errorRelayed then skip s
  else seq ensureCreated (emitError "server_error" "upstream stream interrupted") s

def responsesStreamRenderer : StreamRenderer StreamState Frame := ⟨render, brokenEnd⟩

/-- The state the handler reads at the end, and what was written. -/
def translateOpenAIToResponsesStream (unmarshal : Bytes → Option OpenAIStreamChunk)
    (reads : List Bytes) (responseId model : String) (createdAt : Int) (cacheReadInInput : Bool)
    (newPublicId : String → Nat → String) : StreamState × List Frame :=
  translateStream unmarshal responsesStreamRenderer reads
    { responseId, model, createdAt, cacheReadInInput, newPublicId }

end Responses

end YunhouUsers.Inference.Providers
