import YunhouUsers.Inference.Providers.AnthropicPayload

/-!
Responses items as chat messages (`responsesItemsToChat` of `providers/responses_client.go`) and
the chat payload built from them (`OpenAIChat.BuildPayload` of `providers/openai_chat.go`).

What `json.Unmarshal` makes of an item is the item, and `json.Valid` is a parameter.
-/

namespace YunhouUsers.Inference.Providers.Replay

open Anthropic (ChatMessage ChatRole ContentPart ToolCall ToolObject RawToolChoice PassedValue Call)

/-! ### The conversion -/

structure TextPart where
  type : String
  text : String
deriving DecidableEq

inductive RawText where
  | absent
  | text (text : String)
  | parts (parts : List TextPart)
  | malformed
deriving DecidableEq

structure ItemView where
  type : String := ""
  role : String := ""
  content : RawText := .absent
  callId : String := ""
  name : String := ""
  arguments : String := ""
  output : RawText := .absent
deriving DecidableEq

def invalidMsg (field message : String) : Err := .domain .invalidInput (field ++ ": " ++ message)

def messagePart (role : ChatRole) (p : TextPart) : Except Err String :=
  if p.type = "input_text" then
    if role = .assistant then
      .error (invalidMsg "input" "assistant messages use output_text parts")
    else .ok p.text
  else if p.type = "output_text" then .ok p.text
  else if p.type = "input_image" ∨ p.type = "input_file" then
    .error (invalidMsg "input"
      (p.type ++ " parts are not supported by this gateway (text-only surface)"))
  else .error (invalidMsg "input" ("unsupported content part type: " ++ p.type))

def responsesMessageText (role : ChatRole) : RawText → Except Err String
  | .absent => .error (invalidMsg "input" "message item content is required")
  | .text s => .ok s
  | .malformed =>
    .error (invalidMsg "input" "message content must be a string or content parts")
  | .parts [] => .error (invalidMsg "input" "message content parts must not be empty")
  | .parts ps => do return "\n".intercalate (← ps.mapM (messagePart role))

def outputPart (p : TextPart) : Except Err String :=
  if p.type ≠ "output_text" ∧ p.type ≠ "input_text" then
    .error (invalidMsg "input" ("unsupported function_call_output part type: " ++ p.type))
  else .ok p.text

def responsesToolOutputText : RawText → Except Err String
  | .absent => .ok ""
  | .text s => .ok s
  | .malformed =>
    .error (invalidMsg "input" "function_call_output output must be a string or output_text parts")
  | .parts ps => do return "\n".intercalate (← ps.mapM outputPart)

/-- The chat role of a message item; developers speak as the system. -/
def messageRole (role : String) : Option ChatRole :=
  if role = "system" ∨ role = "developer" then some .system
  else if role = "user" then some .user
  else if role = "assistant" then some .assistant
  else none

section Convert

variable (validJson : String → Bool)

def itemToChat (raw : Option ItemView) : Except Err (List ChatMessage) :=
  match raw with
  | none => .error (invalidMsg "input" "invalid input item")
  | some it =>
    if it.type = "" ∨ it.type = "message" then
      match messageRole it.role with
      | none => .error (invalidMsg "input"
          "message item role must be user, assistant, system or developer")
      | some role => do
        let text ← responsesMessageText role it.content
        return [{ role := role, content := text }]
    else if it.type = "function_call" then
      if it.callId = "" ∨ it.name = "" then
        .error (invalidMsg "input" "function_call items require call_id and name")
      else if it.arguments ≠ "" ∧ validJson it.arguments = false then
        .error (invalidMsg "input" "function_call arguments must be a JSON-encoded value")
      else
        let arguments := if it.arguments = "" then "\x7b\x7d" else it.arguments
        .ok [{ role := .assistant, toolCalls := [⟨it.callId, it.name, arguments⟩] }]
    else if it.type = "function_call_output" then
      if it.callId = "" then
        .error (invalidMsg "input" "function_call_output items require call_id")
      else do
        let text ← responsesToolOutputText it.output
        return [{ role := .tool, toolCallId := it.callId, content := text }]
    else if it.type = "reasoning" then .ok []
    else if it.type = "item_reference" then
      .error (invalidMsg "input" "item_reference is not supported (stored-items API 不在本期范围)")
    else .error (invalidMsg "input" ("unsupported input item type: " ++ it.type))

def responsesItemsToChat : List (Option ItemView) → Except Err (List ChatMessage)
  | [] => .ok []
  | raw :: items => do
    let first ← itemToChat validJson raw
    let rest ← responsesItemsToChat items
    return first ++ rest

end Convert

/-! ### The payload -/

inductive WireContent where
  | text (text : String)
  | parts (parts : List ContentPart)
deriving DecidableEq

structure WireMessage where
  role : ChatRole
  content : WireContent
  toolCalls : List ToolCall
  toolCallId : String
deriving DecidableEq

structure ChatPayload (Value : Type) where
  model : String
  messages : List WireMessage
  stream : Bool
  maxTokens : Int
  includeUsage : Bool
  tools : List (Option (ToolObject Value))
  toolChoice : Option RawToolChoice
  thinking : Bool
  passed : List (String × PassedValue Value)

/-- Images without an address and unknown parts are left out. -/
def openAIWireContent (m : ChatMessage) : WireContent :=
  match m.contentParts with
  | none => .text m.content
  | some parts => .parts (parts.filter fun
    | .text _ => true
    | .imageUrl url => url.isSome
    | .other _ => false)

def wireMessage (m : ChatMessage) : WireMessage :=
  { role := m.role
    content := openAIWireContent m
    toolCalls := m.toolCalls
    toolCallId := m.toolCallId }

def passthroughKeys : List String :=
  ["temperature", "top_p", "stop", "presence_penalty", "frequency_penalty", "seed",
    "parallel_tool_calls"]

def buildPayload {Value : Type} (call : Call Value) : Except Err (ChatPayload Value) :=
  let r := call.request
  match r.passthrough.find? (fun p => p.1 ∉ passthroughKeys) with
  | some (key, _) =>
    .error (.domain .invalidInput
      ("providers: parameter " ++ key ++ " is not supported by the openai_chat protocol"))
  | none => .ok
    { model := call.upstreamModel
      messages := r.messages.map wireMessage
      stream := r.stream
      maxTokens := call.outputCap
      includeUsage := r.stream
      tools := r.tools
      toolChoice := r.toolChoice
      thinking := r.thinkingEnabled = some true
      passed := r.passthrough }

/-! ### Calls and answers -/

/-- A block of answers to exactly these calls comes next. -/
def Answered {α : Type} (answer : α → Option String) (calls : List String) (next : List α) : Prop :=
  ∃ block rest, next = block ++ rest ∧ ∃ ids : List String, block.map answer = ids.map some ∧ ids.Perm calls

def ItemView.call (it : ItemView) : Option String :=
  if it.type = "function_call" then some it.callId else none

def ItemView.answer (it : ItemView) : Option String :=
  if it.type = "function_call_output" then some it.callId else none

/-- Every maximal run of calls is followed by the answers to them. -/
def ItemsPaired (items : List ItemView) : Prop :=
  ∀ (before run : List ItemView) (ids : List String) (after : List ItemView), items = before ++ run ++ after → run ≠ [] →
    run.map ItemView.call = ids.map some → (∀ it ∈ before.getLast?, it.call = none) →
    (∀ it ∈ after.head?, it.call = none) → Answered ItemView.answer ids after

def WireMessage.answer (m : WireMessage) : Option String :=
  if m.role = .tool then some m.toolCallId else none

/-- Every message with tool calls is followed by the answers to them. -/
def MessagesPaired (messages : List WireMessage) : Prop :=
  ∀ before m after, messages = before ++ m :: after → m.role = .assistant → m.toolCalls ≠ [] →
    Answered WireMessage.answer (m.toolCalls.map ToolCall.id) after

def LoneCalls (items : List ItemView) : Prop :=
  items.IsChain (fun a b => a.call = none ∨ b.call = none)

instance (items : List ItemView) : Decidable (LoneCalls items) :=
  inferInstanceAs (Decidable (List.IsChain _ _))

section Messages

variable {validJson : String → Bool} {it : ItemView} {messages : List ChatMessage}

theorem itemToChat_spec (converted : itemToChat validJson (some it) = .ok messages) :
    (∃ tc, it.call = some tc.id ∧ it.answer = none ∧
        messages = [{ role := .assistant, toolCalls := [tc] }]) ∨
      (it.call = none ∧ ∃ id text, it.answer = some id ∧
        messages = [{ role := .tool, toolCallId := id, content := text }]) ∨
      it.call = none ∧ it.answer = none ∧ ∀ m ∈ messages, m.toolCalls = [] := by
  simp only [itemToChat] at converted
  split at converted
  · rename_i message
    right
    right
    have other : it.call = none ∧ it.answer = none := by
      rcases message with is | is <;> simp [ItemView.call, ItemView.answer, is]
    refine ⟨other.1, other.2, ?_⟩
    split at converted
    · cases converted
    · rename_i role _
      cases said : responsesMessageText role it.content with
      | error e =>
        rw [said] at converted
        cases converted
      | ok text =>
        rw [said] at converted
        cases converted
        simp
  · split at converted
    · rename_i is
      left
      split at converted
      · cases converted
      · split at converted
        · cases converted
        · cases converted
          exact ⟨_, by simp [ItemView.call, is], by simp [ItemView.answer, is], rfl⟩
    · rename_i notCall
      have call : it.call = none := if_neg notCall
      right
      split at converted
      · rename_i is
        left
        split at converted
        · cases converted
        · cases said : responsesToolOutputText it.output with
          | error e =>
            rw [said] at converted
            cases converted
          | ok text =>
            rw [said] at converted
            cases converted
            exact ⟨call, it.callId, text, if_pos is, rfl⟩
      · rename_i notAnswer
        right
        refine ⟨call, if_neg notAnswer, ?_⟩
        split at converted
        · cases converted
          simp
        · split at converted <;> cases converted

theorem itemsToChat_append {xs ys : List ItemView}
    (converted : responsesItemsToChat validJson ((xs ++ ys).map some) = .ok messages) :
    ∃ ms ns, responsesItemsToChat validJson (xs.map some) = .ok ms ∧
      responsesItemsToChat validJson (ys.map some) = .ok ns ∧ messages = ms ++ ns := by
  induction xs generalizing messages with
  | nil => exact ⟨[], messages, rfl, converted, rfl⟩
  | cons x xs ih =>
    simp only [List.cons_append, List.map_cons, responsesItemsToChat] at converted ⊢
    cases first : itemToChat validJson (some x) with
    | error e =>
      rw [first] at converted
      cases converted
    | ok here =>
      rw [first] at converted
      cases rest : responsesItemsToChat validJson ((xs ++ ys).map some) with
      | error e =>
        simp only [rest] at converted
        cases converted
      | ok more =>
        obtain ⟨ms, ns, left, right, rfl⟩ := ih rest
        simp only [rest] at converted
        cases converted
        refine ⟨here ++ ms, ns, ?_, right, (List.append_assoc ..).symm⟩
        simp only [left]
        rfl

theorem itemsToChat_singleton
    (converted : responsesItemsToChat validJson ([it].map some) = .ok messages) :
    itemToChat validJson (some it) = .ok messages := by
  simp only [List.map_cons, List.map_nil, responsesItemsToChat] at converted
  cases first : itemToChat validJson (some it) with
  | error e =>
    rw [first] at converted
    cases converted
  | ok here =>
    rw [first] at converted
    cases converted
    simp

variable {items : List ItemView}

theorem itemsToChat_cons
    (converted : responsesItemsToChat validJson ((it :: items).map some) = .ok messages) :
    ∃ here ns, itemToChat validJson (some it) = .ok here ∧
      responsesItemsToChat validJson (items.map some) = .ok ns ∧ messages = here ++ ns := by
  rw [← List.singleton_append] at converted
  obtain ⟨here, ns, one, more, rfl⟩ := itemsToChat_append converted
  exact ⟨here, ns, itemsToChat_singleton one, more, rfl⟩

theorem itemsToChat_split {before after : List ItemView}
    (converted : responsesItemsToChat validJson ((before ++ it :: after).map some) = .ok messages) :
    ∃ ms here ns, responsesItemsToChat validJson (before.map some) = .ok ms ∧
      itemToChat validJson (some it) = .ok here ∧
      responsesItemsToChat validJson (after.map some) = .ok ns ∧ messages = ms ++ (here ++ ns) := by
  obtain ⟨ms, rest, left, right, rfl⟩ := itemsToChat_append converted
  obtain ⟨here, ns, one, more, rfl⟩ := itemsToChat_cons right
  exact ⟨ms, here, ns, left, one, more, rfl⟩

theorem call_of_message (converted : responsesItemsToChat validJson (items.map some) = .ok messages)
    {ms ns : List ChatMessage} {m : ChatMessage} (split : messages = ms ++ m :: ns)
    (calls : m.toolCalls ≠ []) :
    ∃ before it after tc, items = before ++ it :: after ∧ it.call = some tc.id ∧
      m = { role := .assistant, toolCalls := [tc] } ∧
      responsesItemsToChat validJson (after.map some) = .ok ns := by
  induction items generalizing messages ms with
  | nil =>
    cases converted
    simp at split
  | cons x items ih =>
    obtain ⟨here, rest, one, more, whole⟩ := itemsToChat_cons converted
    rw [whole] at split
    rcases List.append_eq_append_iff.mp split with ⟨others, first, second⟩ | ⟨others, first, second⟩
    · -- the message comes from a later item
      obtain ⟨before, it, after, tc, rfl, rest⟩ := ih more second
      exact ⟨x :: before, it, after, tc, rfl, rest⟩
    · cases others with
      | nil =>
        rw [List.nil_append] at second
        rw [← List.nil_append (m :: ns)] at second
        obtain ⟨before, it, after, tc, rfl, rest⟩ := ih more second.symm
        exact ⟨x :: before, it, after, tc, rfl, rest⟩
      | cons o others =>
        obtain ⟨rfl, rfl⟩ := List.cons.inj second
        rcases itemToChat_spec one with ⟨tc, call, -, made⟩ | ⟨-, id, text, -, made⟩ | ⟨-, -, none_⟩
        · rw [made] at first
          have alone : ms = [] ∧ others = [] := by
            cases ms with
            | nil => exact ⟨rfl, (List.cons.inj first).2.symm⟩
            | cons o ms => simp at first
          obtain ⟨rfl, rfl⟩ := alone
          cases first
          exact ⟨[], x, items, tc, rfl, call, rfl, more⟩
        · rw [made] at first
          exfalso
          have mem : m ∈ [({ role := .tool, toolCallId := id, content := text } : ChatMessage)] := by
            rw [first]
            simp
          rw [List.mem_singleton.mp mem] at calls
          exact calls rfl
        · exact absurd (none_ m (by rw [first]; simp)) calls

theorem answered_messages
    (converted : responsesItemsToChat validJson (items.map some) = .ok messages)
    {calls : List String} (answered : Answered ItemView.answer calls items) :
    Answered WireMessage.answer calls (messages.map wireMessage) := by
  obtain ⟨block, rest, rfl, ids, answers, perm⟩ := answered
  obtain ⟨ms, ns, left, -, rfl⟩ := itemsToChat_append converted
  refine ⟨ms.map wireMessage, ns.map wireMessage, by rw [List.map_append], ids, ?_, perm⟩
  clear converted perm
  induction block generalizing ids ms with
  | nil =>
    cases left
    exact answers
  | cons x block ih =>
    obtain ⟨here, more, one, rest', rfl⟩ := itemsToChat_cons left
    cases ids with
    | nil => cases answers
    | cons id ids =>
      obtain ⟨answer, answers⟩ := List.cons.inj answers
      rcases itemToChat_spec one with ⟨tc, -, none_, -⟩ | ⟨-, id', text, is, rfl⟩ | ⟨-, none_, -⟩
      · rw [none_] at answer
        cases answer
      · cases is.symm.trans answer
        have later := ih ids answers _ rest'
        rw [List.singleton_append, List.map_cons, List.map_cons, later]
        rfl
      · rw [none_] at answer
        cases answer

theorem isChain_of_pairs {α : Type} {R : α → α → Prop} {xs : List α}
    (pairs : ∀ before a b after, xs = before ++ a :: b :: after → R a b) : xs.IsChain R := by
  induction xs with
  | nil => exact .nil
  | cons x xs ih =>
    cases xs with
    | nil => exact .singleton x
    | cons y xs =>
      apply List.IsChain.cons_cons (pairs [] x y xs rfl)
      apply ih
      intro before a b after split
      exact pairs (x :: before) a b after (by rw [split]; rfl)

/-- The answers reach the upstream right after each message with calls exactly when no two calls
stand next to each other. -/
theorem tool_pairing_iff {Value : Type} (validJson : String → Bool) (items : List ItemView) (call : Call Value)
    (payload : ChatPayload Value) (instructions messages : List ChatMessage)
    (paired : ItemsPaired items)
    (converted : responsesItemsToChat validJson (items.map some) = .ok messages)
    (request : call.request.messages = instructions ++ messages)
    (silent : ∀ m ∈ instructions, m.toolCalls = [])
    (built : buildPayload call = .ok payload) :
    MessagesPaired payload.messages ↔ LoneCalls items := by
  have sent : payload.messages = (instructions ++ messages).map wireMessage := by
    unfold buildPayload at built
    dsimp only at built
    split at built
    · cases built
    · cases built
      rw [request]
  constructor
  · intro answered
    apply isChain_of_pairs
    intro before a b after split
    by_contra adjacent
    obtain ⟨first, second⟩ := not_or.mp adjacent
    subst split
    obtain ⟨ms, here, rest, -, one, more, rfl⟩ := itemsToChat_split converted
    obtain ⟨next, ns, two, -, rfl⟩ := itemsToChat_cons more
    rcases itemToChat_spec one with ⟨tc, -, -, rfl⟩ | ⟨none_, -⟩ | ⟨none_, -⟩
    · rcases itemToChat_spec two with ⟨tc', -, -, rfl⟩ | ⟨none_, -⟩ | ⟨none_, -⟩
      · -- the message after the first call has calls of its own
        obtain ⟨block, others, eq, ids, answers, perm⟩ := answered
          ((instructions ++ ms).map wireMessage) (wireMessage { role := .assistant, toolCalls := [tc] })
          (wireMessage { role := .assistant, toolCalls := [tc'] } :: ns.map wireMessage)
          (by rw [sent]; simp) rfl (by simp [wireMessage])
        cases block with
        | nil =>
          cases ids with
          | nil => exact absurd perm.length_eq (by simp [wireMessage])
          | cons id ids => cases answers
        | cons m block =>
          obtain ⟨rfl, -⟩ := List.cons.inj eq
          cases ids with
          | nil => cases answers
          | cons id ids =>
            have impossible := (List.cons.inj answers).1
            simp [WireMessage.answer, wireMessage] at impossible
      · exact second none_
      · exact second none_
    · exact first none_
    · exact first none_
  · intro lone before m after split _ calls
    rw [sent, List.map_append] at split
    -- the instructions have no calls
    obtain ⟨others, second⟩ : ∃ others, messages.map wireMessage = others ++ m :: after := by
      rcases List.append_eq_append_iff.mp split with ⟨others, -, second⟩ | ⟨others, first, second⟩
      · exact ⟨others, second⟩
      · cases others with
        | nil => exact ⟨[], second.symm⟩
        | cons o others =>
          obtain ⟨rfl, -⟩ := List.cons.inj second
          have mem : m ∈ instructions.map wireMessage := by rw [first]; simp
          obtain ⟨m', inside, rfl⟩ := List.mem_map.mp mem
          exact absurd (silent m' inside) calls
    obtain ⟨ms, tail, rfl, -, tails⟩ := List.map_eq_append_iff.mp second
    obtain ⟨m, ns, rfl, rfl, rfl⟩ := List.map_eq_cons_iff.mp tails
    obtain ⟨front, it, rest, tc, rfl, called, rfl, more⟩ :=
      call_of_message converted rfl (by simpa [wireMessage] using calls)
    apply answered_messages more
    have alone : ∀ x ∈ front.getLast?, x.call = none := by
      intro x mem
      obtain ⟨start, rfl⟩ : ∃ start, front = start ++ [x] :=
        ⟨front.dropLast, (List.dropLast_append_getLast? x mem).symm⟩
      rw [List.append_assoc, List.singleton_append] at lone
      exact ((List.isChain_append_cons_cons.mp lone).2.1).resolve_right (by rw [called]; simp)
    have last : ∀ x ∈ rest.head?, x.call = none := by
      intro x mem
      cases rest with
      | nil => cases mem
      | cons y rest =>
        cases mem
        exact ((List.isChain_append_cons_cons.mp lone).2.1).resolve_left (by rw [called]; simp)
    exact paired front [it] [tc.id] rest (by simp) (by simp) (by simp [called]) alone last

end Messages

theorem itemsPaired_run (run : List ItemView) (ids : List String) {after : List ItemView}
    (calls : run.map ItemView.call = ids.map some) (others : ∀ it ∈ after, it.call = none)
    (answered : Answered ItemView.answer ids after) : ItemsPaired (run ++ after) := by
  have inside : ∀ it ∈ run, it.call ≠ none := by
    intro it mem
    have listed : it.call ∈ run.map ItemView.call := List.mem_map.mpr ⟨it, mem, rfl⟩
    rw [calls] at listed
    obtain ⟨id, -, is⟩ := List.mem_map.mp listed
    rw [← is]
    simp
  intro before run' ids' after' split nonempty calls' start stop
  have inside' : ∀ it ∈ run', it.call ≠ none := by
    intro it mem
    have listed : it.call ∈ run'.map ItemView.call := List.mem_map.mpr ⟨it, mem, rfl⟩
    rw [calls'] at listed
    obtain ⟨id, -, is⟩ := List.mem_map.mp listed
    rw [← is]
    simp
  rw [List.append_assoc] at split
  obtain ⟨x, rest, rfl⟩ := List.exists_cons_of_ne_nil nonempty
  -- the run starts at the first item
  obtain rfl : before = [] := by
    rcases List.append_eq_append_iff.mp split with ⟨others', rfl, second⟩ | ⟨others', rfl, second⟩
    · have mem : x ∈ after := by rw [second]; simp
      exact absurd (others x mem) (inside' x (by simp))
    · rcases List.eq_nil_or_concat before with rfl | ⟨front, last, rfl⟩
      · rfl
      · exact absurd (start last (by simp)) (inside last (by simp))
  rw [List.nil_append] at split
  obtain ⟨rfl, rfl⟩ : run = x :: rest ∧ after = after' := by
    rcases List.append_eq_append_iff.mp split with ⟨others', is, second⟩ | ⟨others', is, second⟩
    · cases others' with
      | nil => exact ⟨by simpa using is.symm, by simpa using second⟩
      | cons y others' =>
        have mem : y ∈ after := by rw [second]; simp
        exact absurd (others y mem) (inside' y (by rw [is]; simp))
    · cases others' with
      | nil => exact ⟨by simpa using is, by simpa using second.symm⟩
      | cons y others' =>
        exact absurd (stop y (by rw [second]; simp)) (inside y (by rw [is]; simp))
  have same : ids = ids' := List.map_inj_right (fun _ _ => Option.some.inj) |>.mp
    (calls.symm.trans calls')
  rw [← same]
  exact answered

def calling (id : String) : ItemView := { type := "function_call", callId := id, name := "f" }

def answering (id : String) : ItemView :=
  { type := "function_call_output", callId := id, output := .text "done" }

def requestOf (messages : List ChatMessage) : Call Unit :=
  { upstreamModel := "m", outputCap := 64, request := { messages := messages } }

def messageOf (it : ItemView) : ChatMessage :=
  if it.type = "function_call" then
    { role := .assistant, toolCalls := [⟨it.callId, it.name, "\x7b\x7d"⟩] }
  else { role := .tool, toolCallId := it.callId, content := "done" }

theorem tool_pairing_single :
    MessagesPaired ([calling "a", answering "a"].map (fun it => wireMessage (messageOf it))) :=
  (tool_pairing_iff (fun _ => true) [calling "a", answering "a"]
    (requestOf [messageOf (calling "a"), messageOf (answering "a")])
    ⟨"m", [calling "a", answering "a"].map (fun it => wireMessage (messageOf it)), false, 64, false, [],
      none, false, []⟩
    [] [messageOf (calling "a"), messageOf (answering "a")]
    (itemsPaired_run [calling "a"] ["a"] (by decide) (by decide)
      ⟨[answering "a"], [], rfl, ["a"], by decide, .refl _⟩)
    rfl rfl (by simp) rfl).mpr (by decide)

theorem parallel_calls_torn :
    ItemsPaired [calling "a", calling "b", answering "a", answering "b"] ∧
      responsesItemsToChat (fun _ => true)
          ([calling "a", calling "b", answering "a", answering "b"].map some) =
        .ok ([calling "a", calling "b", answering "a", answering "b"].map messageOf) ∧
      (buildPayload (requestOf
          ([calling "a", calling "b", answering "a", answering "b"].map messageOf))).map
          ChatPayload.messages =
        .ok ([calling "a", calling "b", answering "a", answering "b"].map
          (fun it => wireMessage (messageOf it))) ∧
      ¬ MessagesPaired ([calling "a", calling "b", answering "a", answering "b"].map
          (fun it => wireMessage (messageOf it))) := by
  refine ⟨?_, rfl, rfl, fun paired => ?_⟩
  · exact itemsPaired_run [calling "a", calling "b"] ["a", "b"] (by decide)
      (by decide) ⟨[answering "a", answering "b"], [], rfl, ["a", "b"], by decide, .refl _⟩
  · obtain ⟨block, rest, eq, ids, answers, perm⟩ := paired [] (wireMessage (messageOf (calling "a")))
      ([calling "b", answering "a", answering "b"].map (fun it => wireMessage (messageOf it)))
      rfl rfl (by decide)
    cases block with
    | nil =>
      cases ids with
      | nil => exact absurd perm.length_eq (by decide)
      | cons id ids => cases answers
    | cons m block =>
      obtain ⟨rfl, -⟩ := List.cons.inj eq
      cases ids with
      | nil => cases answers
      | cons id ids => exact absurd (List.cons.inj answers).1 (by simp [WireMessage.answer,
          wireMessage, messageOf, calling])

end YunhouUsers.Inference.Providers.Replay
