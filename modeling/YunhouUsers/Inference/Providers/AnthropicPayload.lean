import Mathlib.Data.List.Chain
import YunhouUsers.Inference.Domain

/-!
The Messages request built from a chat request (`AnthropicMessages.BuildPayload` of
`providers/anthropic.go`, with `AnthropicUserBlocks` of `model/chat.go`).

JSON values that the translation only passes on are left abstract, and what `json.Unmarshal` makes
of the raw parts of a request is part of the request.
-/

namespace YunhouUsers.Inference.Providers.Anthropic

inductive ChatRole where
  | system
  | user
  | assistant
  | tool
  | other (name : String)
deriving DecidableEq

inductive ContentPart where
  | text (text : String)
  | imageUrl (url : Option String)
  | other (type : String)
deriving DecidableEq

structure ToolCall where
  id : String
  name : String
  arguments : String
deriving DecidableEq

/-- With content parts, `content` holds the text parts joined. -/
structure ChatMessage where
  role : ChatRole
  content : String := ""
  contentParts : Option (List ContentPart) := none
  toolCalls : List ToolCall := []
  toolCallId : String := ""
deriving DecidableEq

inductive ImageSource where
  | base64 (mediaType data : String)
  | url (url : String)
deriving DecidableEq

inductive BlockType where
  | text
  | image
  | toolUse
  | toolResult
deriving DecidableEq

/-- A content block; the input of a tool use without arguments is the empty object. -/
inductive Block (Value : Type) where
  | text (text : String)
  | image (source : ImageSource)
  | toolUse (id name : String) (input : Option Value)
  | toolResult (toolUseId content : String)
deriving DecidableEq

inductive TurnRole where
  | user
  | assistant
deriving DecidableEq

structure Turn (Value : Type) where
  role : TurnRole
  content : List (Block Value)
deriving DecidableEq

def cutAt (sep : List Char) : List Char → Option (List Char × List Char)
  | [] => none
  | c :: rest =>
    if sep.isPrefixOf (c :: rest) then some ([], (c :: rest).drop sep.length)
    else (cutAt sep rest).map (fun cut => (c :: cut.1, cut.2))

def parseDataImageURI (u : String) : Option (String × String) :=
  if "data:".toList.isPrefixOf u.toList then
    match cutAt ";base64,".toList (u.toList.drop 5) with
    | some (mediaType, data) =>
      if mediaType = [] then none else some (String.ofList mediaType, String.ofList data)
    | none => none
  else none

def anthropicImageSource (u : String) : ImageSource :=
  match parseDataImageURI u with
  | some (mediaType, data) =>
    .base64 (if mediaType = "image/jpg" then "image/jpeg" else mediaType) data
  | none => .url u

/-- What `json.Unmarshal` makes of a tool: its own fields, and those of a `function` in it. -/
structure ToolFields (Value : Type) where
  name : String := ""
  description : Option Value := none
  parameters : Option Value := none
  inputSchema : Option Value := none

structure ToolObject (Value : Type) where
  fields : ToolFields Value
  function : Option (ToolFields Value) := none

/-- Without a schema a tool takes an object without properties. -/
structure ToolEntry (Value : Type) where
  name : String
  description : Option Value
  inputSchema : Option Value

inductive RawToolChoice where
  | text (text : String)
  | object (type functionName : String)
  | malformed
deriving DecidableEq

structure AnthropicToolChoice where
  type : String
  name : Option String := none
  disableParallelToolUse : Bool := false
deriving DecidableEq

inductive PassedValue (Value : Type) where
  | flag (b : Bool)
  | other (v : Value)

structure ChatRequest (Value : Type) where
  messages : List ChatMessage
  stream : Bool := false
  /-- `none` does not decode to an object -/
  tools : List (Option (ToolObject Value)) := []
  toolChoice : Option RawToolChoice := none
  thinkingEnabled : Option Bool := none
  thinkingBudget : Option Int := none
  /-- in the order of the iteration over the map -/
  passthrough : List (String × PassedValue Value) := []

structure Call (Value : Type) where
  upstreamModel : String
  outputCap : Int
  request : ChatRequest Value

structure AnthropicPayload (Value : Type) where
  model : String
  maxTokens : Int
  stream : Bool
  messages : List (Turn Value)
  system : Option String
  tools : List (ToolEntry Value)
  toolChoice : Option AnthropicToolChoice
  thinking : Option Int
  sampling : List (String × PassedValue Value) := []

variable {Value : Type}

def Block.kind : Block Value → BlockType
  | .text _ => .text
  | .image _ => .image
  | .toolUse _ _ _ => .toolUse
  | .toolResult _ _ => .toolResult

variable (m : ChatMessage)

def anthropicUserBlocks : List (Block Value) :=
  match m.contentParts with
  | none => [.text m.content]
  | some parts => parts.filterMap fun
    | .text text => some (.text text)
    | .imageUrl (some url) => some (.image (anthropicImageSource url))
    | _ => none

section Messages

-- The decoded arguments of a tool call, unless they are no JSON or `null`.
variable (decodeArguments : String → Option Value)

def assistantBlocks (m : ChatMessage) : List (Block Value) :=
  (if m.content ≠ "" then [.text m.content] else []) ++
    m.toolCalls.map fun tc => .toolUse tc.id tc.name (decodeArguments tc.arguments)

def insertResult (block : Block Value) (content : List (Block Value)) : List (Block Value) :=
  content.takeWhile (·.kind = .toolResult) ++
    block :: content.dropWhile (·.kind = .toolResult)

/-- Roles alternate: the last turn takes the blocks if it has the role. -/
def mergeInto (role : TurnRole) (merge : List (Block Value) → List (Block Value))
    (msgs : List (Turn Value)) : List (Turn Value) :=
  match msgs.getLast? with
  | some last =>
    if last.role = role then msgs.dropLast ++ [⟨role, merge last.content⟩]
    else msgs ++ [⟨role, merge []⟩]
  | none => msgs ++ [⟨role, merge []⟩]

structure Translated (Value : Type) where
  systemParts : List String := []
  msgs : List (Turn Value) := []

def translateMessage (t : Translated Value) (m : ChatMessage) : Except Err (Translated Value) :=
  match m.role with
  | .system =>
    .ok (if m.content ≠ "" then { t with systemParts := t.systemParts ++ [m.content] } else t)
  | .user => .ok { t with msgs := mergeInto .user (· ++ anthropicUserBlocks m) t.msgs }
  | .assistant =>
    let blocks := assistantBlocks decodeArguments m
    .ok (if blocks.isEmpty then t
      else { t with msgs := mergeInto .assistant (· ++ blocks) t.msgs })
  | .tool =>
    .ok { t with msgs := mergeInto .user (insertResult (.toolResult m.toolCallId m.content)) t.msgs }
  | .other name =>
    .error (.domain .invalidInput
      ("providers: unsupported role \"" ++ name ++ "\" for anthropic translation"))

end Messages

def translateAnthropicTool (tool : Option (ToolObject Value)) : Except Err (ToolEntry Value) :=
  match tool with
  | none => .error (.domain .invalidInput "providers: decode tool")
  | some tool =>
    let fn := tool.function.getD tool.fields
    if fn.name = "" then
      .error (.domain .invalidInput
        "providers: tool without a name cannot be translated to anthropic")
    else .ok ⟨fn.name, fn.description, fn.inputSchema.or fn.parameters⟩

def translateAnthropicTools (tools : List (Option (ToolObject Value))) :
    Except Err (List (ToolEntry Value)) :=
  tools.mapM translateAnthropicTool

def translateAnthropicToolChoice : RawToolChoice → Except Err AnthropicToolChoice
  | .text text =>
    if text = "auto" ∨ text = "none" then .ok { type := text }
    else if text = "required" then .ok { type := "any" }
    else .error (.domain .invalidInput ("providers: unsupported tool_choice " ++ text))
  | .object type functionName =>
    if type = "function" ∧ functionName ≠ "" then
      .ok { type := "tool", name := some functionName }
    else .error (.domain .invalidInput "providers: unsupported tool_choice shape for anthropic")
  | .malformed => .error (.domain .invalidInput "providers: decode tool_choice")

def anthropicThinkingBudget : Int := 4096
def anthropicMinThinkingBudget : Int := 1024

/-- The budget is lowered to fit below `max_tokens`, which is never raised. -/
def thinkingBudgetFor (maxTokens : Int) (enabled : Option Bool) (requested : Option Int) :
    Except Err (Option Int) :=
  if enabled = some true then
    let budget := match requested with
      | some b => if 0 < b then b else anthropicThinkingBudget
      | none => anthropicThinkingBudget
    if maxTokens ≤ anthropicMinThinkingBudget + 1 then
      .error (.domain .invalidInput ("providers: anthropic thinking requires max_tokens > 1025 " ++
        "(budget floor 1024); raise max_tokens or disable thinking"))
    else .ok (some (if maxTokens - 1 < budget then maxTokens - 1 else budget))
  else .ok none

def passParameter (p : AnthropicPayload Value) (parameter : String × PassedValue Value) :
    Except Err (AnthropicPayload Value) :=
  let (key, value) := parameter
  if key = "temperature" ∨ key = "top_p" ∨ key = "top_k" then
    .ok { p with sampling := p.sampling ++ [(key, value)] }
  else if key = "stop" then .ok { p with sampling := p.sampling ++ [("stop_sequences", value)] }
  else if key = "parallel_tool_calls" then
    match value with
    | .flag true => .ok p
    | _ =>
      let choice := p.toolChoice.getD { type := "auto" }
      .ok { p with toolChoice := some { choice with disableParallelToolUse := true } }
  else
    .error (.domain .invalidInput
      ("providers: parameter " ++ key ++ " is not supported by the anthropic protocol"))

def buildPayload (decodeArguments : String → Option Value) (call : Call Value) :
    Except Err (AnthropicPayload Value) := do
  let r := call.request
  if call.outputCap ≤ 0 then
    throw (.domain .invalidInput
      "providers: anthropic dispatch requires a positive output cap (不允许无限输出)")
  let t ← r.messages.foldlM (translateMessage decodeArguments) {}
  match t.msgs.head? with
  | none =>
    throw (.domain .invalidInput "providers: anthropic translation: no non-system messages")
  | some first =>
    if first.role ≠ .user then
      throw (.domain .invalidInput
        "providers: anthropic translation: first non-system message must be a user turn")
  let tools ← translateAnthropicTools r.tools
  let toolChoice ← r.toolChoice.mapM translateAnthropicToolChoice
  let thinking ← thinkingBudgetFor call.outputCap r.thinkingEnabled r.thinkingBudget
  let payload : AnthropicPayload Value :=
    { model := call.upstreamModel, maxTokens := call.outputCap, stream := r.stream
      messages := t.msgs
      system := if t.systemParts.isEmpty then none else some ("\n\n".intercalate t.systemParts)
      tools, toolChoice, thinking }
  r.passthrough.foldlM passParameter payload

/-! What the turns hold. -/

def messageBlocks (decodeArguments : String → Option Value) (m : ChatMessage) :
    List (Block Value) :=
  match m.role with
  | .user => anthropicUserBlocks m
  | .assistant => assistantBlocks decodeArguments m
  | .tool => [.toolResult m.toolCallId m.content]
  | _ => []

def systemTexts : List String :=
  if m.role = .system ∧ m.content ≠ "" then [m.content] else []

def ofType (k : BlockType) (blocks : List (Block Value)) : List (Block Value) :=
  blocks.filter (·.kind = k)

def ResultsLead (content : List (Block Value)) : Prop :=
  ∃ results others, content = results ++ others ∧
    (∀ b ∈ results, b.kind = .toolResult) ∧ ∀ b ∈ others, b.kind ≠ .toolResult

structure Holds (turns : List (Turn Value)) (blocks : List (Block Value)) : Prop where
  alternate : turns.IsChain (fun a b => a.role ≠ b.role)
  lead : ∀ t ∈ turns, t.role = .user → ResultsLead t.content
  blocks : ∀ k, ofType k (turns.flatMap (·.content)) = ofType k blocks

theorem ofType_append (k : BlockType) (xs ys : List (Block Value)) :
    ofType k (xs ++ ys) = ofType k xs ++ ofType k ys := List.filter_append ..

structure Adds (role : TurnRole) (merge : List (Block Value) → List (Block Value))
    (blocks : List (Block Value)) : Prop where
  lead : ∀ content, role = .user → ResultsLead content → ResultsLead (merge content)
  blocks : ∀ content, (role = .user → ResultsLead content) →
    ∀ k, ofType k (merge content) = ofType k content ++ ofType k blocks

theorem ResultsLead.nil : ResultsLead ([] : List (Block Value)) := ⟨[], [], rfl, by simp, by simp⟩

variable {blocks : List (Block Value)}

theorem Holds.merge {turns : List (Turn Value)} {new : List (Block Value)}
    (holds : Holds turns blocks) {role : TurnRole}
    {merge : List (Block Value) → List (Block Value)} (adds : Adds role merge new) :
    Holds (mergeInto role merge turns) (blocks ++ new) := by
  have fresh (other : ∀ t ∈ turns.getLast?, t.role ≠ role) :
      Holds (turns ++ [⟨role, merge []⟩]) (blocks ++ new) := by
    refine ⟨?_, ?_, ?_⟩
    · rw [List.isChain_append]
      refine ⟨holds.alternate, List.isChain_singleton _, ?_⟩
      rintro t last _ ⟨⟩
      exact other t last
    · intro t mem user
      rcases List.mem_append.mp mem with mem | mem
      · exact holds.lead t mem user
      · rw [List.mem_singleton] at mem
        subst mem
        exact adds.lead [] user ResultsLead.nil
    · intro k
      have added := adds.blocks [] (fun _ => ResultsLead.nil) k
      rw [List.flatMap_append, List.flatMap_singleton, ofType_append, ofType_append,
        holds.blocks k, added]
      rfl
  unfold mergeInto
  rcases List.eq_nil_or_concat turns with rfl | ⟨init, last, rfl⟩
  · exact fresh (by simp)
  · rw [List.concat_eq_append] at holds fresh ⊢
    rw [List.getLast?_concat] at fresh ⊢
    rw [List.dropLast_concat]
    dsimp only
    by_cases same : last.role = role
    · rw [if_pos same]
      obtain ⟨alternate, lead, inside⟩ := holds
      refine ⟨?_, ?_, ?_⟩
      · rw [List.isChain_append] at alternate ⊢
        refine ⟨alternate.1, List.isChain_singleton _, ?_⟩
        rintro t mem _ ⟨⟩
        rw [← same]
        exact alternate.2.2 t mem last rfl
      · intro t mem user
        rcases List.mem_append.mp mem with mem | mem
        · exact lead t (List.mem_append_left _ mem) user
        · rw [List.mem_singleton] at mem
          subst mem
          exact adds.lead _ user (lead last (by simp) (same.trans user))
      · intro k
        have before := inside k
        have added := adds.blocks last.content
          (fun user => lead last (by simp) (same.trans user)) k
        simp only [List.flatMap_append, List.flatMap_singleton, ofType_append] at before ⊢
        rw [added, ← List.append_assoc, before]
    · rw [if_neg same]
      exact fresh (by simpa using same)

theorem userBlocks_kind :
    ∀ b ∈ (anthropicUserBlocks m : List (Block Value)), b.kind ≠ .toolResult := by
  intro b mem
  unfold anthropicUserBlocks at mem
  split at mem
  · rw [List.mem_singleton] at mem
    subst mem
    nofun
  · obtain ⟨part, -, is⟩ := List.mem_filterMap.mp mem
    split at is <;> cases is <;> nofun

theorem adds_user :
    Adds .user (fun content => content ++ (anthropicUserBlocks m : List (Block Value)))
      (anthropicUserBlocks m) := by
  refine ⟨?_, fun content _ k => ofType_append k content _⟩
  rintro content - ⟨results, others, rfl, lead, rest⟩
  refine ⟨results, others ++ anthropicUserBlocks m, by simp, lead, ?_⟩
  intro b mem
  rcases List.mem_append.mp mem with mem | mem
  · exact rest b mem
  · exact userBlocks_kind m b mem

theorem adds_assistant (blocks : List (Block Value)) :
    Adds .assistant (fun content => content ++ blocks) blocks :=
  ⟨nofun, fun content _ k => ofType_append k content _⟩

theorem insertResult_eq {results others : List (Block Value)}
    (lead : ∀ b ∈ results, b.kind = .toolResult) (rest : ∀ b ∈ others, b.kind ≠ .toolResult)
    (block : Block Value) :
    insertResult block (results ++ others) = results ++ block :: others := by
  unfold insertResult
  rw [List.takeWhile_append_of_pos (by simpa using lead),
    List.dropWhile_append_of_pos (by simpa using lead)]
  cases others with
  | nil => simp
  | cons b others => simp [rest b List.mem_cons_self]

theorem adds_result (toolUseId content : String) :
    Adds .user (insertResult (.toolResult toolUseId content : Block Value))
      [.toolResult toolUseId content] := by
  constructor
  · rintro _ - ⟨results, others, rfl, lead, rest⟩
    rw [insertResult_eq lead rest]
    refine ⟨results ++ [.toolResult toolUseId content], others, by simp, ?_, rest⟩
    intro b mem
    rcases List.mem_append.mp mem with mem | mem
    · exact lead b mem
    · rw [List.mem_singleton.mp mem]
      rfl
  · intro before led k
    obtain ⟨results, others, rfl, lead, rest⟩ := led rfl
    rw [insertResult_eq lead rest, ← List.singleton_append]
    simp only [ofType_append, List.append_assoc]
    congr 1
    -- either the kind does not occur behind the results, or the new block is not of the kind
    by_cases result : k = .toolResult
    · have none_ : ofType k others = [] := by
        rw [ofType, List.filter_eq_nil_iff]
        intro b mem
        simpa [result] using rest b mem
      rw [none_, List.append_nil, List.nil_append]
    · have none_ : ofType k [(.toolResult toolUseId content : Block Value)] = [] := by
        simp [ofType, Block.kind, Ne.symm result]
      rw [none_, List.append_nil, List.nil_append]

variable {decodeArguments : String → Option Value}

theorem translateMessage_holds {t t' : Translated Value} {m : ChatMessage}
    (ok : translateMessage decodeArguments t m = .ok t') (holds : Holds t.msgs blocks) :
    Holds t'.msgs (blocks ++ messageBlocks decodeArguments m) ∧
      t'.systemParts = t.systemParts ++ systemTexts m := by
  unfold translateMessage at ok
  unfold messageBlocks systemTexts
  cases role : m.role with
  | system =>
    simp only [role, Except.ok.injEq] at ok ⊢
    subst ok
    by_cases empty : m.content = ""
    · exact ⟨by simpa [empty] using holds, by simp [empty]⟩
    · exact ⟨by simpa [empty] using holds, by simp [empty]⟩
  | user =>
    simp only [role, Except.ok.injEq] at ok ⊢
    subst ok
    exact ⟨holds.merge (adds_user m), by simp⟩
  | assistant =>
    simp only [role, Except.ok.injEq] at ok ⊢
    subst ok
    by_cases empty : assistantBlocks decodeArguments m = []
    · exact ⟨by simpa [empty] using holds, by simp [empty]⟩
    · rw [if_neg (by simpa using empty)]
      exact ⟨holds.merge (adds_assistant _), by simp⟩
  | tool =>
    simp only [role, Except.ok.injEq] at ok ⊢
    subst ok
    exact ⟨holds.merge (adds_result _ _), by simp⟩
  | other name => simp [role] at ok

theorem translateMessages_holds {messages : List ChatMessage} {t t' : Translated Value}
    (ok : messages.foldlM (translateMessage decodeArguments) t = .ok t')
    (holds : Holds t.msgs blocks) :
    Holds t'.msgs (blocks ++ messages.flatMap (messageBlocks decodeArguments)) ∧
      t'.systemParts = t.systemParts ++ messages.flatMap systemTexts := by
  induction messages generalizing t blocks with
  | nil =>
    cases ok
    exact ⟨by simpa using holds, by simp⟩
  | cons m messages ih =>
    rw [List.foldlM_cons] at ok
    cases first : translateMessage decodeArguments t m with
    | error e => simp [first, bind, Except.bind] at ok
    | ok next =>
      simp only [first, bind, Except.bind] at ok
      obtain ⟨held, system⟩ := translateMessage_holds first holds
      obtain ⟨held', system'⟩ := ih ok held
      rw [List.flatMap_cons, List.flatMap_cons, ← List.append_assoc, ← List.append_assoc, ← system]
      exact ⟨held', system'⟩

theorem thinkingBudgetFor_bounds {maxTokens budget : Int} {enabled : Option Bool}
    {requested : Option Int}
    (ok : thinkingBudgetFor maxTokens enabled requested = .ok (some budget)) :
    budget < maxTokens ∧ ((∀ b, requested = some b → 0 < b → 1024 ≤ b) → 1024 ≤ budget) := by
  unfold thinkingBudgetFor anthropicMinThinkingBudget anthropicThinkingBudget at ok
  split_ifs at ok
  · simp only [Except.ok.injEq, Option.some.injEq] at ok
    cases requested with
    | none =>
      dsimp only at ok
      exact ⟨by omega, fun _ => by omega⟩
    | some b =>
      dsimp only at ok
      refine ⟨by split_ifs at ok <;> omega, fun floor => ?_⟩
      have := floor b rfl
      split_ifs at ok <;> omega
  · cases ok

theorem thinkingBudgetFor_isSome {maxTokens : Int} {enabled : Option Bool}
    {requested thinking : Option Int}
    (ok : thinkingBudgetFor maxTokens enabled requested = .ok thinking) :
    thinking.isSome = true ↔ enabled = some true := by
  unfold thinkingBudgetFor at ok
  dsimp only at ok
  split_ifs at ok with on
  · cases ok
    simp [on]
  · cases ok
    simp [on]
  · cases ok
    simp [on]

variable {p : AnthropicPayload Value}

theorem passParameters_keep {parameters : List (String × PassedValue Value)}
    {p' : AnthropicPayload Value} (ok : parameters.foldlM passParameter p = .ok p') :
    p'.messages = p.messages ∧ p'.system = p.system ∧ p'.thinking = p.thinking ∧
      p'.maxTokens = p.maxTokens := by
  induction parameters generalizing p with
  | nil =>
    cases ok
    exact ⟨rfl, rfl, rfl, rfl⟩
  | cons parameter parameters ih =>
    rw [List.foldlM_cons] at ok
    cases first : passParameter p parameter with
    | error e => simp [first, bind, Except.bind] at ok
    | ok next =>
      simp only [first, bind, Except.bind] at ok
      have kept : next.messages = p.messages ∧ next.system = p.system ∧
          next.thinking = p.thinking ∧ next.maxTokens = p.maxTokens := by
        obtain ⟨key, value⟩ := parameter
        unfold passParameter at first
        dsimp only at first
        split_ifs at first
        · cases first
          exact ⟨rfl, rfl, rfl, rfl⟩
        · cases first
          exact ⟨rfl, rfl, rfl, rfl⟩
        · split at first <;> cases first <;> exact ⟨rfl, rfl, rfl, rfl⟩
      obtain ⟨messages, system, thinking, maxTokens⟩ := ih ok
      exact ⟨messages.trans kept.1, system.trans kept.2.1, thinking.trans kept.2.2.1,
        maxTokens.trans kept.2.2.2⟩

theorem buildPayload_parts {call : Call Value} (ok : buildPayload decodeArguments call = .ok p) :
    ∃ t : Translated Value,
      call.request.messages.foldlM (translateMessage decodeArguments) {} = .ok t ∧
      p.messages = t.msgs ∧ t.msgs.head?.map (·.role) = some .user ∧
      p.system =
        (if t.systemParts.isEmpty then none else some ("\n\n".intercalate t.systemParts)) ∧
      p.maxTokens = call.outputCap ∧
      thinkingBudgetFor call.outputCap call.request.thinkingEnabled call.request.thinkingBudget =
        .ok p.thinking := by
  unfold buildPayload at ok
  simp only [bind, Except.bind, throw, throwThe, MonadExceptOf.throw] at ok
  split at ok
  · cases ok
  · split at ok
    · cases ok
    · rename_i t translated
      cases first : t.msgs.head? with
      | none => simp [first] at ok
      | some turn =>
        simp only [first] at ok
        by_cases user : turn.role = .user
        · simp only [user, ne_eq, not_true, if_false] at ok
          split at ok
          · cases ok
          · split at ok
            · cases ok
            · split at ok
              · cases ok
              · rename_i thinking budget
                obtain ⟨messages, system, kept, maxTokens⟩ := passParameters_keep ok
                refine ⟨t, translated, messages, ?_, system, maxTokens, ?_⟩
                · rw [first, Option.map_some, user]
                · rw [budget, kept]
        · simp [user] at ok

/-- The turns of a payload alternate from a user turn on, results lead the user turns, every block
of the messages is there once and in the order of its kind, and the thinking budget fits. -/
theorem buildPayload_structure (decodeArguments : String → Option Value) (call : Call Value)
    (p : AnthropicPayload Value) (ok : buildPayload decodeArguments call = .ok p) :
    p.messages.head?.map (·.role) = some .user ∧
      p.messages.IsChain (fun a b => a.role ≠ b.role) ∧
      (∀ t ∈ p.messages, t.role = .user → ResultsLead t.content) ∧
      (∀ k, ofType k (p.messages.flatMap (·.content)) =
        ofType k (call.request.messages.flatMap (messageBlocks decodeArguments))) ∧
      p.system.getD "" = "\n\n".intercalate (call.request.messages.flatMap systemTexts) ∧
      (p.thinking.isSome = true ↔ call.request.thinkingEnabled = some true) ∧
      ∀ budget, p.thinking = some budget → budget < p.maxTokens ∧
        ((∀ b, call.request.thinkingBudget = some b → 0 < b → 1024 ≤ b) → 1024 ≤ budget) := by
  obtain ⟨t, translated, messages, first, system, maxTokens, thinking⟩ := buildPayload_parts ok
  have empty : Holds ([] : List (Turn Value)) [] := ⟨List.isChain_nil, by simp, fun _ => rfl⟩
  obtain ⟨holds, texts⟩ := translateMessages_holds translated empty
  rw [List.nil_append] at holds texts
  rw [messages]
  refine ⟨first, holds.alternate, holds.lead, holds.blocks, ?_, ?_, ?_⟩
  · rw [system, texts]
    cases call.request.messages.flatMap systemTexts with
    | nil => rfl
    | cons text rest => rfl
  · exact thinkingBudgetFor_isSome thinking
  · intro budget is
    rw [is] at thinking
    rw [maxTokens]
    exact thinkingBudgetFor_bounds thinking

def toolRoundTrip : Call String :=
  { upstreamModel := "m"
    outputCap := 4096
    request :=
      { messages :=
          [{ role := .system, content := "be brief" }, { role := .user, content := "6 times 7?" },
            { role := .assistant, toolCalls := [⟨"c1", "mul", "\x7b\x7d"⟩, ⟨"c2", "mul", "\x7b\x7d"⟩] },
            { role := .user, content := "well?" },
            { role := .tool, toolCallId := "c1", content := "42" },
            { role := .tool, toolCallId := "c2", content := "43" }]
        thinkingEnabled := some true
        thinkingBudget := some 2048 } }

theorem buildPayload_toolRoundTrip :
    ∃ p, buildPayload some toolRoundTrip = .ok p ∧
      p.messages.map (·.role) = [.user, .assistant, .user] ∧
      (∀ t ∈ p.messages, t.role = .user → ResultsLead t.content) ∧
      ofType .toolResult (p.messages.flatMap (·.content)) =
        [.toolResult "c1" "42", .toolResult "c2" "43"] ∧
      ∀ budget, p.thinking = some budget → budget < p.maxTokens ∧ 1024 ≤ budget := by
  refine ⟨_, rfl, by decide, ?_⟩
  obtain ⟨-, -, lead, blocks, -, -, budgets⟩ := buildPayload_structure some toolRoundTrip _ rfl
  refine ⟨lead, (blocks .toolResult).trans (by decide), fun budget is => ?_⟩
  obtain ⟨below, floor⟩ := budgets budget is
  refine ⟨below, floor ?_⟩
  rintro b ⟨⟩ -
  decide

/-- A budget below the floor is sent as it is, arguments that are no JSON are sent as the empty
object, and the image of an assistant is not sent. -/
theorem buildPayload_unchecked_input :
    let call (messages : List ChatMessage) : Call String :=
      ⟨"m", 2048, { messages, thinkingEnabled := some true, thinkingBudget := some 5 }⟩
    let asked : ChatMessage := { role := .user, content := "x" }
    let cutOff : ChatMessage := { role := .assistant, toolCalls := [⟨"c", "f", "\x7b"⟩] }
    let picture : ChatMessage :=
      { role := .assistant, contentParts := some [.imageUrl (some "i")] }
    ∃ p, buildPayload (fun _ => none) (call [asked, cutOff, picture]) = .ok p ∧
      p.thinking = some 5 ∧
      p.messages.map (·.content) = [[.text "x"], [.toolUse "c" "f" none]] :=
  ⟨_, rfl, rfl, rfl⟩

end YunhouUsers.Inference.Providers.Anthropic
