import Mathlib.Data.Nat.Digits.Defs
import YunhouUsers.Inference.Providers.AnthropicMetering
import YunhouUsers.Inference.Providers.ResponsesCompletion
import YunhouUsers.Inference.Providers.ResponsesUpstream
import YunhouUsers.Inference.Providers.Segmentation

/-!
From an upstream Responses stream to a Responses client: how the end of the stream is told.
-/

namespace YunhouUsers.Inference.Providers

open Accounting Transducer

/-! ### What the pump decodes from a written chunk -/

def Json.string : Json → Option String
  | .str s => some s
  | _ => none

def toolCallOf (v : Json) : ToolCallDelta :=
  let function := v.member "function"
  { index := ((v.member "index").bind Json.int).getD 0
    id := ((v.member "id").map Json.text).getD ""
    name := ((function.bind (Json.member "name")).map Json.text).getD ""
    arguments := ((function.bind (Json.member "arguments")).map Json.text).getD "" }

def choiceOf (v : Json) : Choice :=
  let delta := v.member "delta"
  { content := (deltaOf v).content
    reasoningContent := (deltaOf v).reasoningContent
    toolCalls := (((delta.bind (Json.member "tool_calls")).map Json.items).getD []).map toolCallOf
    finishReason := (v.member "finish_reason").bind Json.string }

def streamChunkOf (v : Json) : OpenAIStreamChunk :=
  { choices := (((v.member "choices").map Json.items).getD []).map choiceOf
    usage := (v.member "usage").map usageOf
    error := (v.member "error").map (fun e => ((e.member "message").map Json.text).getD "")
    errorCode := (((v.member "error").bind (Json.member "code")).map Json.text).getD "" }

/-- `json.Unmarshal` reads back what `json.Marshal` wrote of the frame. -/
def Frame.Decodes (unmarshal : Bytes → Option OpenAIStreamChunk) : Frame → Prop
  | .chunk members => unmarshal (Json.marshal (.obj members)) = some (streamChunkOf (.obj members))
  | .done => True

instance (unmarshal : Bytes → Option OpenAIStreamChunk) : (f : Frame) → Decidable (f.Decodes unmarshal)
  | .chunk _ => inferInstanceAs (Decidable (_ = _))
  | .done => .isTrue trivial

theorem streamChunkOf_finish {finish : String} (nonempty : finish ≠ "") :
    openAIChunk [] finish = .chunk
        [("choices", .arr [.obj [("delta", .obj []), ("finish_reason", .str finish),
          ("index", .num 0)]]), ("object", .str "chat.completion.chunk")] ∧
      streamChunkOf (.obj
        [("choices", .arr [.obj [("delta", .obj []), ("finish_reason", .str finish),
          ("index", .num 0)]]), ("object", .str "chat.completion.chunk")]) =
        { choices := [{ finishReason := some finish }] } := by
  constructor
  · rw [openAIChunk, if_neg nonempty]
  · rfl

theorem streamChunkOf_usage (b : UsageBuckets) :
    streamChunkOf (.obj [("choices", .arr []), ("object", .str "chat.completion.chunk"),
      ("usage", .obj (usageMembers b))]) = { usage := some (usageOf (.obj (usageMembers b))) } := rfl

/-! ### What the pump hears of the frames -/

def Frame.Heard : Frame → Option PumpEvent → Prop
  | .chunk members, e => e ≠ some .done ∧
    ((Frame.chunk members).line.length ≤ trackLineCap →
      e = some (.chunk (streamChunkOf (.obj members))))
  | .done, e => e = some .done

section Hearing

variable {unmarshal : Bytes → Option OpenAIStreamChunk}

theorem scanLine_ne_done {line : Bytes} (brace : line.getLast? = some 125) :
    scanLine unmarshal line ≠ some .done := by
  intro is
  unfold scanLine at is
  split at is
  · rename_i data
    obtain ⟨payload, rfl⟩ := List.isPrefixOf_iff_prefix.mp data
    have other : trimSpace ((ascii "data:" ++ payload).drop 5) ≠ ascii "[DONE]" := by
      rw [List.drop_left' (by decide)]
      rcases List.eq_nil_or_concat payload with rfl | ⟨front, last, rfl⟩
      · exact absurd brace (by decide)
      · rw [List.concat_eq_append, ← List.append_assoc, List.getLast?_concat,
          Option.some.injEq] at brace
        rw [List.concat_eq_append, brace, Json.trimSpace_brace]
        intro same
        have last := congrArg List.getLast? same
        rw [List.getLast?_concat] at last
        exact absurd last (by decide)
    dsimp only at is
    rw [if_neg other] at is
    split at is
    · obtain ⟨_, -, impossible⟩ := Option.map_eq_some_iff.mp is
      cases impossible
    · cases is
  · cases is

theorem chunk_line_brace (members : List (String × Json)) :
    (Frame.chunk members).line.getLast? = some 125 := by
  have marshalled : Json.marshal (.obj members) =
      123 :: Json.commas (Json.marshalMembers members) ++ [125] := by
    rw [Json.marshal]
  rw [Frame.line, marshalled, ← List.append_assoc, List.getLast?_concat]

theorem scan_heard {l : CutLine} {f : Frame} (bytes : l.bytes = f.line)
    (decodes : f.Decodes unmarshal) : f.Heard (l.scan unmarshal) := by
  cases f with
  | done =>
    have whole : l.rest = some Frame.done.line := by
      rw [← bytes]
      exact CutLine.rest_of_whole (by rw [CutLine.whole, bytes]; decide)
    show l.scan unmarshal = some .done
    rw [CutLine.scan, whole, Option.bind_some]
    simp only [scanLine, show (ascii "data:").isPrefixOf Frame.done.line = true by decide,
      show trimSpace (Frame.done.line.drop 5) = ascii "[DONE]" by decide, if_true]
  | chunk members =>
    obtain ⟨data, payload⟩ := payload_chunk members
    have brace := chunk_line_brace members
    constructor
    · rcases l.rest_cases with ⟨-, whole⟩ | ⟨-, nothing | ⟨tail, exposed, k, far, inside, rfl, -⟩⟩
      · rw [CutLine.scan, whole, Option.bind_some, bytes]
        exact scanLine_ne_done brace
      · rw [CutLine.scan, nothing]
        exact fun is => by cases is
      · rw [CutLine.scan, exposed, Option.bind_some, bytes]
        by_cases all : (Frame.chunk members).line.length ≤ k
        · rw [List.drop_eq_nil_of_le all]
          exact fun is => by cases is
        · apply scanLine_ne_done
          rw [List.getLast?_drop, if_neg all, brace]
    · intro short
      rw [CutLine.scan, CutLine.rest_of_whole (by simpa [CutLine.whole, bytes] using short),
        Option.bind_some, bytes]
      have other : Json.marshal (.obj members) ≠ ascii "[DONE]" := by
        intro same
        have head := Json.head_obj members
        rw [same] at head
        exact absurd head (by decide)
      have decoded : unmarshal (Json.marshal (.obj members)) = some (streamChunkOf (.obj members)) :=
        decodes
      simp [scanLine, data, payload, if_neg other, Json.head_obj, decoded]

theorem pump_heard {frames : List Frame} {reads : List Bytes}
    (same : reads.flatten = frames.flatMap Frame.bytes)
    (decodes : ∀ f ∈ frames, f.Decodes unmarshal) :
    ∃ events, List.Forall₂ Frame.Heard frames events ∧
      pump unmarshal [] reads = events.filterMap id := by
  rw [← encodeLines_frames] at same
  have free : ∀ l ∈ frames.flatMap (fun f => [f.line, []]), newline ∉ l := by
    intro l mem
    obtain ⟨f, -, mem⟩ := List.mem_flatMap.mp mem
    rcases List.mem_cons.mp mem with rfl | mem
    · exact f.newline_line
    · rw [List.mem_singleton.mp mem]
      exact List.not_mem_nil
  have lines := cutLines_bytes free same
  rw [pump_eq]
  generalize cutLines [] reads = cut at lines
  clear same free
  -- each frame is a line and a blank one
  induction frames generalizing cut with
  | nil =>
    rw [List.map_eq_nil_iff.mp lines]
    exact ⟨[], .nil, rfl⟩
  | cons f frames ih =>
    obtain ⟨first, rest⟩ := List.forall_mem_cons.mp decodes
    obtain ⟨l, cut, rfl, line, lines⟩ := List.map_eq_cons_iff.mp lines
    obtain ⟨blank, cut, rfl, empty, lines⟩ := List.map_eq_cons_iff.mp lines
    obtain ⟨events, heard, out⟩ := ih rest cut lines
    have silent : blank.scan unmarshal = none := by
      rw [CutLine.scan, CutLine.rest_of_whole (by rw [CutLine.whole, empty]; decide),
        Option.bind_some, empty]
      rfl
    refine ⟨l.scan unmarshal :: events, .cons (scan_heard line first) heard, ?_⟩
    rw [List.filterMap_cons, List.filterMap_cons, silent, out]
    cases l.scan unmarshal <;> rfl

end Hearing

/-! ### Short frames -/

theorem length_number {n : Int} (bound : n.natAbs < 10 ^ 20) : (Json.number n).length ≤ 21 := by
  have digits : (Json.digits n.natAbs).length ≤ 20 := by
    rw [Json.digits, List.length_map]
    exact Nat.toDigits_length 10 n.natAbs 20 (by decide) bound
  unfold Json.number
  split
  · rw [List.length_cons]
    omega
  · omega

theorem natAbs_toInt (n : Int64) : n.toInt.natAbs < 10 ^ 20 := by
  have low := n.le_toInt
  have high := n.toInt_lt
  omega

theorem length_commas (parts : List Bytes) :
    (Json.commas parts).length ≤ (parts.map (fun part => part.length + 1)).sum := by
  induction parts with
  | nil => exact Nat.zero_le _
  | cons part parts ih =>
    cases parts with
    | nil =>
      simp only [Json.commas, List.map_cons, List.map_nil, List.sum_cons, List.sum_nil]
      omega
    | cons next parts =>
      rw [Json.commas, List.length_append, List.length_cons, List.map_cons, List.sum_cons]
      · omega
      · simp

def room (members : List (String × Json)) : Nat :=
  (members.map (fun m => (Json.quote m.1).length + 2 + (Json.marshal m.2).length)).sum

theorem room_append (members members' : List (String × Json)) :
    room (members ++ members') = room members + room members' := by
  simp [room]

theorem length_obj (members : List (String × Json)) :
    (Json.marshal (.obj members)).length ≤ room members + 2 := by
  have parts := length_commas (Json.marshalMembers members)
  rw [Json.marshalMembers_eq, List.map_map] at parts
  rw [Json.marshal, List.length_append, List.length_cons, List.length_singleton,
    Json.marshalMembers_eq]
  have same : (members.map ((fun part : Bytes => part.length + 1) ∘
      fun m => Json.quote m.1 ++ 58 :: Json.marshal m.2)).sum = room members := by
    rw [room]
    congr 1
    apply List.map_congr_left
    intro m _
    simp only [Function.comp_apply, List.length_append, List.length_cons]
    omega
  omega

theorem room_optional (key : String) (n : Option Int64) :
    room (optionalMember key (n.map Int64.toInt)) ≤ (Json.quote key).length + 23 := by
  cases n with
  | none => exact Nat.zero_le _
  | some n =>
    have number := length_number (natAbs_toInt n)
    simp only [Option.map_some, optionalMember, room, List.map_cons, List.map_nil, List.sum_cons,
      List.sum_nil, Json.marshal]
    omega

theorem room_single (key : String) (value : Json) :
    room [(key, value)] = (Json.quote key).length + 2 + (Json.marshal value).length := by
  simp [room]

theorem room_usage (u : ResponsesUsage) : room (usageMembers u.usageBuckets) ≤ 400 := by
  have quotes : (Json.quote "cache_creation_input_tokens").length = 29 ∧
      (Json.quote "completion_tokens").length = 19 ∧
      (Json.quote "completion_tokens_details").length = 27 ∧
      (Json.quote "reasoning_tokens").length = 18 ∧ (Json.quote "prompt_tokens").length = 15 ∧
      (Json.quote "prompt_tokens_details").length = 23 ∧ (Json.quote "cached_tokens").length = 15 ∧
      (Json.quote "total_tokens").length = 14 := by decide
  obtain ⟨-, output, details, reasoning, input, prompts, cached, total⟩ := quotes
  unfold usageMembers
  simp only [room_append]
  apply Nat.le_trans (m := 0 + 42 + 80 + 38 + 80 + 40) _ (by decide)
  gcongr
  · exact Nat.le_refl 0
  · have bound := room_optional "completion_tokens" u.outputTokens
    rw [output] at bound
    exact bound
  · cases given : u.reasoningTokens with
    | none => simp [ResponsesUsage.usageBuckets, given, room]
    | some n =>
      have number := length_number (natAbs_toInt n)
      have inner := length_obj [("reasoning_tokens", Json.num n.toInt)]
      rw [room_single, Json.marshal] at inner
      simp only [ResponsesUsage.usageBuckets, given, Option.map_some]
      rw [room_single]
      omega
  · have bound := room_optional "prompt_tokens" u.inputTokens
    rw [input] at bound
    exact bound
  · have inner := length_obj (optionalMember "cached_tokens" (u.cachedTokens.map Int64.toInt))
    have bound := room_optional "cached_tokens" u.cachedTokens
    split
    · rw [room_single]
      simp only [ResponsesUsage.usageBuckets]
      omega
    · exact Nat.zero_le _
  · have low := Int.le_bmod (x := u.usageBuckets.inputTokens.getD 0 +
      u.usageBuckets.outputTokens.getD 0) (m := 2 ^ 64) (by decide)
    have high := Int.bmod_lt (x := u.usageBuckets.inputTokens.getD 0 +
      u.usageBuckets.outputTokens.getD 0) (m := 2 ^ 64) (by decide)
    have number := length_number (n := (u.usageBuckets.inputTokens.getD 0 +
      u.usageBuckets.outputTokens.getD 0).bmod (2 ^ 64)) (by omega)
    rw [room_single, Json.marshal]
    omega

theorem usage_short (u : ResponsesUsage) :
    (openAIUsageFrame u.usageBuckets).line.length ≤ trackLineCap := by
  have inner := length_obj (usageMembers u.usageBuckets)
  have bound := room_usage u
  have whole := length_obj [("choices", Json.arr []), ("object", .str "chat.completion.chunk"),
    ("usage", .obj (usageMembers u.usageBuckets))]
  have parts : room [("choices", Json.arr []), ("object", .str "chat.completion.chunk"),
      ("usage", .obj (usageMembers u.usageBuckets))] =
      55 + (Json.marshal (.obj (usageMembers u.usageBuckets))).length := by
    have fixed : room [("choices", Json.arr []), ("object", .str "chat.completion.chunk")] = 46 := by
      decide
    have key : (Json.quote "usage").length = 7 := by decide
    have split : [("choices", Json.arr []), ("object", .str "chat.completion.chunk"),
        ("usage", .obj (usageMembers u.usageBuckets))] =
        [("choices", Json.arr []), ("object", .str "chat.completion.chunk")] ++
          [("usage", .obj (usageMembers u.usageBuckets))] := rfl
    rw [split, room_append, room_single, fixed, key]
    omega
  have label : (ascii "data: ").length = 6 := by decide
  rw [openAIUsageFrame, Frame.line, List.length_append, label]
  show _ ≤ 65536
  omega

theorem finish_short (status reason : String) (calls : Bool) :
    (openAIChunk [] (responsesFinishReason status reason calls)).line.length ≤ trackLineCap ∧
      responsesFinishReason status reason calls ≠ "" := by
  unfold responsesFinishReason
  split_ifs <;> decide

/-! ### What the client is told -/

namespace Responses

def Frame.ending (f : Frame) : Option Status :=
  match f.event with
  | .completed _ => some .completed
  | .incomplete _ => some .incomplete
  | _ => none

def endings (out : List Frame) : List Status := out.filterMap Frame.ending

theorem endings_append (out out' : List Frame) : endings (out ++ out') = endings out ++ endings out' :=
  List.filterMap_append

theorem endings_of_marks {out : List Frame} (unmarked : ∀ f ∈ out, f.mark ≠ some .completed) :
    endings out = [] := by
  apply List.filterMap_eq_nil_iff.mpr
  rintro ⟨n, e⟩ mem
  have plain := unmarked _ mem
  cases e with
  | completed r => exact absurd rfl plain
  | incomplete r => exact absurd rfl plain
  | _ => rfl

theorem endings_chunk (c : OpenAIStreamChunk) (s : StreamState) :
    endings (render (.chunk c) s).2 = [] := by
  apply endings_of_marks
  intro f mem marked
  have listed : Mark.completed ∈ (render (.chunk c) s).2.filterMap Frame.mark :=
    List.mem_filterMap.mpr ⟨f, mem, marked⟩
  have marks : (render (.chunk c) s).2.filterMap Frame.mark = (PumpEvent.chunk c).mark.toList :=
    surface.marks (.chunk c) s
  rw [marks, Option.mem_toList] at listed
  unfold PumpEvent.mark at listed
  dsimp only at listed
  split at listed <;> cases listed

theorem closeTextualItem_finish : Keeps StreamState.finish closeTextualItem := by
  intro s
  cases isOpen : s.openKind with
  | none =>
    simp only [closeTextualItem, reading, isOpen]
    rfl
  | some kind =>
    simp only [closeTextualItem, reading, isOpen]
    cases kind <;> rfl

theorem closeToolItem_finish (key : Int) : Keeps StreamState.finish (closeToolItem key) := by
  intro s
  cases found : toolItem s key with
  | none =>
    simp only [closeToolItem, reading, found]
    rfl
  | some ti =>
    simp only [closeToolItem, reading, found]
    split <;> rfl

theorem closeOpenItem_finish : Keeps StreamState.finish closeOpenItem := by
  intro s
  apply Keeps.each
  rintro ⟨_, key⟩
  cases key with
  | none => exact closeTextualItem_finish
  | some key => exact closeToolItem_finish key

theorem ensureCreated_finish : Keeps StreamState.finish ensureCreated := by
  intro s
  unfold ensureCreated
  split <;> rfl

def told (finish : String) : Status := if finish = "length" then .incomplete else .completed

theorem ending_terminalEvent (n : Nat) (s : StreamState) :
    Frame.ending ⟨n, terminalEvent s⟩ = some (told s.finish) := by
  unfold terminalEvent told
  split <;> rfl

theorem endings_done (s : StreamState) : endings (render .done s).2 = [told s.finish] := by
  have written : (render .done s).2 =
      (ensureCreated s).2 ++ ((closeOpenItem (ensureCreated s).1).2 ++
        [⟨(closeOpenItem (ensureCreated s).1).1.seq + 1,
          terminalEvent (closeOpenItem (ensureCreated s).1).1⟩]) := rfl
  have first : endings (ensureCreated s).2 = [] := endings_of_marks fun f mem => by
    rw [ensureCreated_uneventful.writes s f mem]
    exact fun is => by cases is
  have second : endings (closeOpenItem (ensureCreated s).1).2 = [] :=
    endings_of_marks fun f mem => by
      rw [closeOpenItem_plain.uneventful.writes _ f mem]
      exact fun is => by cases is
  have same : (closeOpenItem (ensureCreated s).1).1.finish = s.finish :=
    (closeOpenItem_finish _).trans (ensureCreated_finish s)
  rw [written, endings_append, endings_append, first, second]
  simp [endings, ending_terminalEvent, same]

theorem endings_brokenEnd (s : StreamState) : endings (brokenEnd s).2 = [] := by
  apply endings_of_marks
  intro f mem
  unfold brokenEnd at mem
  split at mem
  · cases mem
  · rcases List.mem_append.mp mem with before | last
    · rw [ensureCreated_uneventful.writes s f before]
      exact fun is => by cases is
    · rw [List.mem_singleton.mp last]
      exact fun is => by cases is

theorem finish_of_chunk (finish : String) (nonempty : finish ≠ "") (s : StreamState) :
    (render (.chunk { choices := [{ finishReason := some finish }] }) s).1.finish = finish := by
  have choice : renderChoice { finishReason := some finish } = renderFinish finish := by
    simp [renderChoice, nonempty, each]
  show (renderChunk _ s).1.finish = finish
  simp only [renderChunk, each, seq_skip, choice]
  exact closeOpenItem_finish _

theorem finish_of_usage (usage : OpenAIUsage) (s : StreamState) :
    (render (.chunk { usage := some usage }) s).1.finish = s.finish := by
  show (renderChunk _ s).1.finish = s.finish
  simp only [renderChunk, each, seq_skip]
  exact ensureCreated_finish s

end Responses

section Composition

open Responses (endings told)

theorem forall₂_append {α β : Type} {R : α → β → Prop} {xs ys : List α} {zs : List β}
    (all : List.Forall₂ R (xs ++ ys) zs) :
    ∃ us vs, zs = us ++ vs ∧ List.Forall₂ R xs us ∧ List.Forall₂ R ys vs := by
  induction xs generalizing zs with
  | nil => exact ⟨[], zs, rfl, .nil, all⟩
  | cons x xs ih =>
    cases all with
    | cons first rest =>
      obtain ⟨us, vs, rfl, left, right⟩ := ih rest
      exact ⟨_ :: us, vs, rfl, .cons first left, right⟩

variable {events : List (Option PumpEvent)}

theorem endings_quiet {frames : List Frame}
    (heard : List.Forall₂ Frame.Heard frames events) (quiet : Frame.done ∉ frames)
    (s : Responses.StreamState) :
    endings (each Responses.render (events.filterMap id) s).2 = [] := by
  induction heard generalizing s with
  | nil => rfl
  | @cons f e frames events first _ ih =>
    obtain ⟨other, rest⟩ := not_or.mp (List.mem_cons.not.mp quiet)
    cases f with
    | done => exact absurd rfl other
    | chunk members =>
      cases e with
      | none => exact ih rest s
      | some e =>
        cases e with
        | done => exact absurd rfl first.1
        | chunk c =>
          show endings ((Responses.render (.chunk c) s).2 ++ _) = []
          rw [Responses.endings_append, Responses.endings_chunk, ih rest]
          rfl

theorem endings_terminal {status reason : String} {calls : Bool} {usage : List Frame}
    (heard : List.Forall₂ Frame.Heard
      (openAIChunk [] (responsesFinishReason status reason calls) :: (usage ++ [.done])) events)
    (usages : usage = [] ∨ ∃ u : ResponsesUsage, usage = [openAIUsageFrame u.usageBuckets])
    (s : Responses.StreamState) :
    endings (each Responses.render (events.filterMap id) s).2 =
      [told (responsesFinishReason status reason calls)] := by
  obtain ⟨short, nonempty⟩ := finish_short status reason calls
  obtain ⟨shape, decoded⟩ := streamChunkOf_finish nonempty
  rw [shape] at heard short
  obtain ⟨e, rest, first, others, rfl⟩ := List.forall₂_cons_left_iff.mp heard
  obtain ⟨middle, last, rfl, usual, ended⟩ := forall₂_append others
  obtain ⟨_, _, rfl, nothing, rfl⟩ := List.forall₂_cons_left_iff.mp ended
  obtain rfl := List.forall₂_nil_left_iff.mp nothing
  rw [first.2 short, decoded]
  -- the usage chunk leaves the finish reason
  have kept (s : Responses.StreamState) :
      (each Responses.render (middle.filterMap id) s).1.finish = s.finish := by
    rcases usages with rfl | ⟨u, rfl⟩
    · obtain rfl := List.forall₂_nil_left_iff.mp usual
      rfl
    · obtain ⟨e, _, first, nothing, rfl⟩ := List.forall₂_cons_left_iff.mp usual
      obtain rfl := List.forall₂_nil_left_iff.mp nothing
      rw [first.2 (usage_short u), streamChunkOf_usage]
      exact Responses.finish_of_usage _ s
  have silent (s : Responses.StreamState) :
      endings (each Responses.render (middle.filterMap id) s).2 = [] := by
    apply endings_quiet usual
    rcases usages with rfl | ⟨u, rfl⟩
    · exact List.not_mem_nil
    · exact fun mem => by cases List.mem_singleton.mp mem
  rw [List.filterMap_cons_some (f := id) rfl, List.filterMap_append, each_cons, each_append, seq, seq,
    Responses.endings_append, Responses.endings_append, Responses.endings_chunk, silent]
  show [] ++ ([] ++ endings ((Responses.render .done _).2 ++ [])) = _
  rw [List.append_nil, Responses.endings_done, kept, Responses.finish_of_chunk _ nonempty]
  rfl

/-! ### The composition -/

namespace ResponsesStreamEvent

variable (ev : ResponsesStreamEvent)

def terminal : Bool := ev.type = .completed || ev.type = .incomplete

def rendered : Responses.Status :=
  if ev.status = "incomplete" ∧ ev.incompleteReason = "max_output_tokens" then .incomplete
  else .completed

theorem told_rendered (calls : Bool) :
    told (responsesFinishReason ev.status ev.incompleteReason calls) = ev.rendered := by
  unfold responsesFinishReason rendered
  by_cases status : ev.status = "incomplete"
  · by_cases reason : ev.incompleteReason = "max_output_tokens"
    · simp [status, reason, told]
    · simp only [status, reason, if_true, if_false, and_false]
      split_ifs <;> decide
  · simp only [status, if_false, false_and]
    split_ifs <;> decide

end ResponsesStreamEvent

def ResponsesTranslator.Reported (t : ResponsesTranslator) : Prop :=
  ∃ u : ResponsesUsage, t.tap.buckets = u.usageBuckets

variable {t : ResponsesTranslator}

theorem ResponsesTranslator.Reported.record (reported : t.Reported)
    (usage : Option ResponsesUsage) : (t.recordUsage usage).Reported := by
  cases usage with
  | none => exact reported
  | some u => exact ⟨u, rfl⟩

theorem ResponsesTranslator.Reported.usageFrames (reported : t.Reported) :
    t.usageFrames = [] ∨ ∃ u : ResponsesUsage, t.usageFrames = [openAIUsageFrame u.usageBuckets] := by
  obtain ⟨u, is⟩ := reported
  unfold ResponsesTranslator.usageFrames
  split
  · exact .inr ⟨u, by rw [is]⟩
  · exact .inl rfl

variable (ev : ResponsesStreamEvent)

theorem translateResponsesEvent_spec (reported : t.Reported) :
    (translateResponsesEvent ev t).1.Reported ∧
      if ev.terminal then
        ∃ calls usage, (translateResponsesEvent ev t).2 =
            openAIChunk [] (responsesFinishReason ev.status ev.incompleteReason calls) ::
              (usage ++ [.done]) ∧
          (usage = [] ∨ ∃ u : ResponsesUsage, usage = [openAIUsageFrame u.usageBuckets])
      else Frame.done ∉ (translateResponsesEvent ev t).2 := by
  have ended (h : ev.type = .completed ∨ ev.type = .incomplete) :
      translateResponsesEvent ev t =
        (t.markTerminal.recordUsage ev.usage,
          openAIChunk [] (responsesFinishReason ev.status ev.incompleteReason
            (!(t.markTerminal.recordUsage ev.usage).toolCalls.isEmpty || ev.outputCalls)) ::
            ((t.markTerminal.recordUsage ev.usage).usageFrames ++ [.done])) := by
    unfold translateResponsesEvent
    rcases h with is | is <;> rw [is]
  have text (key text : String) : (textFragment key text t).1.Reported ∧
      Frame.done ∉ (textFragment key text t).2 := by
    unfold textFragment
    split
    · exact ⟨reported, fun mem => by cases List.mem_singleton.mp mem⟩
    · exact ⟨reported, List.not_mem_nil⟩
  by_cases terminal : ev.terminal = true
  · rw [if_pos terminal, ended (by simpa [ResponsesStreamEvent.terminal] using terminal)]
    have recorded : (t.markTerminal.recordUsage ev.usage).Reported :=
      ResponsesTranslator.Reported.record (t := t.markTerminal) reported ev.usage
    exact ⟨recorded, _, _, rfl, recorded.usageFrames⟩
  · rw [if_neg terminal]
    unfold translateResponsesEvent
    split
    · exact ⟨reported, fun mem => by cases List.mem_singleton.mp mem⟩
    · split
      · split
        · exact ⟨reported, fun mem => by cases List.mem_singleton.mp mem⟩
        · exact ⟨reported, List.not_mem_nil⟩
      · exact ⟨reported, List.not_mem_nil⟩
    · exact text "content" ev.delta
    · exact text "reasoning_content" ev.delta
    · exact text "reasoning_content" ev.delta
    · split
      · exact ⟨reported, fun mem => by cases List.mem_singleton.mp mem⟩
      · exact ⟨reported, List.not_mem_nil⟩
    · rename_i is
      exact absurd (by simp [ResponsesStreamEvent.terminal, is]) terminal
    · rename_i is
      exact absurd (by simp [ResponsesStreamEvent.terminal, is]) terminal
    · exact ⟨reported.record ev.usage, fun mem => by cases List.mem_singleton.mp mem⟩
    · exact ⟨reported, fun mem => by cases List.mem_singleton.mp mem⟩
    · exact ⟨reported, List.not_mem_nil⟩

theorem endings_events {upstream : List ResponsesStreamEvent}
    (reported : t.Reported) {more : List Frame}
    (heard : List.Forall₂ Frame.Heard ((each translateResponsesEvent upstream t).2 ++ more) events)
    (quiet : Frame.done ∉ more) (s : Responses.StreamState) :
    endings (each Responses.render (events.filterMap id) s).2 =
      (upstream.filter ResponsesStreamEvent.terminal).map ResponsesStreamEvent.rendered := by
  induction upstream generalizing t events s with
  | nil => exact endings_quiet heard quiet s
  | cons ev upstream ih =>
    obtain ⟨reported', wrote⟩ := translateResponsesEvent_spec ev reported
    rw [each_cons, seq, List.append_assoc] at heard
    obtain ⟨first, rest, rfl, heard, later⟩ := forall₂_append heard
    rw [List.filterMap_append, each_append, seq, Responses.endings_append, ih reported' later,
      List.filter_cons]
    cases terminal : ev.terminal with
    | true =>
      rw [terminal, if_pos rfl] at wrote
      obtain ⟨calls, usage, frames, usages⟩ := wrote
      rw [frames] at heard
      rw [endings_terminal heard usages, if_pos rfl, ev.told_rendered calls]
      rfl
    | false =>
      rw [terminal, if_neg Bool.false_ne_true] at wrote
      rw [endings_quiet heard wrote, if_neg Bool.false_ne_true]
      rfl

/-- The client hears of a completion only from a completed response, and of every truncation. -/
def ToldHonestly (told : Responses.Status) : Prop :=
  (told = .completed → ev.type = .completed ∧
    (ev.response = none ∨ ∃ r, ev.response = some r ∧ (r.status = "" ∨ r.status = "completed"))) ∧
  (ev.type = .incomplete → told = .incomplete)

/-- A completed response that says so or says nothing, or a truncation by the output cap. -/
def Unambiguous : Prop :=
  (ev.type = .completed ∧ ev.status = "completed") ∨
    (ev.status = "incomplete" ∧ ev.incompleteReason = "max_output_tokens")

theorem toldHonestly_iff : ToldHonestly ev ev.rendered ↔ Unambiguous ev := by
  have absent : ev.type = .completed →
      (ev.status = "completed" ↔ ev.response = none ∨
        ∃ r, ev.response = some r ∧ (r.status = "" ∨ r.status = "completed")) := by
    intro completed
    have ofType : ResponsesStreamEvent.status.ofType ev = "completed" := by
      simp [ResponsesStreamEvent.status.ofType, completed]
    unfold ResponsesStreamEvent.status
    rw [ofType]
    cases ev.response with
    | none => simp
    | some r =>
      by_cases empty : r.status = ""
      · simp [empty]
      · simp [empty]
  unfold ToldHonestly Unambiguous ResponsesStreamEvent.rendered
  by_cases cut : ev.status = "incomplete" ∧ ev.incompleteReason = "max_output_tokens"
  · rw [if_pos cut]
    exact iff_of_true ⟨nofun, fun _ => rfl⟩ (.inr cut)
  · rw [if_neg cut]
    constructor
    · rintro ⟨completed, -⟩
      obtain ⟨type, said⟩ := completed rfl
      exact .inl ⟨type, (absent type).mpr said⟩
    · rintro (⟨type, status⟩ | truncated)
      · refine ⟨fun _ => ⟨type, (absent type).mp status⟩, fun incomplete => ?_⟩
        rw [type] at incomplete
        cases incomplete
      · exact absurd truncated cut

/-- The client is told each end of the upstream as it was, exactly when no terminal event is
incomplete for another reason than the output cap or of another status. -/
theorem truncation_told_iff (unmarshalEvent : Bytes → Option ResponsesStreamEvent)
    (unmarshal : Bytes → Option OpenAIStreamChunk) (body : Bytes) (reads : List Bytes)
    (responseId model : String) (createdAt : Int) (cacheReadInInput : Bool)
    (newPublicId : String → Nat → String)
    (same : reads.flatten = (translateResponsesEvents unmarshalEvent body).2.flatMap Frame.bytes)
    (decodes : ∀ f ∈ (translateResponsesEvents unmarshalEvent body).2, f.Decodes unmarshal) :
    List.Forall₂ ToldHonestly
        ((receivedResponses unmarshalEvent body).filter ResponsesStreamEvent.terminal)
        (endings (Responses.translateOpenAIToResponsesStream unmarshal reads responseId model
          createdAt cacheReadInInput newPublicId).2) ↔
      ∀ ev ∈ receivedResponses unmarshalEvent body, ev.terminal = true → Unambiguous ev := by
  obtain ⟨events, heard, out⟩ := pump_heard same decodes
  have fresh : ({} : ResponsesTranslator).Reported := ⟨{}, rfl⟩
  -- what the stream leaves to be flushed has no end marker
  have flush (t : ResponsesTranslator) : Frame.done ∉ (finishResponsesStream t).2 := by
    intro mem
    unfold finishResponsesStream ResponsesTranslator.usageFrames at mem
    split at mem
    · cases mem
    · split at mem
      · cases List.mem_singleton.mp mem
      · cases mem
  have told : endings (Responses.translateOpenAIToResponsesStream unmarshal reads responseId model
      createdAt cacheReadInInput newPublicId).2 =
      ((receivedResponses unmarshalEvent body).filter ResponsesStreamEvent.terminal).map
        ResponsesStreamEvent.rendered := by
    rw [Responses.translateOpenAIToResponsesStream, translateStream, seq, Responses.endings_append,
      out]
    have first := endings_events fresh heard (flush _)
      { responseId, model, createdAt, cacheReadInInput, newPublicId }
    rw [show Responses.responsesStreamRenderer.render = Responses.render from rfl, first]
    split
    · exact List.append_nil _
    · rw [show Responses.responsesStreamRenderer.brokenEnd = Responses.brokenEnd from rfl,
        Responses.endings_brokenEnd, List.append_nil]
  rw [told, List.forall₂_map_right_iff, List.forall₂_same]
  simp [toldHonestly_iff]

def incompleteFor (reason : String) : ResponsesStreamEvent :=
  { type := .incomplete
    response := some { status := "incomplete", incompleteReason := some reason } }

/-- Events of one letter: a text delta, and two ways to be incomplete. -/
def letterResponsesEvent : Bytes → Option ResponsesStreamEvent
  | [116] => some { type := .outputTextDelta, delta := "half" }
  | [109] => some (incompleteFor "max_output_tokens")
  | [102] => some (incompleteFor "content_filter")
  | _ => none

def chunkAmong (frames : List Frame) (b : Bytes) : Option OpenAIStreamChunk :=
  frames.findSome? fun
    | .chunk members =>
      if Json.marshal (.obj members) = b then some (streamChunkOf (.obj members)) else none
    | .done => none

def relayed (body : Bytes) : List Responses.Frame :=
  let frames := (translateResponsesEvents letterResponsesEvent body).2
  (Responses.translateOpenAIToResponsesStream (chunkAmong frames) [frames.flatMap Frame.bytes] "resp_1"
    "m" 0 false numbered).2

theorem truncation_told_at_cap :
    List.Forall₂ ToldHonestly
      ((receivedResponses letterResponsesEvent (ascii "data: t\ndata: m\n")).filter
        ResponsesStreamEvent.terminal)
      (endings (relayed (ascii "data: t\ndata: m\n"))) := by
  apply (truncation_told_iff letterResponsesEvent _ (ascii "data: t\ndata: m\n") _ "resp_1" "m" 0
    false numbered List.flatten_singleton (by decide +kernel)).mpr
  have events : receivedResponses letterResponsesEvent (ascii "data: t\ndata: m\n") =
      [{ type := .outputTextDelta, delta := "half" }, incompleteFor "max_output_tokens"] := by
    decide +kernel
  rw [events]
  intro ev mem _
  rcases List.mem_cons.mp mem with rfl | mem
  · contradiction
  · rw [List.mem_singleton.mp mem]
    exact .inr ⟨rfl, rfl⟩

/-- An answer that the filter cut off is announced as completed. -/
theorem filtered_told_completed :
    ¬ List.Forall₂ ToldHonestly
        ((receivedResponses letterResponsesEvent (ascii "data: t\ndata: f\n")).filter
          ResponsesStreamEvent.terminal)
        (endings (relayed (ascii "data: t\ndata: f\n"))) ∧
      endings (relayed (ascii "data: t\ndata: f\n")) = [.completed] := by
  have told : endings (relayed (ascii "data: t\ndata: f\n")) = [.completed] := by decide +kernel
  have events : (receivedResponses letterResponsesEvent (ascii "data: t\ndata: f\n")).filter
      ResponsesStreamEvent.terminal = [incompleteFor "content_filter"] := by
    decide +kernel
  refine ⟨fun honest => ?_, told⟩
  rw [told, events] at honest
  cases honest with
  | cons first _ => exact absurd (first.2 rfl) (by decide)

end Composition

end YunhouUsers.Inference.Providers
