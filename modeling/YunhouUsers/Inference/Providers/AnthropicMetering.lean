import YunhouUsers.Inference.Providers.AnthropicStream

/-!
The tracker, fed the translated bytes, meters what the translator's own tap meters.
-/

namespace YunhouUsers.Inference.Providers

open Accounting Transducer

/-! What the tracker decodes from a written chunk. -/

def usageOf (u : Json) : OpenAIUsage :=
  { promptTokens := (u.member "prompt_tokens").bind Json.int
    completionTokens := (u.member "completion_tokens").bind Json.int
    cachedTokens := ((u.member "prompt_tokens_details").bind (Json.member "cached_tokens")).bind
      Json.int
    cacheCreationTokens := (u.member "cache_creation_input_tokens").bind Json.int
    reasoningTokens :=
      ((u.member "completion_tokens_details").bind (Json.member "reasoning_tokens")).bind
        Json.int }

def deltaOf (choice : Json) : TrackedDelta :=
  let delta := choice.member "delta"
  { content := ((delta.bind (Json.member "content")).map Json.text).getD ""
    reasoningContent := ((delta.bind (Json.member "reasoning_content")).map Json.text).getD "" }

def trackedOf (v : Json) : TrackedChunk :=
  { choices := (((v.member "choices").map Json.items).getD []).map deltaOf
    usage := (v.member "usage").map usageOf }

variable {members : List (String × Json)}

/-- `json.Unmarshal` reads back what `json.Marshal` wrote of the frame. -/
def Frame.ReadBack (decode : Bytes → Option TrackedChunk) : Frame → Prop
  | .chunk members => decode (Json.marshal (.obj members)) = some (trackedOf (.obj members))
  | .done => True

section Reading

variable {decode : Bytes → Option TrackedChunk}

theorem ends_done : ends Frame.done.line = true := by decide

theorem tracked_done : tracked decode Frame.done.line = none := by
  have other : (trimSpace (Frame.done.line.drop 5)).head? ≠ some 123 := by decide
  simp [tracked, other]

theorem payload_chunk (members : List (String × Json)) :
    (ascii "data:").isPrefixOf (Frame.chunk members).line = true ∧
      trimSpace ((Frame.chunk members).line.drop 5) = Json.marshal (.obj members) := by
  have line : (Frame.chunk members).line =
      ascii "data:" ++ (32 :: Json.marshal (.obj members)) := by
    rw [Frame.line, show ascii "data: " = ascii "data:" ++ [32] by decide, List.append_assoc]
    rfl
  constructor
  · rw [line]
    simp
  · rw [line, List.drop_left' (by decide), Json.trimSpace_obj]

theorem ends_chunk (members : List (String × Json)) :
    ends (Frame.chunk members).line = false := by
  obtain ⟨-, payload⟩ := payload_chunk members
  have other : Json.marshal (.obj members) ≠ ascii "[DONE]" := by
    intro same
    have head := Json.head_obj members
    rw [same] at head
    exact absurd head (by decide)
  simp [ends, payload, other]

theorem tracked_chunk (readBack : (Frame.chunk members).ReadBack decode) :
    tracked decode (Frame.chunk members).line =
      if wanted (Frame.chunk members).line then some (trackedOf (.obj members)) else none := by
  obtain ⟨data, payload⟩ := payload_chunk members
  simp only [tracked, data, payload, Json.head_obj, decide_true, Bool.true_and]
  rw [show decode (Json.marshal (.obj members)) = some (trackedOf (.obj members)) from readBack]

/-- A chunk that the cheap tests pass over has nothing to meter. -/
def Seen (members : List (String × Json)) : Prop :=
  wanted (Frame.chunk members).line = true ∨
    (∀ d ∈ (trackedOf (.obj members)).choices, d.bytes = 0) ∧
      (trackedOf (.obj members)).usage = none

theorem served_chunk (seen : Seen members) (readBack : (Frame.chunk members).ReadBack decode) :
    served decode (Frame.chunk members).line =
      ((trackedOf (.obj members)).choices.map TrackedDelta.bytes).sum := by
  unfold served
  rw [tracked_chunk readBack]
  rcases seen with wanted | ⟨silent, -⟩
  · rw [if_pos wanted]
  · split_ifs
    · rfl
    · symm
      apply List.sum_eq_zero
      simpa using silent

theorem reported_chunk (seen : Seen members) (readBack : (Frame.chunk members).ReadBack decode) :
    reported decode (Frame.chunk members).line =
      (trackedOf (.obj members)).usage.map OpenAIUsage.buckets := by
  unfold reported
  rw [tracked_chunk readBack]
  rcases seen with wanted | ⟨-, silent⟩
  · rw [if_pos wanted]
    rfl
  · split_ifs
    · rfl
    · rw [silent]
      rfl

end Reading

variable {decode : Bytes → Option TrackedChunk}

/-! What a frame adds, before it is bytes. -/

namespace Frame

def contentBytes : Frame → Nat
  | .chunk members => ((trackedOf (.obj members)).choices.map TrackedDelta.bytes).sum
  | .done => 0

def usage : Frame → Option UsageBuckets
  | .chunk members => (trackedOf (.obj members)).usage.map OpenAIUsage.buckets
  | .done => none

def isDone : Frame → Bool
  | .chunk _ => false
  | .done => true

def Sound : Frame → Prop
  | .chunk members => Seen members
  | .done => True

theorem line_figures {f : Frame} (sound : f.Sound) (readBack : f.ReadBack decode) :
    ends f.line = f.isDone ∧ served decode f.line = f.contentBytes ∧
      reported decode f.line = f.usage := by
  cases f with
  | chunk members =>
    exact ⟨ends_chunk members, served_chunk sound readBack, reported_chunk sound readBack⟩
  | done =>
    refine ⟨ends_done, ?_, ?_⟩
    · rw [served, tracked_done]
      rfl
    · rw [reported, tracked_done]
      rfl

theorem newline_line (f : Frame) : newline ∉ f.line := by
  cases f with
  | chunk members =>
    simp only [line, List.mem_append, not_or]
    exact ⟨by decide, Json.newline_marshal _⟩
  | done => decide

end Frame

def frameUsage (frames : List Frame) : Option UsageBuckets :=
  frames.foldl (fun usage f => f.usage.or usage) none

variable {frames : List Frame}

theorem frames_figures (sound : ∀ f ∈ frames, f.Sound) (readBack : ∀ f ∈ frames, f.ReadBack decode)
    (usage : Option UsageBuckets) :
    (frames.map Frame.line).any ends = frames.any Frame.isDone ∧
      ((frames.map Frame.line).map (served decode)).sum = (frames.map Frame.contentBytes).sum ∧
      lastUsage decode usage (frames.map Frame.line) =
        frames.foldl (fun usage f => f.usage.or usage) usage := by
  induction frames generalizing usage with
  | nil => exact ⟨rfl, rfl, rfl⟩
  | cons f frames ih =>
    obtain ⟨soundF, sound'⟩ := List.forall_mem_cons.mp sound
    obtain ⟨readF, read'⟩ := List.forall_mem_cons.mp readBack
    obtain ⟨marks, bytes, reports⟩ := f.line_figures soundF readF
    obtain ⟨marks', bytes', reports'⟩ := ih sound' read' (f.usage.or usage)
    simp only [List.map_cons, List.any_cons, List.sum_cons, List.foldl_cons, lastUsage_cons]
    rw [marks, marks', bytes, bytes', reports, reports']
    exact ⟨rfl, rfl, rfl⟩

structure Agrees (t : Translator) (frames : List Frame) : Prop where
  sound : ∀ f ∈ frames, f.Sound
  clean : t.tap.Clean
  terminal : frames.any Frame.isDone = t.tap.terminal
  bytes : (frames.map Frame.contentBytes).sum = t.tap.contentBytes
  usage : frameUsage frames = t.tap.usage

variable {t : Translator}

theorem Agrees.figures (agrees : Agrees t frames) (readBack : ∀ f ∈ frames, f.ReadBack decode) :
    (meter decode {} (frames.map Frame.line)).figures = t.tap.figures := by
  obtain ⟨marks, bytes, usage⟩ := frames_figures agrees.sound readBack none
  obtain ⟨terminal', bytes', usage', clean'⟩ := meter_figures decode {} (frames.map Frame.line)
  rw [TapResult.figures_eq_iff (clean' fun _ => rfl) agrees.clean, terminal', bytes', usage', marks,
    bytes, ← agrees.terminal, ← agrees.bytes, ← agrees.usage]
  exact ⟨usage, Bool.false_or _, Nat.zero_add _⟩

/-! The chunks of the translator. -/

def deltaText (key : String) (delta : List (String × Json)) : String :=
  (((Json.obj delta).member key).map Json.text).getD ""

theorem trackedOf_delta (delta : List (String × Json)) (finish : Json) :
    trackedOf (.obj [("choices", .arr [.obj [("delta", .obj delta), ("finish_reason", finish),
      ("index", .num 0)]]), ("object", .str "chat.completion.chunk")]) =
      ⟨[⟨deltaText "content" delta, deltaText "reasoning_content" delta⟩], none⟩ := by
  simp [trackedOf, Json.member, Json.items, deltaOf, deltaText]

theorem usageOf_members (b : UsageBuckets) : (usageOf (.obj (usageMembers b))).buckets = b := by
  obtain ⟨input, read, write, output, reasoning⟩ := b
  cases input <;> cases read <;> cases write <;> cases output <;> cases reasoning <;> rfl

theorem wanted_of_found {key : Bytes}
    (named : key = ascii "\"usage\"" ∨ key = ascii "\"content\"" ∨ key = ascii "reasoning")
    (inside : key <:+: Json.marshal (.obj members)) : wanted (Frame.chunk members).line = true := by
  have found : key <:+: (Frame.chunk members).line :=
    inside.trans ⟨ascii "data: ", [], by simp [Frame.line]⟩
  rcases named with rfl | rfl | rfl <;> simp [wanted, found]

theorem openAIChunk_figures (delta : List (String × Json)) (finish : String) :
    (openAIChunk delta finish).isDone = false ∧ (openAIChunk delta finish).usage = none ∧
      (openAIChunk delta finish).contentBytes =
        (deltaText "content" delta).utf8ByteSize +
          (deltaText "reasoning_content" delta).utf8ByteSize := by
  refine ⟨rfl, ?_, ?_⟩
  · rw [openAIChunk, Frame.usage, trackedOf_delta]
    rfl
  · rw [openAIChunk, Frame.contentBytes, trackedOf_delta]
    simp [TrackedDelta.bytes]

variable {delta : List (String × Json)}

theorem openAIChunk_plain (content : deltaText "content" delta = "")
    (reasoning : deltaText "reasoning_content" delta = "") (finish : String) :
    (openAIChunk delta finish).Sound := by
  refine .inr ⟨?_, ?_⟩
  · rw [trackedOf_delta, content, reasoning]
    simp [TrackedDelta.bytes]
  · rw [trackedOf_delta]

theorem openAIChunk_text {key : String} {value : Json} (mem : (key, value) ∈ delta) {mark : Bytes}
    (named : mark = ascii "\"usage\"" ∨ mark = ascii "\"content\"" ∨ mark = ascii "reasoning")
    (inside : mark <:+: Json.quote key) (finish : String) : (openAIChunk delta finish).Sound := by
  refine .inl (wanted_of_found named ?_)
  refine List.IsInfix.trans ?_ (Json.infix_value List.mem_cons_self)
  refine List.IsInfix.trans ?_ (Json.infix_item List.mem_cons_self)
  refine List.IsInfix.trans ?_ (Json.infix_value List.mem_cons_self)
  exact inside.trans (Json.infix_key mem)

theorem openAIUsageFrame_figures (b : UsageBuckets) :
    (openAIUsageFrame b).Sound ∧ (openAIUsageFrame b).isDone = false ∧
      (openAIUsageFrame b).usage = some b ∧ (openAIUsageFrame b).contentBytes = 0 := by
  refine ⟨?_, rfl, ?_, ?_⟩
  · refine .inl (wanted_of_found (.inl rfl) ?_)
    have key : ascii "\"usage\"" = Json.quote "usage" := by decide
    rw [key]
    have member : ("usage", Json.obj (usageMembers b)) ∈ [("choices", Json.arr []),
        ("object", .str "chat.completion.chunk"), ("usage", .obj (usageMembers b))] := by simp
    exact Json.infix_key member
  · simp [openAIUsageFrame, Frame.usage, trackedOf, Json.member, usageOf_members]
  · simp [openAIUsageFrame, Frame.contentBytes, trackedOf, Json.member, Json.items]

theorem errorFrame_figures :
    errorFrame.Sound ∧ errorFrame.isDone = false ∧ errorFrame.usage = none ∧
      errorFrame.contentBytes = 0 := by
  refine ⟨.inr ⟨?_, ?_⟩, rfl, ?_, ?_⟩ <;>
    simp [errorFrame, trackedOf, Json.member, Frame.usage, Frame.contentBytes]

/-! The run of the translator. -/

structure Running (t : Translator) (frames : List Frame) : Prop where
  open_ : t.stopSeen = false
  sound : ∀ f ∈ frames, f.Sound ∧ f.isDone = false ∧ f.usage = none
  clean : t.tap.Clean
  terminal : t.tap.terminal = false
  bytes : (frames.map Frame.contentBytes).sum = t.tap.contentBytes

theorem Running.write {t' : Translator} (running : Running t frames)
    {f : Frame} (sound : f.Sound ∧ f.isDone = false ∧ f.usage = none)
    (same : t'.stopSeen = t.stopSeen ∧ t'.tap.terminal = t.tap.terminal ∧
      (t.tap.Clean → t'.tap.Clean))
    (bytes : t'.tap.contentBytes = t.tap.contentBytes + f.contentBytes) :
    Running t' (frames ++ [f]) := by
  obtain ⟨stop, terminal, clean⟩ := same
  refine ⟨stop.trans running.open_, ?_, clean running.clean, terminal.trans running.terminal, ?_⟩
  · exact Table.forall_mem_concat running.sound sound
  · rw [List.map_append, List.sum_append, running.bytes, bytes]
    simp

theorem Running.record {t' : Translator} (running : Running t frames)
    (same : t'.stopSeen = t.stopSeen ∧ t'.tap.terminal = t.tap.terminal ∧
      t'.tap.contentBytes = t.tap.contentBytes ∧ (t.tap.Clean → t'.tap.Clean)) :
    Running t' frames := by
  obtain ⟨stop, terminal, bytes, clean⟩ := same
  exact ⟨stop.trans running.open_, running.sound, clean running.clean,
    terminal.trans running.terminal, running.bytes.trans bytes.symm⟩

theorem flushUsage_keeps (t : Translator) :
    t.flushUsage.stopSeen = t.stopSeen ∧ t.flushUsage.tap.terminal = t.tap.terminal ∧
      t.flushUsage.tap.contentBytes = t.tap.contentBytes ∧
      (t.tap.Clean → t.flushUsage.tap.Clean) := by
  unfold Translator.flushUsage
  split_ifs
  · exact ⟨rfl, rfl, rfl, fun _ never => by cases never⟩
  · exact ⟨rfl, rfl, rfl, fun clean => clean⟩

theorem Running.startUsage (running : Running t frames)
    (usage : Option StartUsage) : Running (t.startUsage usage) frames := by
  cases usage with
  | none => exact running
  | some u => exact running.record (flushUsage_keeps _)

theorem Running.deltaUsage (running : Running t frames)
    (outputTokens : Option Int) : Running (t.deltaUsage outputTokens) frames := by
  cases outputTokens with
  | none => exact running
  | some n => exact running.record (flushUsage_keeps _)

theorem Running.text (running : Running t frames)
    {key text : String} (named : key = "content" ∨ key = "reasoning_content") :
    Running (t.addContent text) (frames ++ [openAIChunk [(key, .str text)] ""]) := by
  obtain ⟨marks, usage, bytes⟩ := openAIChunk_figures [(key, .str text)] ""
  have sound : (openAIChunk [(key, .str text)] "").Sound := by
    rcases named with rfl | rfl
    · exact openAIChunk_text List.mem_cons_self (.inr (.inl rfl)) (by decide) ""
    · exact openAIChunk_text List.mem_cons_self (.inr (.inr rfl)) (by decide) ""
  refine running.write ⟨sound, marks, usage⟩ ⟨rfl, rfl, fun clean => clean⟩ ?_
  rw [bytes, Translator.addContent]
  rcases named with rfl | rfl <;> simp [deltaText, Json.member, Json.text]

theorem Running.plain (running : Running t frames) (content : deltaText "content" delta = "")
    (reasoning : deltaText "reasoning_content" delta = "") (finish : String) :
    Running t (frames ++ [openAIChunk delta finish]) := by
  obtain ⟨marks, usage, bytes⟩ := openAIChunk_figures delta finish
  refine running.write ⟨openAIChunk_plain content reasoning finish, marks, usage⟩
    ⟨rfl, rfl, fun clean => clean⟩ ?_
  rw [bytes, content, reasoning]
  simp

theorem running_step (ev : AnthropicEvent) (goes : ev.type ≠ .messageStop) :
    Triple Running (translateEvent ev) Running := by
  intro t frames running
  unfold translateEvent
  cases kind : ev.type with
  | messageStart => exact (running.startUsage ev.messageUsage).plain (by decide) (by decide) ""
  | contentBlockStart =>
    dsimp only
    cases ev.contentBlock with
    | none => simpa using running
    | some block =>
      dsimp only
      split_ifs
      · exact running.plain rfl rfl ""
      · simpa using running
  | contentBlockDelta =>
    dsimp only
    cases ev.delta with
    | none => simpa using running
    | some delta =>
      dsimp only
      cases delta.type with
      | textDelta => exact running.text (.inl rfl)
      | thinkingDelta => exact running.text (.inr rfl)
      | inputJsonDelta => exact running.plain rfl rfl ""
      | other => simpa using running
  | messageDelta =>
    dsimp only
    have counted := running.deltaUsage ev.outputTokens
    cases ev.delta with
    | none => simpa using counted
    | some delta =>
      dsimp only
      split_ifs
      · simpa using counted
      · exact counted.plain rfl rfl _
  | messageStop => exact absurd kind goes
  | error =>
    obtain ⟨sound, marks, usage, bytes⟩ := errorFrame_figures
    exact running.write ⟨sound, marks, usage⟩ ⟨rfl, rfl, fun clean => clean⟩ (by rw [bytes]; rfl)
  | other => simpa using running

theorem frameUsage_of_silent (silent : ∀ f ∈ frames, f.usage = none) :
    frameUsage frames = none := by
  induction frames with
  | nil => rfl
  | cons f frames ih =>
    obtain ⟨first, others⟩ := List.forall_mem_cons.mp silent
    rw [frameUsage, List.foldl_cons, first]
    exact ih others

theorem Running.flush (running : Running t frames) : Agrees t (frames ++ t.usageFrames) := by
  have silent := frameUsage_of_silent fun f mem => (running.sound f mem).2.2
  have unmarked : frames.any Frame.isDone = false := by
    rw [List.any_eq_false]
    exact fun f mem => by simp [(running.sound f mem).2.1]
  unfold Translator.usageFrames
  cases saw : t.tap.sawUsage with
  | false =>
    rw [if_neg (by simp), List.append_nil]
    refine ⟨fun f mem => (running.sound f mem).1, running.clean, ?_, running.bytes, ?_⟩
    · rw [unmarked, running.terminal]
    · rw [silent, TapResult.usage, saw]
      rfl
  | true =>
    obtain ⟨sound, marks, usage, bytes⟩ := openAIUsageFrame_figures t.tap.buckets
    rw [if_pos rfl]
    refine ⟨?_, running.clean, ?_, ?_, ?_⟩
    · refine Table.forall_mem_concat (fun f mem => ?_) sound
      exact (running.sound f mem).1
    · simp [unmarked, marks, running.terminal]
    · simp [bytes, running.bytes]
    · rw [frameUsage, List.foldl_append, ← frameUsage, silent, TapResult.usage, saw]
      simp [usage]

theorem Agrees.stop (agrees : Agrees t frames) : Agrees t.markTerminal (frames ++ [.done]) := by
  refine ⟨?_, agrees.clean, ?_, ?_, ?_⟩
  · refine Table.forall_mem_concat agrees.sound ?_
    trivial
  · simp [Frame.isDone, Translator.markTerminal]
  · simpa [Frame.contentBytes, Translator.markTerminal] using agrees.bytes
  · rw [frameUsage, List.foldl_append, ← frameUsage, agrees.usage]
    rfl

theorem translate_agrees {events : List AnthropicEvent}
    (last : ∀ pre ev post, events = pre ++ ev :: post → ev.type = .messageStop → post = []) :
    let out := seq (each translateEvent events) finishStream {}
    Agrees out.1 out.2 ∧
      (out.1.tap.terminal = true ↔ ∃ ev ∈ events, ev.type = .messageStop) := by
  have start : Running {} [] := ⟨rfl, by simp, fun _ => rfl, rfl, rfl⟩
  have run {events : List AnthropicEvent} (goes : ∀ ev ∈ events, ev.type ≠ .messageStop) :
      Triple Running (each translateEvent events) Running := by
    induction events with
    | nil => exact Triple.skip fun _ _ running => running
    | cons ev events ih =>
      obtain ⟨first, others⟩ := List.forall_mem_cons.mp goes
      exact (running_step ev first).seq (ih others)
  by_cases stops : ∃ ev ∈ events, ev.type = .messageStop
  · obtain ⟨ev, mem, stop⟩ := stops
    obtain ⟨pre, post, rfl⟩ := List.append_of_mem mem
    cases last pre ev post rfl stop
    have goes : ∀ ev' ∈ pre, ev'.type ≠ .messageStop := by
      intro ev' mem' stop'
      obtain ⟨pre', post', rfl⟩ := List.append_of_mem mem'
      have := last pre' ev' (post' ++ [ev]) (by simp) stop'
      simp at this
    have running := run goes {} [] start
    rw [List.nil_append] at running
    have closed := running.flush.stop
    have one : each translateEvent [ev] =
        fun t => (t.markTerminal, t.usageFrames ++ [.done]) := by
      funext t
      rw [each_cons, each, seq_skip, translateEvent, stop]
      rfl
    have out : seq (each translateEvent (pre ++ [ev])) finishStream {} =
        ((each translateEvent pre {}).1.markTerminal,
          (each translateEvent pre {}).2 ++ ((each translateEvent pre {}).1.usageFrames ++
            [.done])) := by
      rw [each_append, one]
      simp [seq, finishStream, Translator.markTerminal]
    dsimp only
    rw [out]
    refine ⟨by rwa [List.append_assoc] at closed, ?_⟩
    exact ⟨fun _ => ⟨ev, mem, stop⟩, fun _ => rfl⟩
  · have running := run (fun ev mem stop => stops ⟨ev, mem, stop⟩) {} [] start
    rw [List.nil_append] at running
    have out : seq (each translateEvent events) finishStream {} =
        ((each translateEvent events {}).1,
          (each translateEvent events {}).2 ++ (each translateEvent events {}).1.usageFrames) := by
      simp [seq, finishStream, running.open_]
    dsimp only
    rw [out]
    refine ⟨running.flush, ?_⟩
    simp only [running.terminal, Bool.false_eq_true, false_iff]
    exact stops

theorem meter_blanks (decode : Bytes → Option TrackedChunk) (res : TapResult)
    (frames : List Frame) :
    meter decode res (frames.flatMap fun f => [f.line, []]) =
      meter decode res (frames.map Frame.line) := by
  induction frames generalizing res with
  | nil => rfl
  | cons f frames ih => exact ih _

theorem encodeLines_frames (frames : List Frame) :
    encodeLines (frames.flatMap fun f => [f.line, []]) = frames.flatMap Frame.bytes := by
  induction frames with
  | nil => rfl
  | cons f frames ih =>
    rw [List.flatMap_cons, List.flatMap_cons, ← ih]
    simp [encodeLines, Frame.bytes]

/-- However the translated bytes are cut, the tracker ends with the figures of the tap, and the end
marker is written exactly when the stop came. -/
theorem anthropic_metering_agrees (unmarshalEvent : Bytes → Option AnthropicEvent)
    (decode : Bytes → Option TrackedChunk) (body : Bytes)
    (last : ∀ pre ev post, received unmarshalEvent body = pre ++ ev :: post →
      ev.type = .messageStop → post = [])
    (fits : ∀ f ∈ (translateAnthropicEvents unmarshalEvent body).2,
      f.line.length ≤ trackLineCap)
    (readBack : ∀ f ∈ (translateAnthropicEvents unmarshalEvent body).2, f.ReadBack decode) :
    (∀ reads : List Bytes,
      reads.flatten = (translateAnthropicEvents unmarshalEvent body).2.flatMap Frame.bytes →
      (track decode reads).figures =
        (translateAnthropicEvents unmarshalEvent body).1.tap.figures) ∧
    (Frame.done ∈ (translateAnthropicEvents unmarshalEvent body).2 ↔
      ∃ ev ∈ received unmarshalEvent body, ev.type = .messageStop) := by
  obtain ⟨agrees, stops⟩ := translate_agrees last
  constructor
  · intro reads same
    rw [← encodeLines_frames] at same
    have plain : ∀ l ∈ (translateAnthropicEvents unmarshalEvent body).2.flatMap
        (fun f => [f.line, []]), Plain l := by
      intro l mem
      obtain ⟨f, inside, mem⟩ := List.mem_flatMap.mp mem
      rcases List.mem_cons.mp mem with rfl | mem
      · exact ⟨f.newline_line, fits f inside⟩
      · rw [List.mem_singleton.mp mem]
        exact ⟨List.not_mem_nil, Nat.zero_le _⟩
    rw [track_lines decode plain same, meter_blanks]
    exact agrees.figures readBack
  · refine Iff.trans ?_ stops
    refine Iff.trans ?_ (Bool.eq_iff_iff.mp agrees.terminal)
    rw [List.any_eq_true]
    constructor
    · exact fun mem => ⟨.done, mem, rfl⟩
    · rintro ⟨f, mem, marks⟩
      cases f with
      | chunk members => cases marks
      | done => exact mem

instance (decode : Bytes → Option TrackedChunk) : (f : Frame) → Decidable (f.ReadBack decode)
  | .chunk _ => inferInstanceAs (Decidable (_ = _))
  | .done => .isTrue trivial

def letterEvent : Bytes → Option AnthropicEvent
  | [115] => some
      { type := .messageStart
        messageUsage := some
          { inputTokens := some 12
            cacheReadTokens := some 0 } }
  | [116] => some
      { type := .contentBlockDelta
        delta := some
          { type := .textDelta
            text := "<é>" } }
  | [100] => some
      { type := .messageDelta
        delta := some { stopReason := "end_turn" }
        outputTokens := some 3 }
  | [120] => some { type := .messageStop }
  | _ => none

def decodeAmong (frames : List Frame) (b : Bytes) : Option TrackedChunk :=
  frames.findSome? fun
    | .chunk members =>
      if Json.marshal (.obj members) = b then some (trackedOf (.obj members)) else none
    | .done => none

theorem anthropic_metering_letters :
    let body := ascii "data: s\ndata: t\ndata: d\ndata: x\n"
    let frames := (translateAnthropicEvents letterEvent body).2
    (track (decodeAmong frames) [frames.flatMap Frame.bytes]).figures =
        ({ inputTokens := some 12, cacheReadTokens := some 0, outputTokens := some 3 }, true, true,
          4) ∧ Frame.done ∈ frames := by
  intro body frames
  have early : ∀ ev ∈ (received letterEvent body).dropLast, ev.type ≠ .messageStop := by
    decide +kernel
  have last : ∀ pre ev post, received letterEvent body = pre ++ ev :: post →
      ev.type = .messageStop → post = [] := by
    intro pre ev post split stop
    cases post with
    | nil => rfl
    | cons ev' post =>
      rw [split] at early
      exact absurd stop (early ev (by simp))
  obtain ⟨metered, marked⟩ := anthropic_metering_agrees letterEvent (decodeAmong frames) body last
    (by decide +kernel) (by decide +kernel)
  have stopped : ∃ ev ∈ received letterEvent body, ev.type = .messageStop := by decide +kernel
  have tapped : (translateAnthropicEvents letterEvent body).1.tap.figures =
      ({ inputTokens := some 12, cacheReadTokens := some 0, outputTokens := some 3 }, true, true,
        4) := by decide +kernel
  exact ⟨(metered _ List.flatten_singleton).trans tapped, marked.mpr stopped⟩

end YunhouUsers.Inference.Providers
