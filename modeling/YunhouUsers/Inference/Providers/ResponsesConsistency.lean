import YunhouUsers.Inference.Providers.ResponsesOrder

/-!
A Responses stream as a whole: its numbers, its items and its final response.
-/

namespace YunhouUsers.Inference.Providers

open Transducer

namespace Responses

def Counted (s : StreamState) (out : List Frame) : Prop :=
  out.map Frame.sequenceNumber = List.range' 1 s.seq

def Numbered (f : Action) : Prop := Triple Counted f Counted

namespace Numbered

variable {f g : Action}

theorem skip : Numbered skip := Triple.skip fun _ _ counted => counted

theorem seq (first : Numbered f) (second : Numbered g) : Numbered (seq f g) := Triple.seq first second

theorem send (e : ServerEvent) : Numbered (send e) := by
  intro s out counted
  simp only [Counted, Responses.send, List.map_append, List.map_cons, List.map_nil,
    List.range'_1_concat]
  rw [counted, Nat.add_comm 1]

theorem set {f : StreamState → StreamState} (keeps : ∀ s, (f s).seq = s.seq) : Numbered (set f) := by
  intro s out counted
  simp only [Counted, Responses.set, List.append_nil, keeps]
  exact counted

theorem choice (one : ∀ s, ∃ g, Numbered g ∧ f s = g s) : Numbered f := by
  intro s out counted
  obtain ⟨g, numbered, same⟩ := one s
  rw [same]
  exact numbered s out counted

theorem reading {f : StreamState → Action} (one : ∀ s, Numbered (f s)) : Numbered (reading f) :=
  choice fun s => ⟨f s, one s, rfl⟩

theorem each {α : Type} {step : α → Action} (one : ∀ x, Numbered (step x)) (xs : List α) :
    Numbered (each step xs) :=
  Triple.each (I := fun _ => Counted) (fun _ => one) [] xs

end Numbered

theorem emitCreated_numbered : Numbered emitCreated := by
  apply Numbered.reading
  intro s
  apply Numbered.seq
  · exact .set fun _ => rfl
  · exact .seq (.send _) (.send _)

theorem ensureCreated_numbered : Numbered ensureCreated := by
  apply Numbered.choice
  intro s
  unfold ensureCreated
  split
  · exact ⟨skip, .skip, rfl⟩
  · exact ⟨emitCreated, emitCreated_numbered, rfl⟩

theorem Plain.numbered {f : Action} (plain : Plain f) : Numbered f := by
  induction plain with
  | skip => exact .skip
  | seq _ _ first second => exact .seq first second
  | send _ => exact .send _
  | set keeps => exact .set fun s => (keeps s).2
  | reading _ one => exact .reading one

theorem render_numbered (e : PumpEvent) : Numbered (render e) := by
  cases e with
  | done =>
    apply ensureCreated_numbered.seq (closeOpenItem_plain.numbered.seq (.reading _))
    intro s
    apply Numbered.seq _ (.send _)
    exact .set fun _ => rfl
  | chunk c =>
    show Numbered (renderChunk c)
    unfold renderChunk
    split
    · apply Numbered.seq _ (.send _)
      exact .set fun _ => rfl
    · rw [renderChoices_eq]
      apply ensureCreated_numbered.seq (.seq _ (Plain.each renderItem_plain _).numbered)
      exact .set fun _ => rfl

variable (items : List Item)

def FinishLast : Prop :=
  items.Pairwise (fun a b => a.finishOf ≠ none → b.finishOf ≠ none)

instance (items : List Item) : Decidable (FinishLast items) :=
  inferInstanceAs (Decidable (List.Pairwise _ _))

structure Ended (opens : List Opening) (s : StreamState) (book : Book) : Prop where
  mirrors : Mirrors opens s book
  closed : Closed s
  ordered : s.responseItems = book.map Slot.whole ↔ Ordered opens

def Reached (s : StreamState) (book : Book) : Prop :=
  (Runs (openings items) (current (openings items)) s book ∧ ∀ item ∈ items, item.finishOf = none) ∨
    (Ended (openings items) s book ∧ ∃ item ∈ items, item.finishOf ≠ none)

def Stage (s : StreamState) (out : List Frame) : Prop :=
  ∃ book, Book.readAll [] out = some book ∧ (s.started = false → book = []) ∧ Reached items s book

variable {s : StreamState}

variable {book : Book}

theorem ends {opens : List Opening}
    (here : Runs opens (current opens) s book ∨ Ended opens s book) :
    ∃ book', book.readAll (closeOpenItem s).2 = some book' ∧
      Ended opens (closeOpenItem s).1 book' := by
  rcases here with runs | ended
  · obtain ⟨book', reads, mirrors, wholes, response⟩ := closeOpenItem_reads runs.mirrors
    refine ⟨book', reads, mirrors, (closeOpenItem_spec runs.mirrors.unique).2.1, ?_⟩
    rw [wholes, response, runs.response]
    exact runs.ordered_iff
  · have nothing : closeOpenItem s = (s, []) := by
      simp only [closeOpenItem, openItems_eq_nil.mpr ended.closed, each, skip]
    rw [nothing]
    exact ⟨book, rfl, ended⟩

theorem renderItem_started (item : Item) (s : StreamState) :
    (renderItem item s).1.started = s.started :=
  congrArg (fun p => p.2.2) ((renderItem_plain item).uneventful.keeps s)

theorem Reached.congr {items : List Item} {s' : StreamState}
    (here : Reached items s book) (next : s'.nextIndex = s.nextIndex)
    (tools : s'.toolItems = s.toolItems) (kind : s'.openKind = s.openKind)
    (index : s'.openIndex = s.openIndex) (slot : ∀ kind, s'.textSlot kind = s.textSlot kind)
    (outputs : s'.outputItems = s.outputItems) (response : s'.responseItems = s.responseItems) :
    Reached items s' book := by
  rcases here with ⟨runs, going⟩ | ⟨ended, over_⟩
  · left
    refine ⟨⟨?_, kind.trans runs.kind, tools ▸ runs.running, response.trans runs.response⟩, going⟩
    exact runs.mirrors.congr next tools kind index (fun k _ => slot k) outputs response
  · right
    refine ⟨⟨?_, ?_, response ▸ ended.ordered⟩, over_⟩
    · exact ended.mirrors.congr next tools kind index (fun k _ => slot k) outputs response
    · rw [Closed, kind, tools]
      exact ended.closed

theorem Reached.item {done : List Item} {item : Item} (last : FinishLast (done ++ [item]))
    (here : Reached done s book) :
    ∃ book', book.readAll (renderItem item s).2 = some book' ∧
      Reached (done ++ [item]) (renderItem item s).1 book' := by
  cases finish : item.finishOf with
  | none =>
    have before : ∀ x ∈ done, x.finishOf = none := by
      intro x mem
      by_contra ended
      exact (List.pairwise_append.mp last).2.2 x mem item (by simp) ended finish
    rcases here with ⟨runs, -⟩ | ⟨-, x, mem, ended⟩
    · obtain ⟨book', reads, runs'⟩ := runs.item finish
      refine ⟨book', reads, .inl ⟨openings_concat done item ▸ runs', ?_⟩⟩
      exact List.forall_mem_append.mpr ⟨before, by simpa using finish⟩
    · exact absurd (before x mem) ended
  | some reason =>
    obtain rfl : item = .finish reason := by
      cases item <;> simp_all [Item.finishOf]
    have same : openings (done ++ [.finish reason]) = openings done := openings_concat _ _
    have still : Reached done { s with finish := reason } book :=
      here.congr rfl rfl rfl rfl (fun k => by cases k <;> rfl) rfl rfl
    obtain ⟨book', reads, ended⟩ := ends (still.imp And.left And.left)
    refine ⟨book', reads, .inr ⟨same ▸ ended, ?_⟩⟩
    exact ⟨.finish reason, by simp, by simp [Item.finishOf]⟩

def Progress (done : List Item) (s : StreamState) (out : List Frame) : Prop :=
  s.started = true ∧ (FinishLast done → Stage done s out)

theorem progress_item (done : List Item) (item : Item) :
    Triple (Progress done) (renderItem item) (Progress (done ++ [item])) := by
  rintro s out ⟨started, here⟩
  have started' := (renderItem_started item s).trans started
  refine ⟨started', fun last => ?_⟩
  obtain ⟨book, reads, -, reached⟩ := here (last.sublist (List.sublist_append_left _ _))
  obtain ⟨book', reads', reached'⟩ := reached.item last
  refine ⟨book', ?_, fun not => ?_, reached'⟩
  · rw [Book.readAll_append, reads]
    exact reads'
  · rw [started'] at not
    cases not

theorem ensureCreated_stage :
    Triple (fun s out => FinishLast items → Stage items s out) ensureCreated (Progress items) := by
  intro s out here
  obtain ⟨-, -, started, -⟩ := ensureCreated_spec s
  refine ⟨started, fun last => ?_⟩
  obtain ⟨book, reads, fresh, reached⟩ := here last
  unfold ensureCreated
  split
  · exact ⟨book, by simpa [skip] using reads, fresh, reached⟩
  · rename_i not
    have empty := fresh (Bool.eq_false_iff.mpr not)
    subst empty
    refine ⟨[], ?_, fun _ => rfl, reached.congr rfl rfl rfl rfl (fun k => by cases k <;> rfl) rfl rfl⟩
    rw [Book.readAll_append, reads]
    rfl

theorem stage_chunk (before : List OpenAIStreamChunk) {c : OpenAIStreamChunk} (fine : c.error = none) :
    Triple (fun s out => FinishLast (itemsOf before) → Stage (itemsOf before) s out) (renderChunk c)
      (fun s out => FinishLast (itemsOf (before ++ [c])) → Stage (itemsOf (before ++ [c])) s out) := by
  have items : itemsOf (before ++ [c]) = itemsOf before ++ c.items := by
    simp [itemsOf]
  simp only [renderChunk, fine, renderChoices_eq, items]
  have usage : Triple (Progress (itemsOf before))
      (set fun s => { s with usage := c.usage.or s.usage }) (Progress (itemsOf before)) := by
    rintro s out ⟨started, here⟩
    refine ⟨started, fun last => ?_⟩
    obtain ⟨book, reads, fresh, reached⟩ := here last
    exact ⟨book, by simpa [set] using reads, fresh,
      reached.congr rfl rfl rfl rfl (fun k => by cases k <;> rfl) rfl rfl⟩
  intro s out here
  exact (((ensureCreated_stage _).seq (usage.seq
    (Triple.each progress_item (itemsOf before) c.items))) s out here).2

theorem stage_chunks (before chunks : List OpenAIStreamChunk) (fine : ∀ c ∈ chunks, c.error = none) :
    Triple (fun s out => FinishLast (itemsOf before) → Stage (itemsOf before) s out)
      (each render (chunks.map .chunk))
      (fun s out => FinishLast (itemsOf (before ++ chunks)) →
        Stage (itemsOf (before ++ chunks)) s out) := by
  induction chunks generalizing before with
  | nil =>
    rw [List.append_nil]
    exact Triple.skip fun _ _ here => here
  | cons c chunks ih =>
    obtain ⟨first, rest⟩ := List.forall_mem_cons.mp fine
    have later := ih (before ++ [c]) rest
    rw [List.append_assoc, List.singleton_append] at later
    exact (stage_chunk before first).seq later

def ServerEvent.response : ServerEvent → Option Response
  | .completed r | .incomplete r => some r
  | _ => none

/-- The events can be read, every announced item is done once, the frames are numbered, and the
last frame carries the items by output index; the chain gets them without the reasoning. -/
structure SelfConsistent (s : StreamState) (out : List Frame) : Prop where
  numbered : out.map Frame.sequenceNumber = List.range' 1 out.length
  output : ∃ (book : Book) (r : Response), Book.readAll [] out = some book ∧ book.closed = true ∧
    out.getLast?.bind (·.event.response) = some r ∧
    (∀ i : Nat, r.output[i]? = book[i]?.bind Slot.final) ∧
    s.outputItems = r.output.filter (·.kind ≠ .reasoning)

theorem terminalEvent_response (s : StreamState) :
    ∃ r, (terminalEvent s).response = some r ∧ r.output = s.responseItems := by
  unfold terminalEvent
  split
  · exact ⟨_, rfl, rfl⟩
  · exact ⟨_, rfl, rfl⟩

theorem read_terminalEvent (closed : book.closed = true) :
    book.read (terminalEvent s) = some book := by
  unfold terminalEvent
  split <;> simp [Book.read, closed]

theorem consistent_iff {items : List Item} (last : FinishLast items)
    {out : List Frame} (here : FinishLast items → Stage items s out) (counted : Counted s out) :
    SelfConsistent (finishClean s).1 (out ++ (finishClean s).2) ↔ Ordered (openings items) := by
  obtain ⟨book, reads, -, reached⟩ := (ensureCreated_stage items s out here).2 last
  obtain ⟨book', reads', ended⟩ := ends (reached.imp And.left And.left)
  have finished := ended.mirrors.finished ended.closed
  have closed : book'.closed = true := by
    apply List.all_eq_true.mpr
    intro slot mem
    rw [finished slot mem]
    rfl
  obtain ⟨r, is, output⟩ := terminalEvent_response (closeOpenItem (ensureCreated s).1).1
  have written : (finishClean s).2 = (ensureCreated s).2 ++ ((closeOpenItem (ensureCreated s).1).2 ++
      [⟨(closeOpenItem (ensureCreated s).1).1.seq + 1,
        terminalEvent (closeOpenItem (ensureCreated s).1).1⟩]) := rfl
  have all : Book.readAll [] (out ++ (finishClean s).2) = some book' := by
    rw [written, ← List.append_assoc, Book.readAll_append, reads, Option.bind_some,
      Book.readAll_append, reads', Option.bind_some, Book.readAll, read_terminalEvent closed]
    rfl
  have final : (out ++ (finishClean s).2).getLast?.bind (·.event.response) = some r := by
    rw [written, ← List.append_assoc, ← List.append_assoc, List.getLast?_concat]
    exact is
  have numbered : (out ++ (finishClean s).2).map Frame.sequenceNumber =
      List.range' 1 (out ++ (finishClean s).2).length := by
    have counted' : Counted (finishClean s).1 (out ++ (finishClean s).2) :=
      render_numbered .done s out counted
    have length := congrArg List.length counted'
    rw [List.length_map, List.length_range'] at length
    rw [length]
    exact counted'
  -- all parts hold but the order, and the order is that of the openings
  rw [← ended.ordered, ← output, List.ext_getElem?_iff]
  have entry (i : Nat) : book'[i]?.bind Slot.final = (book'.map Slot.whole)[i]? := by
    rw [List.getElem?_map]
    cases there : book'[i]? with
    | none => rfl
    | some slot => exact finished slot (List.mem_of_getElem? there)
  constructor
  · rintro ⟨-, other, r', reads₂, -, final₂, indexed, -⟩ i
    cases all.symm.trans reads₂
    cases final.symm.trans final₂
    rw [indexed, entry]
  · intro indexed
    refine ⟨numbered, book', r, all, closed, final, fun i => ?_, ?_⟩
    · rw [indexed, entry]
    · rw [output]
      exact ended.mirrors.chain

/-- The output of a stream lists its items by output index exactly when no message and no
reasoning was opened after a call and before another item. -/
theorem responses_stream_self_consistent (unmarshal : Bytes → Option OpenAIStreamChunk)
    (reads : List Bytes) (responseId model : String) (createdAt : Int) (cacheReadInInput : Bool)
    (newPublicId : String → Nat → String) (chunks : List OpenAIStreamChunk)
    (heard : pump unmarshal [] reads = chunks.map .chunk ++ [.done])
    (fine : ∀ c ∈ chunks, c.error = none) (last : FinishLast (itemsOf chunks)) :
    SelfConsistent
        (translateOpenAIToResponsesStream unmarshal reads responseId model createdAt
          cacheReadInInput newPublicId).1
        (translateOpenAIToResponsesStream unmarshal reads responseId model createdAt
          cacheReadInInput newPublicId).2 ↔
      Ordered (openings (itemsOf chunks)) := by
  let start : StreamState := { responseId, model, createdAt, cacheReadInInput, newPublicId }
  have empty : Stage (itemsOf []) start [] := by
    refine ⟨[], rfl, fun _ => rfl, .inl ⟨⟨?_, rfl, by simp [start], rfl⟩, by simp [itemsOf]⟩⟩
    constructor
    all_goals simp [start, openings, itemsOf]
  have stage := stage_chunks [] chunks fine start [] fun _ => empty
  have counted : Counted (each render (chunks.map .chunk) start).1
      ([] ++ (each render (chunks.map .chunk) start).2) :=
    Numbered.each render_numbered _ start [] rfl
  have all : translateOpenAIToResponsesStream unmarshal reads responseId model createdAt
      cacheReadInInput newPublicId = seq (each render (chunks.map .chunk)) finishClean start := by
    have terminal : (chunks.map PumpEvent.chunk ++ [PumpEvent.done]).any (fun e => e = .done) = true := by
      simp
    have one : each responsesStreamRenderer.render [.done] = finishClean := seq_skip _
    simp only [translateOpenAIToResponsesStream, translateStream, heard, terminal, if_true, seq_skip,
      each_append, one]
    rfl
  rw [all]
  exact consistent_iff last stage counted

/-- Chunks named by one letter: a fragment of either call, words, and the finish reason. -/
def spelled (payload : Bytes) : Option OpenAIStreamChunk :=
  let letter := payload.drop 1
  if letter = ascii "a" then some { choices := [{ toolCalls := [⟨0, "call_a", "f", "1"⟩] }] }
  else if letter = ascii "b" then some { choices := [{ toolCalls := [⟨1, "call_b", "g", "2"⟩] }] }
  else if letter = ascii "w" then some { choices := [{ content := "words" }] }
  else some { choices := [{ finishReason := some "tool_calls" }] }

def spelling (letters : List String) : Bytes :=
  encodeLines (letters.map (fun letter => ascii ("data: \x7b" ++ letter)) ++ [ascii "data: [DONE]"])

def spell (letters : List String) : StreamState × List Frame :=
  translateOpenAIToResponsesStream spelled [spelling letters] "resp_1" "m" 0 false numbered

theorem consistent_words_first :
    SelfConsistent (spell ["w", "a", "b", "a", "f"]).1 (spell ["w", "a", "b", "a", "f"]).2 :=
  (responses_stream_self_consistent spelled [spelling ["w", "a", "b", "a", "f"]] "resp_1" "m" 0 false
    numbered (["w", "a", "b", "a", "f"].filterMap (fun letter => spelled (123 :: ascii letter)))
    (by decide +kernel) (by decide +kernel) (by decide +kernel)).mpr (by decide +kernel)

theorem words_between_calls :
    ((spell ["a", "w", "b", "f"]).2.getLast?.bind (·.event.response)).map
        (fun r => r.output.map OutputItem.kind) = some [.message, .functionCall, .functionCall] ∧
      (Book.readAll [] (spell ["a", "w", "b", "f"]).2).map (fun book => book.map Slot.final) =
        some [some (.functionCall "fc_0" "call_a" "f" "1" .completed),
          some (.message "msg_1" .completed (some "words")),
          some (.functionCall "fc_2" "call_b" "g" "2" .completed)] := by
  decide +kernel

theorem output_not_by_index :
    ¬ SelfConsistent (spell ["a", "w", "b", "f"]).1 (spell ["a", "w", "b", "f"]).2 := by
  rintro ⟨-, book, r, reads, -, final, indexed, -⟩
  obtain ⟨kinds, slots⟩ := words_between_calls
  rw [final, Option.map_some, Option.some.injEq] at kinds
  rw [reads, Option.map_some, Option.some.injEq] at slots
  have first := congrArg (fun item => item.map OutputItem.kind) (indexed 0)
  have shown : (r.output.map OutputItem.kind)[0]? = some .message := by rw [kinds]; rfl
  have kept : (book.map Slot.final)[0]? =
      some (some (.functionCall "fc_0" "call_a" "f" "1" .completed)) := by rw [slots]; rfl
  rw [List.getElem?_map] at shown kept
  obtain ⟨slot, there, is⟩ := Option.map_eq_some_iff.mp kept
  rw [shown, there, Option.bind_some, is] at first
  cases first

end Responses

end YunhouUsers.Inference.Providers
