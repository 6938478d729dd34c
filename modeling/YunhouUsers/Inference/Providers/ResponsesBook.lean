import YunhouUsers.Inference.Providers.ResponsesCompletion

/-!
The output items of a Responses stream, as a client keeps them while it reads the events.
-/

namespace YunhouUsers.Inference.Providers

open Transducer

namespace Responses

inductive ItemKind where
  | message
  | reasoning
  | functionCall
deriving DecidableEq

def OutputItem.kind : OutputItem → ItemKind
  | .message .. => .message
  | .reasoning .. => .reasoning
  | .functionCall .. => .functionCall

def OutputItem.id : OutputItem → String
  | .message id _ _ => id
  | .reasoning id _ => id
  | .functionCall id _ _ _ _ => id

def OutputItem.blank : OutputItem → Bool
  | .message _ status text => status = .inProgress && text = none
  | .reasoning _ summary => summary = none
  | .functionCall _ _ _ arguments status => arguments = "" && status = .inProgress

structure Slot where
  opened : OutputItem
  text : String := ""
  final : Option OutputItem := none
deriving DecidableEq

/-- What the done events have to say; a call without arguments has an empty object. -/
def Slot.said (slot : Slot) : String :=
  if slot.opened.kind = .functionCall ∧ slot.text = "" then "\x7b\x7d" else slot.text

def Slot.whole (slot : Slot) : OutputItem :=
  match slot.opened with
  | .message id _ _ => .message id .completed (some slot.said)
  | .reasoning id _ => .reasoning id (some slot.said)
  | .functionCall id callId name _ _ => .functionCall id callId name slot.said .completed

def Slot.close (slot : Slot) : Slot := { slot with final := some slot.whole }

def Slot.is (kind : ItemKind) (id : String) (slot : Slot) : Bool :=
  slot.opened.kind = kind && slot.opened.id = id

abbrev Book := List Slot

namespace Book

def touch (book : Book) (ix : Nat) (fits : Slot → Bool) (f : Slot → Slot) : Option Book :=
  match book[ix]? with
  | some slot => if slot.final = none ∧ fits slot = true then some (book.set ix (f slot)) else none
  | none => none

def part (kind : ItemKind) (id : String) (ix : Nat) (book : Book) : Option Book :=
  book.touch ix (fun slot => slot.is kind id && slot.text = "") (fun slot => slot)

def delta (kind : ItemKind) (id : String) (ix : Nat) (text : String) (book : Book) : Option Book :=
  book.touch ix (fun slot => slot.is kind id) (fun slot => { slot with text := slot.text ++ text })

def spoken (kind : ItemKind) (id : String) (ix : Nat) (text : String) (book : Book) : Option Book :=
  book.touch ix (fun slot => slot.is kind id && slot.said = text) (fun slot => slot)

def closed (book : Book) : Bool := book.all (·.final.isSome)

/-- The book after one event; `none` when the event does not fit. -/
def read (book : Book) : ServerEvent → Option Book
  | .created _ | .inProgress _ => if book = [] then some book else none
  | .outputItemAdded ix item =>
    if ix = book.length ∧ item.blank = true then some (book ++ [⟨item, "", none⟩]) else none
  | .contentPartAdded id ix => book.part .message id ix
  | .reasoningSummaryPartAdded id ix => book.part .reasoning id ix
  | .outputTextDelta id ix text => book.delta .message id ix text
  | .reasoningSummaryTextDelta id ix text => book.delta .reasoning id ix text
  | .functionCallArgumentsDelta id ix text => book.delta .functionCall id ix text
  | .outputTextDone id ix text | .contentPartDone id ix text => book.spoken .message id ix text
  | .reasoningSummaryTextDone id ix text | .reasoningSummaryPartDone id ix text =>
    book.spoken .reasoning id ix text
  | .functionCallArgumentsDone id ix text => book.spoken .functionCall id ix text
  | .outputItemDone ix item => book.touch ix (·.whole = item) Slot.close
  | .completed _ | .incomplete _ => if book.closed then some book else none
  | .error _ _ => none

def readAll (book : Book) : List Frame → Option Book
  | [] => some book
  | f :: frames => (book.read f.event).bind (fun book => book.readAll frames)

variable {book : Book} {ix : Nat} {slot : Slot}

theorem readAll_append (book : Book) (xs ys : List Frame) :
    book.readAll (xs ++ ys) = (book.readAll xs).bind (fun book => book.readAll ys) := by
  induction xs generalizing book with
  | nil => rfl
  | cons f xs ih =>
    simp only [List.cons_append, readAll, Option.bind_assoc]
    congr 1
    funext next
    exact ih next

theorem touch_eq {fits : Slot → Bool} {f : Slot → Slot} (there : book[ix]? = some slot)
    (isOpen : slot.final = none) (fit : fits slot = true) :
    book.touch ix fits f = some (book.set ix (f slot)) := by
  simp [touch, there, isOpen, fit]

theorem touch_same {fits : Slot → Bool} (there : book[ix]? = some slot)
    (isOpen : slot.final = none) (fit : fits slot = true) :
    book.touch ix fits (fun slot => slot) = some book := by
  rw [touch_eq there isOpen fit]
  congr 1
  obtain ⟨bound, rfl⟩ := List.getElem?_eq_some_iff.mp there
  exact List.set_getElem_self bound

end Book

inductive Opening where
  | textual (kind : TextualKind)
  | call (index : Int)
deriving DecidableEq

def TextualKind.item : TextualKind → ItemKind
  | .message => .message
  | .reasoning => .reasoning

def Opening.kind : Opening → ItemKind
  | .textual kind => kind.item
  | .call _ => .functionCall

def Opening.index : Opening → Option Int
  | .textual _ => none
  | .call index => some index

def Opening.textualKind : Opening → Option TextualKind
  | .textual kind => some kind
  | .call _ => none

def opensNext (opens : List Opening) : Item → List Opening
  | .thinking s => speaks s .reasoning
  | .text s => speaks s .message
  | .tool tc => if .call tc.index ∈ opens then opens else opens ++ [.call tc.index]
  | .finish _ => opens
where
  speaks (s : String) (kind : TextualKind) : List Opening :=
    if s = "" ∨ opens.getLast? = some (.textual kind) then opens else opens ++ [.textual kind]

def openings (items : List Item) : List Opening := items.foldl opensNext []

theorem openings_concat (items : List Item) (item : Item) :
    openings (items ++ [item]) = opensNext (openings items) item := by
  rw [openings, List.foldl_append]
  rfl

variable (s : StreamState)

def StreamState.textSlot : TextualKind → Slot
  | .message => ⟨.message s.openItemId .inProgress none, s.textBuf, none⟩
  | .reasoning => ⟨.reasoning s.openItemId none, s.reasonBuf, none⟩

variable (ti : ToolItem)

def ToolItem.slot : Slot :=
  let slot : Slot := ⟨.functionCall ti.itemId ti.callId ti.name "" .inProgress, ti.args, none⟩
  if ti.isOpen then slot else slot.close

@[simp] theorem textSlot_kind (kind : TextualKind) : (s.textSlot kind).opened.kind = kind.item := by
  cases kind <;> rfl

@[simp] theorem textSlot_final (kind : TextualKind) : (s.textSlot kind).final = none := by
  cases kind <;> rfl

@[simp] theorem toolSlot_kind : ti.slot.opened.kind = .functionCall := by
  unfold ToolItem.slot
  split <;> rfl

@[simp] theorem Slot.close_kind (slot : Slot) : slot.close.opened.kind = slot.opened.kind := rfl

@[simp] theorem Slot.close_whole (slot : Slot) : slot.close.whole = slot.whole := rfl

theorem Slot.whole_kind (slot : Slot) : slot.whole.kind = slot.opened.kind := by
  unfold Slot.whole
  split <;> (rename_i is; rw [is]; rfl)

theorem toolSlot_open (isOpen : ti.isOpen = true) : ti.slot.final = none := by
  simp [ToolItem.slot, isOpen]

theorem toolSlot_shut (isOpen : ti.isOpen = true) : (shut ti).slot = ti.slot.close := by
  simp [ToolItem.slot, isOpen, shut]

variable {ti : ToolItem}

/-- The book shows what the state has opened and what is left of it open.  The textual item is the
last one, and the items were announced in the order of `opens`. -/
structure Mirrors (opens : List Opening) (s : StreamState) (book : Book) : Prop where
  next : s.nextIndex = opens.length
  kinds : book.map (·.opened.kind) = opens.map Opening.kind
  keys : s.toolItems.map Prod.fst = opens.filterMap Opening.index
  unique : (s.toolItems.map Prod.fst).Nodup
  calls : ∀ i index, opens[i]? = some (.call index) →
    ∃ ti, toolItem s index = some ti ∧ ti.outputIndex = i ∧ book[i]? = some ti.slot
  text : ∀ kind, s.openKind = some kind → ∃ before, opens = before ++ [.textual kind] ∧
    s.openIndex = some before.length ∧ book[before.length]? = some (s.textSlot kind)
  shut : ∀ i kind slot, opens[i]? = some (.textual kind) → book[i]? = some slot →
    s.openKind = none ∨ i + 1 < opens.length → slot.final = some slot.whole
  chain : s.outputItems = s.responseItems.filter (·.kind ≠ .reasoning)

namespace Mirrors

variable {opens : List Opening} {s s' : StreamState} {book : Book}

theorem size (here : Mirrors opens s book) : book.length = opens.length := by
  simpa using congrArg List.length here.kinds

theorem place (here : Mirrors opens s book) {index : Int} (found : toolItem s index = some ti) :
    opens[ti.outputIndex]? = some (.call index) ∧ book[ti.outputIndex]? = some ti.slot := by
  have known : index ∈ opens.filterMap Opening.index := by
    rw [← here.keys]
    exact List.mem_map.mpr ⟨_, mem_of_toolItem found, rfl⟩
  obtain ⟨opening, mem, is⟩ := List.mem_filterMap.mp known
  cases opening with
  | textual kind => cases is
  | call index' =>
    cases is
    obtain ⟨i, there⟩ := List.mem_iff_getElem?.mp mem
    obtain ⟨ti', found', rfl, slot⟩ := here.calls i index there
    cases found.symm.trans found'
    exact ⟨there, slot⟩

theorem toolItem_iff (here : Mirrors opens s book) (index : Int) :
    toolItem s index = none ↔ .call index ∉ opens := by
  rw [toolItem_eq_none, here.keys, List.mem_filterMap, not_iff_not]
  constructor
  · rintro ⟨opening, mem, is⟩
    cases opening with
    | textual kind => cases is
    | call index' => cases is; exact mem
  · exact fun mem => ⟨_, mem, rfl⟩

theorem congr (here : Mirrors opens s book) (next : s'.nextIndex = s.nextIndex)
    (tools : s'.toolItems = s.toolItems) (kind : s'.openKind = s.openKind)
    (index : s'.openIndex = s.openIndex)
    (slot : ∀ kind, s.openKind = some kind → s'.textSlot kind = s.textSlot kind)
    (outputs : s'.outputItems = s.outputItems) (response : s'.responseItems = s.responseItems) :
    Mirrors opens s' book where
  next := next.trans here.next
  kinds := here.kinds
  keys := tools ▸ here.keys
  unique := tools ▸ here.unique
  calls i ix there := by
    obtain ⟨ti, found, rest⟩ := here.calls i ix there
    exact ⟨ti, by rw [toolItem, tools]; exact found, rest⟩
  text k isOpen := by
    rw [kind] at isOpen
    rw [index, slot k isOpen]
    exact here.text k isOpen
  shut := by
    rw [kind]
    exact here.shut
  chain := by rw [outputs, response, here.chain]

end Mirrors

variable {book : Book}

theorem kinds_set {i : Nat} {old new : Slot} (there : book[i]? = some old)
    (same : new.opened.kind = old.opened.kind) :
    (book.set i new).map (·.opened.kind) =
      book.map (·.opened.kind) := by
  obtain ⟨bound, rfl⟩ := List.getElem?_eq_some_iff.mp there
  rw [List.map_set, same, ← List.getElem_map (f := fun slot : Slot => slot.opened.kind)]
  · exact List.set_getElem_self _
  · simpa using bound

structure Closes (ix : Nat) (f : Action) (opens : List Opening) (s : StreamState) (book : Book) :
    Prop where
  closes : ∃ slot, book[ix]? = some slot ∧ slot.final = none ∧
    book.readAll (f s).2 = some (book.set ix slot.close) ∧
    Mirrors opens (f s).1 (book.set ix slot.close) ∧
    (f s).1.responseItems = s.responseItems ++ [slot.whole]

variable {s : StreamState}

theorem closeTextualItem_message (isOpen : s.openKind = some .message) :
    closeTextualItem s =
      let ix := s.openIndex.getD 0
      let item := OutputItem.message s.openItemId .completed (some s.textBuf)
      ({ s with
          openKind := none, openItemId := "", openIndex := none, seq := s.seq + 3
          outputItems := s.outputItems ++ [item], responseItems := s.responseItems ++ [item] },
        [⟨s.seq + 1, .outputTextDone s.openItemId ix s.textBuf⟩,
          ⟨s.seq + 2, .contentPartDone s.openItemId ix s.textBuf⟩,
          ⟨s.seq + 3, .outputItemDone ix item⟩]) := by
  simp only [closeTextualItem, reading, isOpen]
  rfl

theorem closeTextualItem_reasoning (isOpen : s.openKind = some .reasoning) :
    closeTextualItem s =
      let ix := s.openIndex.getD 0
      let item := OutputItem.reasoning s.openItemId (some s.reasonBuf)
      ({ s with
          openKind := none, openItemId := "", openIndex := none, seq := s.seq + 3
          responseItems := s.responseItems ++ [item] },
        [⟨s.seq + 1, .reasoningSummaryTextDone s.openItemId ix s.reasonBuf⟩,
          ⟨s.seq + 2, .reasoningSummaryPartDone s.openItemId ix s.reasonBuf⟩,
          ⟨s.seq + 3, .outputItemDone ix item⟩]) := by
  simp only [closeTextualItem, reading, isOpen]
  rfl

variable {opens : List Opening}

theorem closeTextualItem_closes
    (here : Mirrors opens s book) {kind : TextualKind} (isOpen : s.openKind = some kind) :
    Closes (s.openIndex.getD 0) closeTextualItem opens s book := by
  obtain ⟨before, split, index, there⟩ := here.text kind isOpen
  have bound : before.length < book.length := by
    rw [here.size, split]
    simp
  have last : opens[before.length]? = some (.textual kind) := by simp [split]
  -- the part both kinds of item share
  have closed (s' : StreamState) (next : s'.nextIndex = s.nextIndex)
      (tools : s'.toolItems = s.toolItems) (kind' : s'.openKind = none)
      (chain : s'.outputItems = s'.responseItems.filter (·.kind ≠ .reasoning)) :
      Mirrors opens s' (book.set before.length (s.textSlot kind).close) := by
    constructor
    · exact next.trans here.next
    · rw [kinds_set there (Slot.close_kind _), here.kinds]
    · rw [tools, here.keys]
    · rw [tools]
      exact here.unique
    · intro i ix called
      obtain ⟨ti, found, place, slot⟩ := here.calls i ix called
      have other : before.length ≠ i := by
        rintro rfl
        rw [last] at called
        cases called
      refine ⟨ti, by rw [toolItem, tools]; exact found, place, ?_⟩
      rw [List.getElem?_set_ne other]
      exact slot
    · intro k still
      rw [kind'] at still
      cases still
    · intro i k slot opened shown _
      by_cases same : i = before.length
      · subst same
        rw [List.getElem?_set_self bound] at shown
        cases shown
        rfl
      · rw [List.getElem?_set_ne (Ne.symm same)] at shown
        refine here.shut i k slot opened shown (.inr ?_)
        have inside := (List.getElem?_eq_some_iff.mp opened).1
        rw [split, List.length_append, List.length_singleton] at inside ⊢
        omega
    · exact chain
  constructor
  rw [index, Option.getD_some]
  refine ⟨s.textSlot kind, there, textSlot_final s kind, ?_⟩
  have done : (book.touch before.length (fun slot => slot.whole = (s.textSlot kind).whole) Slot.close) =
      some (book.set before.length (s.textSlot kind).close) :=
    Book.touch_eq there (textSlot_final s kind) (by simp)
  cases kind with
  | message =>
    have said : book.spoken .message s.openItemId before.length s.textBuf = some book :=
      Book.touch_same there rfl (by simp [StreamState.textSlot, Slot.is, Slot.said,
        OutputItem.kind, OutputItem.id])
    rw [closeTextualItem_message isOpen, index]
    refine ⟨?_, closed _ rfl rfl rfl ?_, rfl⟩
    · simp only [Book.readAll, Book.read, Option.getD_some, said, Option.bind_some]
      rw [Option.bind_fun_some]
      exact done
    · simp [here.chain, OutputItem.kind]
  | reasoning =>
    have said : book.spoken .reasoning s.openItemId before.length s.reasonBuf = some book :=
      Book.touch_same there rfl (by simp [StreamState.textSlot, Slot.is, Slot.said,
        OutputItem.kind, OutputItem.id])
    rw [closeTextualItem_reasoning isOpen, index]
    refine ⟨?_, closed _ rfl rfl rfl ?_, rfl⟩
    · simp only [Book.readAll, Book.read, Option.getD_some, said, Option.bind_some]
      rw [Option.bind_fun_some]
      exact done
    · simp [here.chain, OutputItem.kind]

theorem toolItem_updateTool (key index : Int) (f : ToolItem → ToolItem) :
    toolItem (updateTool key f s) index =
      if index = key then (toolItem s index).map f else toolItem s index := by
  simp only [toolItem, updateTool, List.find?_map]
  have same : ((fun e : Int × ToolItem => decide (e.1 = index)) ∘
      fun e => if e.1 = key then (e.1, f e.2) else e) = fun e => decide (e.1 = index) := by
    funext e
    simp only [Function.comp_apply]
    split <;> rfl
  rw [same]
  cases found : s.toolItems.find? (fun e => decide (e.1 = index)) with
  | none => simp
  | some e =>
    have is : e.1 = index := by simpa using List.find?_some found
    subst is
    simp only [Option.map_some]
    split <;> rfl

theorem Mirrors.update {s' : StreamState}
    (here : Mirrors opens s book) {key : Int} (found : toolItem s key = some ti)
    (f : ToolItem → ToolItem) (stays : (f ti).outputIndex = ti.outputIndex)
    (next : s'.nextIndex = s.nextIndex) (tools : s'.toolItems = (updateTool key f s).toolItems)
    (kind : s'.openKind = s.openKind) (index : s'.openIndex = s.openIndex)
    (text : ∀ kind, s'.textSlot kind = s.textSlot kind)
    (chain : s'.outputItems = s'.responseItems.filter (·.kind ≠ .reasoning)) :
    Mirrors opens s' (book.set ti.outputIndex (f ti).slot) := by
  obtain ⟨called, there⟩ := here.place found
  have bound := (List.getElem?_eq_some_iff.mp there).1
  have keys : s'.toolItems.map Prod.fst = s.toolItems.map Prod.fst := by
    rw [tools, updateTool, List.map_map]
    apply List.map_congr_left
    intro e _
    simp only [Function.comp_apply]
    split <;> rfl
  -- the textual items are elsewhere
  have apart {i : Nat} {k : TextualKind} (opened : opens[i]? = some (.textual k)) :
      ti.outputIndex ≠ i := by
    rintro rfl
    rw [called] at opened
    cases opened
  constructor
  · exact next.trans here.next
  · rw [kinds_set there (by simp), here.kinds]
  · rw [keys, here.keys]
  · rw [keys]
    exact here.unique
  · intro i ix opened
    obtain ⟨other, found', place, slot⟩ := here.calls i ix opened
    have now : toolItem s' ix = toolItem (updateTool key f s) ix := by rw [toolItem, toolItem, tools]
    rw [now, toolItem_updateTool]
    by_cases same : ix = key
    · subst same
      cases found.symm.trans found'
      subst place
      refine ⟨f ti, by simp [found], stays, ?_⟩
      exact List.getElem?_set_self bound
    · rw [if_neg same]
      refine ⟨other, found', place, ?_⟩
      have away : ti.outputIndex ≠ i := by
        rintro rfl
        rw [called] at opened
        cases opened
        exact same rfl
      rw [List.getElem?_set_ne away]
      exact slot
  · intro k isOpen
    rw [kind] at isOpen
    obtain ⟨before, split, at_, slot⟩ := here.text k isOpen
    refine ⟨before, split, index.trans at_, ?_⟩
    rw [List.getElem?_set_ne (apart (k := k) (by simp [split])), text]
    exact slot
  · intro i k slot opened shown
    rw [List.getElem?_set_ne (apart opened)] at shown
    rw [kind]
    exact here.shut i k slot opened shown
  · exact chain

theorem closeToolItem_open {key : Int}
    (found : toolItem s key = some ti) (isOpen : ti.isOpen = true) :
    closeToolItem key s =
      let args := if ti.args = "" then "\x7b\x7d" else ti.args
      let item := OutputItem.functionCall ti.itemId ti.callId ti.name args .completed
      ({ updateTool key shut s with
          seq := s.seq + 2
          outputItems := s.outputItems ++ [item], responseItems := s.responseItems ++ [item] },
        [⟨s.seq + 1, .functionCallArgumentsDone ti.itemId ti.outputIndex args⟩,
          ⟨s.seq + 2, .outputItemDone ti.outputIndex item⟩]) := by
  simp only [closeToolItem, reading, found, isOpen, Bool.not_true, Bool.false_eq_true, if_false]
  rfl

theorem closeToolItem_closes
    (here : Mirrors opens s book) {key : Int} (found : toolItem s key = some ti)
    (isOpen : ti.isOpen = true) : Closes ti.outputIndex (closeToolItem key) opens s book := by
  obtain ⟨-, there⟩ := here.place found
  have said : ti.slot.said = if ti.args = "" then "\x7b\x7d" else ti.args := by
    simp [ToolItem.slot, isOpen, Slot.said, OutputItem.kind]
  have whole : ti.slot.whole =
      .functionCall ti.itemId ti.callId ti.name (if ti.args = "" then "\x7b\x7d" else ti.args)
        .completed := by
    rw [← said]
    simp [ToolItem.slot, isOpen, Slot.whole]
  constructor
  refine ⟨ti.slot, there, toolSlot_open _ isOpen, ?_⟩
  rw [closeToolItem_open found isOpen]
  refine ⟨?_, ?_, by rw [whole]⟩
  · have spoken : book.spoken .functionCall ti.itemId ti.outputIndex
        (if ti.args = "" then "\x7b\x7d" else ti.args) = some book := by
      apply Book.touch_same there (toolSlot_open _ isOpen)
      rw [said]
      simp [ToolItem.slot, isOpen, Slot.is, OutputItem.kind, OutputItem.id]
    simp only [Book.readAll, Book.read, spoken, Option.bind_some]
    rw [Option.bind_fun_some]
    apply Book.touch_eq there (toolSlot_open _ isOpen)
    rw [whole]
    simp
  · rw [← toolSlot_shut ti isOpen]
    apply here.update found shut rfl
    · rfl
    · rfl
    · rfl
    · rfl
    · exact fun k => by cases k <;> rfl
    · simp [here.chain, OutputItem.kind]

theorem toolItem_of_mem (unique : (s.toolItems.map Prod.fst).Nodup)
    {e : Int × ToolItem} (mem : e ∈ s.toolItems) : toolItem s e.1 = some e.2 := by
  cases found : toolItem s e.1 with
  | none => exact absurd (List.mem_map.mpr ⟨e, mem, rfl⟩) (toolItem_eq_none.mp found)
  | some ti =>
    have same := Table.eq_of_key unique (mem_of_toolItem found) mem rfl
    rw [← same]

theorem closeItem_closes
    (here : Mirrors opens s book) {x : Nat × Option Int} (mem : x ∈ openItems s) :
    Closes x.1 (closeItem x) opens s book := by
  rcases mem_openItems_iff.mp mem with ⟨isOpen, rfl⟩ | ⟨e, there, isOpen, rfl⟩
  · obtain ⟨kind, is⟩ := Option.ne_none_iff_exists'.mp isOpen
    exact closeTextualItem_closes here is
  · exact closeToolItem_closes here (toolItem_of_mem here.unique there) isOpen

end Responses

end YunhouUsers.Inference.Providers
