import YunhouUsers.Inference.Providers.ResponsesBook

/-!
What each thing a chunk says does to the client's book, until a finish reason comes.
-/

namespace YunhouUsers.Inference.Providers

open Transducer

namespace Responses

theorem Mirrors.push {opens : List Opening} {s s' : StreamState} {book : Book}
    (here : Mirrors opens s book) (idle : s.openKind = none) {opening : Opening} {slot : Slot}
    (kind : slot.opened.kind = opening.kind) (next : s'.nextIndex = s.nextIndex + 1)
    (keys : s'.toolItems.map Prod.fst = s.toolItems.map Prod.fst ++ opening.index.toList)
    (unique : (s'.toolItems.map Prod.fst).Nodup)
    (old : ∀ index ti, toolItem s index = some ti → toolItem s' index = some ti)
    (called : ∀ index, opening = .call index →
      ∃ ti, toolItem s' index = some ti ∧ ti.outputIndex = opens.length ∧ slot = ti.slot)
    (text : ∀ kind, s'.openKind = some kind →
      opening = .textual kind ∧ s'.openIndex = some opens.length ∧ slot = s'.textSlot kind)
    (spoken : ∀ kind, opening = .textual kind → s'.openKind ≠ none)
    (chain : s'.outputItems = s'.responseItems.filter (·.kind ≠ .reasoning)) :
    Mirrors (opens ++ [opening]) s' (book ++ [slot]) := by
  have size := here.size
  constructor
  · simp [next, here.next]
  · simp [here.kinds, kind]
  · rw [keys, here.keys, List.filterMap_append]
    cases opening <;> rfl
  · exact unique
  · intro i index opened
    by_cases inside : i < opens.length
    · rw [List.getElem?_append_left inside] at opened
      obtain ⟨ti, found, place, shown⟩ := here.calls i index opened
      refine ⟨ti, old index ti found, place, ?_⟩
      rw [List.getElem?_append_left (by omega)]
      exact shown
    · have last : i = opens.length := by
        have := (List.getElem?_eq_some_iff.mp opened).1
        simp only [List.length_append, List.length_singleton] at this
        omega
      subst last
      rw [List.getElem?_concat_length, Option.some.injEq] at opened
      obtain ⟨ti, found, place, rfl⟩ := called index opened
      refine ⟨ti, found, place, ?_⟩
      rw [← size, List.getElem?_concat_length]
  · intro k isOpen
    obtain ⟨rfl, index, rfl⟩ := text k isOpen
    refine ⟨opens, rfl, index, ?_⟩
    rw [← size, List.getElem?_concat_length]
  · intro i k slot' opened shown closed
    by_cases inside : i < opens.length
    · rw [List.getElem?_append_left inside] at opened
      rw [List.getElem?_append_left (by omega)] at shown
      exact here.shut i k slot' opened shown (.inl idle)
    · exfalso
      have last : i = opens.length := by
        have := (List.getElem?_eq_some_iff.mp opened).1
        simp only [List.length_append, List.length_singleton] at this
        omega
      subst last
      rw [List.getElem?_concat_length, Option.some.injEq] at opened
      rcases closed with none | earlier
      · exact spoken k opened none
      · simp at earlier
  · exact chain

structure Runs (opens : List Opening) (active : Option TextualKind) (s : StreamState) (book : Book) :
    Prop where
  mirrors : Mirrors opens s book
  kind : s.openKind = active
  running : ∀ e ∈ s.toolItems, e.2.isOpen = true
  response : s.responseItems = book.filterMap Slot.final

section Steps

variable {opens : List Opening} {active : Option TextualKind} {s : StreamState} {book : Book}

theorem concat_of_getElem? {n : Nat} {slot : Slot} (there : book[n]? = some slot)
    (size : book.length = n + 1) : ∃ front, book = front ++ [slot] ∧ front.length = n := by
  rcases List.eq_nil_or_concat book with rfl | ⟨front, last, rfl⟩
  · cases there
  · rw [List.concat_eq_append, List.length_append, List.length_singleton,
      Nat.add_right_cancel_iff] at size
    subst size
    rw [List.concat_eq_append, List.getElem?_concat_length, Option.some.injEq] at there
    subst there
    exact ⟨front, List.concat_eq_append, rfl⟩

theorem Runs.closeTextualItem (here : Runs opens active s book) :
    ∃ book', book.readAll (closeTextualItem s).2 = some book' ∧
      Runs opens none (closeTextualItem s).1 book' := by
  obtain ⟨shut, tools, -⟩ := closeTextualItem_spec s
  cases isOpen : s.openKind with
  | none =>
    have nothing : Responses.closeTextualItem s = (s, []) := by
      simp only [Responses.closeTextualItem, reading, isOpen]
      rfl
    rw [nothing]
    exact ⟨book, rfl, here.mirrors, isOpen, here.running, here.response⟩
  | some kind =>
    obtain ⟨before, split, index, there⟩ := here.mirrors.text kind isOpen
    obtain ⟨slot, at_, isOpen', reads, mirrors, response⟩ :=
      (closeTextualItem_closes here.mirrors isOpen).closes
    refine ⟨_, reads, mirrors, shut, tools ▸ here.running, ?_⟩
    -- the last entry of the book is the one that is closed
    rw [index, Option.getD_some] at at_ ⊢
    obtain ⟨front, rfl, length⟩ := concat_of_getElem? at_ (by rw [here.mirrors.size, split]; simp)
    rw [response, here.response, ← length, List.set_append_right _ _ (Nat.le_refl _)]
    simp [isOpen', Slot.close]

theorem addTextualItem_eq (kind : TextualKind) (s : StreamState) :
    ∃ id, addTextualItem kind s =
      ({ s with
          openKind := some kind, openIndex := some s.nextIndex, nextIndex := s.nextIndex + 1
          textBuf := "", reasonBuf := "", openItemId := id, drawn := s.drawn + 1, seq := s.seq + 2 },
        match kind with
        | .message =>
          [⟨s.seq + 1, .outputItemAdded s.nextIndex (.message id .inProgress none)⟩,
            ⟨s.seq + 2, .contentPartAdded id s.nextIndex⟩]
        | .reasoning =>
          [⟨s.seq + 1, .outputItemAdded s.nextIndex (.reasoning id none)⟩,
            ⟨s.seq + 2, .reasoningSummaryPartAdded id s.nextIndex⟩]) := by
  cases kind with
  | message => exact ⟨_, rfl⟩
  | reasoning => exact ⟨_, rfl⟩

theorem Runs.addTextualItem (here : Runs opens none s book) (kind : TextualKind) :
    ∃ book', book.readAll (addTextualItem kind s).2 = some book' ∧
      Runs (opens ++ [.textual kind]) (some kind) (addTextualItem kind s).1 book' := by
  obtain ⟨id, eq⟩ := addTextualItem_eq kind s
  have next : s.nextIndex = book.length := here.mirrors.next.trans here.mirrors.size.symm
  rw [eq]
  refine ⟨book ++ [(Responses.addTextualItem kind s).1.textSlot kind], ?_, ?_, rfl, here.running, ?_⟩
  · have part (slot : Slot) (fits : slot.is kind.item id = true) (fresh : slot.final = none)
        (empty : slot.text = "") : (book ++ [slot]).part kind.item id s.nextIndex =
          some (book ++ [slot]) := by
      have there : (book ++ [slot])[s.nextIndex]? = some slot := by
        rw [next, List.getElem?_concat_length]
      exact Book.touch_same there fresh (by simp [fits, empty])
    rw [eq]
    cases kind with
    | message =>
      simp only [Book.readAll, Book.read, next, OutputItem.blank, decide_true, Bool.and_self,
        and_self, if_true, Option.bind_some]
      rw [Option.bind_fun_some, ← next]
      exact part _ (by simp [Slot.is, OutputItem.kind, OutputItem.id, TextualKind.item]) rfl rfl
    | reasoning =>
      simp only [Book.readAll, Book.read, next, OutputItem.blank, decide_true, and_self, if_true,
        Option.bind_some]
      rw [Option.bind_fun_some, ← next]
      exact part _ (by simp [Slot.is, OutputItem.kind, OutputItem.id, TextualKind.item]) rfl rfl
  · rw [eq]
    apply here.mirrors.push here.kind
    · exact textSlot_kind _ kind
    · rfl
    · exact (List.append_nil _).symm
    · exact here.mirrors.unique
    · exact fun _ _ found => found
    · exact fun _ impossible => by cases impossible
    · intro k isOpen
      cases isOpen
      exact ⟨rfl, congrArg some here.mirrors.next, rfl⟩
    · exact fun _ _ closed => by cases closed
    · exact here.mirrors.chain
  · simp [here.response]

theorem Runs.openToolItem (here : Runs opens none s book) (tc : ToolCallDelta)
    (new : .call tc.index ∉ opens) :
    ∃ book', book.readAll (openToolItem tc s).2 = some book' ∧
      Runs (opens ++ [.call tc.index]) none (openToolItem tc s).1 book' := by
  have next : s.nextIndex = book.length := here.mirrors.next.trans here.mirrors.size.symm
  have absent := toolItem_eq_none.mp ((here.mirrors.toolItem_iff tc.index).mpr new)
  have missing : s.toolItems.find? (fun e => decide (e.1 = tc.index)) = none := by
    have none_ := (here.mirrors.toolItem_iff tc.index).mpr new
    rwa [toolItem, Option.map_eq_none_iff] at none_
  refine ⟨book ++ [(⟨s.newPublicId "fc_" s.drawn, s.nextIndex, tc.id, tc.name, "", true⟩ :
    ToolItem).slot], ?_, ?_, here.kind, ?_, ?_⟩
  · simp only [Responses.openToolItem, reading, seq, set, send, List.nil_append, Book.readAll,
      Book.read, next, OutputItem.blank, decide_true, Bool.and_self, and_self, if_true]
    rfl
  · apply here.mirrors.push here.kind
    · exact toolSlot_kind _
    · rfl
    · simp [Responses.openToolItem, reading, seq, set, send, Opening.index]
    · simp only [Responses.openToolItem, reading, seq, set, send, List.map_append, List.map_cons,
        List.map_nil]
      exact List.concat_eq_append ▸ here.mirrors.unique.concat absent
    · intro index ti found
      obtain ⟨e, is, rfl⟩ := Option.map_eq_some_iff.mp found
      simp [toolItem, Responses.openToolItem, reading, seq, set, send, List.find?_append, is]
    · rintro index ⟨⟩
      refine ⟨_, ?_, here.mirrors.next, rfl⟩
      simp [toolItem, Responses.openToolItem, reading, seq, set, send, List.find?_append, missing]
    · intro k isOpen
      rw [show (Responses.openToolItem tc s).1.openKind = s.openKind from rfl, here.kind] at isOpen
      cases isOpen
    · exact fun _ impossible => by cases impossible
    · exact here.mirrors.chain
  · intro e mem
    have mem : e ∈ s.toolItems ++ [(tc.index, _)] := mem
    rcases List.mem_append.mp mem with old | new
    · exact here.running e old
    · rw [List.mem_singleton.mp new]
  · simp [Responses.openToolItem, reading, seq, set, send, here.response, ToolItem.slot]

theorem filterMap_final_set {i : Nat} {old new : Slot} (there : book[i]? = some old)
    (was : old.final = none) (is : new.final = none) :
    (book.set i new).filterMap Slot.final = book.filterMap Slot.final := by
  induction book generalizing i with
  | nil => rfl
  | cons slot book ih =>
    cases i with
    | zero =>
      cases there
      simp [was, is]
    | succ i => simp only [List.set_cons_succ, List.filterMap_cons, ih there]

theorem Runs.words {kind : TextualKind} (here : Runs opens (some kind) s book) (s' : StreamState)
    (text : String)
    (next : s'.nextIndex = s.nextIndex) (tools : s'.toolItems = s.toolItems)
    (kind' : s'.openKind = s.openKind) (index : s'.openIndex = s.openIndex)
    (outputs : s'.outputItems = s.outputItems) (response : s'.responseItems = s.responseItems)
    (slot : s'.textSlot kind =
      { s.textSlot kind with text := (s.textSlot kind).text ++ text }) :
    ∃ book', book.delta kind.item s.openItemId (s.openIndex.getD 0) text = some book' ∧
      Runs opens (some kind) s' book' := by
  obtain ⟨before, split, at_, there⟩ := here.mirrors.text kind here.kind
  have bound := (List.getElem?_eq_some_iff.mp there).1
  have last : opens[before.length]? = some (.textual kind) := by simp [split]
  rw [at_, Option.getD_some]
  refine ⟨book.set before.length (s'.textSlot kind), ?_, ?_, kind'.trans here.kind,
    tools ▸ here.running, ?_⟩
  · rw [slot]
    apply Book.touch_eq there (textSlot_final s kind)
    cases kind <;> simp [StreamState.textSlot, Slot.is, OutputItem.kind, OutputItem.id,
      TextualKind.item]
  · constructor
    · exact next.trans here.mirrors.next
    · rw [kinds_set there (by simp), here.mirrors.kinds]
    · rw [tools, here.mirrors.keys]
    · rw [tools]
      exact here.mirrors.unique
    · intro i ix called
      obtain ⟨ti, found, place, shown⟩ := here.mirrors.calls i ix called
      have other : before.length ≠ i := by
        rintro rfl
        rw [last] at called
        cases called
      refine ⟨ti, by rw [toolItem, tools]; exact found, place, ?_⟩
      rw [List.getElem?_set_ne other]
      exact shown
    · intro k isOpen
      rw [kind', here.kind, Option.some.injEq] at isOpen
      subst isOpen
      exact ⟨before, split, index.trans at_, List.getElem?_set_self bound⟩
    · intro i k shown opened is closed
      have earlier : i + 1 < opens.length := by
        rcases closed with none | earlier
        · rw [kind', here.kind] at none
          cases none
        · exact earlier
      have other : before.length ≠ i := by
        rw [split, List.length_append, List.length_singleton] at earlier
        omega
      rw [List.getElem?_set_ne other] at is
      exact here.mirrors.shut i k shown opened is (.inr earlier)
    · rw [outputs, response, here.mirrors.chain]
  · rw [response, here.response, filterMap_final_set there (textSlot_final s kind)
      (textSlot_final s' kind)]

theorem Runs.emitArguments (here : Runs opens active s book) (tc : ToolCallDelta)
    (known : .call tc.index ∈ opens) :
    ∃ book', book.readAll (emitArguments tc s).2 = some book' ∧
      Runs opens active (emitArguments tc s).1 book' := by
  unfold Responses.emitArguments
  split
  · exact ⟨book, rfl, here⟩
  · obtain ⟨ti, found⟩ : ∃ ti, toolItem s tc.index = some ti := by
      apply Option.ne_none_iff_exists'.mp
      intro missing
      exact (here.mirrors.toolItem_iff tc.index).mp missing known
    have isOpen : ti.isOpen = true := here.running _ (mem_of_toolItem found)
    obtain ⟨-, there⟩ := here.mirrors.place found
    rw [found]
    refine ⟨book.set ti.outputIndex
      ({ ti with args := ti.args ++ tc.arguments } : ToolItem).slot, ?_, ?_, here.kind, ?_, ?_⟩
    · simp only [seq, set, send, List.nil_append, Book.readAll, Book.read]
      rw [Option.bind_fun_some, Book.delta, Book.touch_eq there (toolSlot_open _ isOpen)]
      · simp [ToolItem.slot, isOpen]
      · simp [ToolItem.slot, isOpen, Slot.is, OutputItem.kind, OutputItem.id]
    · apply here.mirrors.update found (fun ti => { ti with args := ti.args ++ tc.arguments }) rfl
      · rfl
      · rfl
      · rfl
      · rfl
      · exact fun k => by cases k <;> rfl
      · exact here.mirrors.chain
    · intro e mem
      obtain ⟨old, there, rfl⟩ := List.mem_map.mp mem
      split
      · exact here.running old there
      · exact here.running old there
    · exact here.response.trans
        (filterMap_final_set there (toolSlot_open ti isOpen)
          (toolSlot_open { ti with args := ti.args ++ tc.arguments } isOpen)).symm

def current (opens : List Opening) : Option TextualKind := opens.getLast?.bind Opening.textualKind

theorem current_concat (opens : List Opening) (opening : Opening) :
    current (opens ++ [opening]) = opening.textualKind := by
  simp [current]

theorem current_iff {opens : List Opening} {kind : TextualKind} :
    current opens = some kind ↔ opens.getLast? = some (.textual kind) := by
  rw [current, Option.bind_eq_some_iff]
  constructor
  · rintro ⟨opening, last, is⟩
    cases opening with
    | textual k => cases is; exact last
    | call index => cases is
  · exact fun last => ⟨_, last, rfl⟩

theorem Runs.openTextualItem (here : Runs opens (current opens) s book) (kind : TextualKind)
    {text : String} (nonempty : text ≠ "") :
    ∃ book', book.readAll (openTextualItem kind s).2 = some book' ∧
      Runs (opensNext.speaks opens text kind) (some kind) (openTextualItem kind s).1 book' ∧
      current (opensNext.speaks opens text kind) = some kind := by
  unfold Responses.openTextualItem opensNext.speaks
  by_cases same : current opens = some kind
  · rw [if_pos (here.kind.trans same), if_pos (.inr (current_iff.mp same))]
    exact ⟨book, rfl, same ▸ here, same⟩
  · rw [if_neg (fun is => same (here.kind.symm.trans is)),
      if_neg (not_or.mpr ⟨nonempty, fun last => same (current_iff.mpr last)⟩), current_concat]
    obtain ⟨book₁, reads₁, closed⟩ := here.closeTextualItem
    obtain ⟨book₂, reads₂, opened⟩ := closed.addTextualItem kind
    refine ⟨book₂, ?_, opened, rfl⟩
    rw [seq, Book.readAll_append, reads₁]
    exact reads₂

theorem Runs.item (here : Runs opens (current opens) s book) {item : Item}
    (going : item.finishOf = none) :
    ∃ book', book.readAll (renderItem item s).2 = some book' ∧
      Runs (opensNext opens item) (current (opensNext opens item)) (renderItem item s).1 book' := by
  cases item with
  | thinking text =>
    by_cases empty : text = ""
    · simp only [renderItem, opensNext, opensNext.speaks, empty, true_or, if_true, ne_eq,
        not_true_eq_false, if_false]
      exact ⟨book, rfl, here⟩
    · obtain ⟨book₁, reads₁, opened, is⟩ := here.openTextualItem .reasoning empty
      obtain ⟨book₂, reads₂, spoken⟩ := opened.words (renderReasoning text s).1 text
        rfl rfl rfl rfl rfl rfl rfl
      simp only [renderItem, opensNext, ne_eq, empty, not_false_eq_true, if_true, is]
      refine ⟨book₂, ?_, spoken⟩
      simp only [renderReasoning, seq, set, reading, send, List.nil_append, Book.readAll_append,
        reads₁, Option.bind_some, Book.readAll, Book.read]
      rw [Option.bind_fun_some]
      exact reads₂
  | text text =>
    by_cases empty : text = ""
    · simp only [renderItem, opensNext, opensNext.speaks, empty, true_or, if_true, ne_eq,
        not_true_eq_false, if_false]
      exact ⟨book, rfl, here⟩
    · obtain ⟨book₁, reads₁, opened, is⟩ := here.openTextualItem .message empty
      obtain ⟨book₂, reads₂, spoken⟩ := opened.words (renderContent text s).1 text
        rfl rfl rfl rfl rfl rfl rfl
      simp only [renderItem, opensNext, ne_eq, empty, not_false_eq_true, if_true, is]
      refine ⟨book₂, ?_, spoken⟩
      simp only [renderContent, seq, set, reading, send, List.nil_append, Book.readAll_append,
        reads₁, Option.bind_some, Book.readAll, Book.read]
      rw [Option.bind_fun_some]
      exact reads₂
  | tool tc =>
    simp only [renderItem, renderToolDelta, opensNext]
    by_cases known : .call tc.index ∈ opens
    · rw [if_pos known]
      obtain ⟨ti, found⟩ : ∃ ti, toolItem s tc.index = some ti := by
        apply Option.ne_none_iff_exists'.mp
        intro missing
        exact (here.mirrors.toolItem_iff tc.index).mp missing known
      rw [found]
      exact here.emitArguments tc known
    · rw [if_neg known, (here.mirrors.toolItem_iff tc.index).mpr known, current_concat]
      obtain ⟨book₁, reads₁, closed⟩ := here.closeTextualItem
      obtain ⟨book₂, reads₂, opened⟩ := closed.openToolItem tc known
      obtain ⟨book₃, reads₃, spoken⟩ := opened.emitArguments tc (by simp)
      refine ⟨book₃, ?_, spoken⟩
      simp [seq, Book.readAll_append, reads₁, reads₂, reads₃]
  | finish reason => cases going

end Steps

end Responses

end YunhouUsers.Inference.Providers
