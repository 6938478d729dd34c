import YunhouUsers.Inference.Providers.ResponsesItems

/-!
The end of a Responses stream: which output the final response lists, and in which order.
-/

namespace YunhouUsers.Inference.Providers

open Transducer

namespace Responses

section Closing

variable {opens : List Opening} {s : StreamState} {book : Book}

theorem stays_open (here : Mirrors opens s book) {x y : Nat × Option Int} (first : x ∈ openItems s)
    (mem : y ∈ openItems s) (other : y ≠ x) : y ∈ openItems (closeItem x s).1 := by
  rw [mem_openItems_iff]
  rcases mem_openItems_iff.mp first with ⟨-, rfl⟩ | ⟨e, there, isOpen, rfl⟩
  · obtain ⟨-, tools, -⟩ := closeTextualItem_spec s
    rcases mem_openItems_iff.mp mem with ⟨-, rfl⟩ | still
    · exact absurd rfl other
    · right
      rw [show (closeItem (s.openIndex.getD 0, none) s).1.toolItems = s.toolItems from tools]
      exact still
  · have eq := closeToolItem_open (toolItem_of_mem here.unique there) isOpen
    rw [closeItem, eq]
    rcases mem_openItems_iff.mp mem with textual | ⟨e', there', isOpen', rfl⟩
    · exact .inl textual
    · right
      have apart : e'.1 ≠ e.1 := by
        intro same
        rw [Table.eq_of_key here.unique there' there same] at other
        exact other rfl
      refine ⟨e', List.mem_map.mpr ⟨e', there', if_neg apart⟩, isOpen', rfl⟩

theorem closeItems_reads (items : List (Nat × Option Int)) (here : Mirrors opens s book)
    (nodup : items.Nodup) (isOpen : ∀ x ∈ items, x ∈ openItems s) :
    ∃ book', book.readAll (each closeItem items s).2 = some book' ∧
      Mirrors opens (each closeItem items s).1 book' ∧
      book'.map Slot.whole = book.map Slot.whole ∧
      (each closeItem items s).1.responseItems =
        s.responseItems ++ items.filterMap (fun x => (book.map Slot.whole)[x.1]?) := by
  induction items generalizing s book with
  | nil => exact ⟨book, rfl, here, rfl, (List.append_nil _).symm⟩
  | cons x items ih =>
    obtain ⟨first, rest⟩ := List.forall_mem_cons.mp isOpen
    obtain ⟨fresh, nodup⟩ := List.nodup_cons.mp nodup
    obtain ⟨slot, there, -, reads, mirrors, response⟩ := (closeItem_closes here first).closes
    have wholes : (book.set x.1 slot.close).map Slot.whole = book.map Slot.whole := by
      obtain ⟨bound, rfl⟩ := List.getElem?_eq_some_iff.mp there
      rw [List.map_set, Slot.close_whole, ← List.getElem_map (f := Slot.whole)]
      · exact List.set_getElem_self _
      · simpa using bound
    obtain ⟨book', reads', mirrors', wholes', response'⟩ := ih mirrors nodup fun y mem =>
      stays_open here first (rest y mem) fun same => fresh (same ▸ mem)
    refine ⟨book', ?_, mirrors', wholes'.trans wholes, ?_⟩
    · rw [each_cons, seq, Book.readAll_append, reads]
      exact reads'
    · rw [each_cons, seq, response', response, wholes]
      simp [there]

theorem openItems_nodup (here : Mirrors opens s book) :
    (openItems s).Nodup ∧ ((openItems s).map Prod.fst).Nodup := by
  have nodup : (openItems s).Nodup := by
    unfold openItems
    rw [(List.perm_insertionSort _ _).nodup_iff]
    apply List.Nodup.of_map Prod.snd
    rw [List.map_append, List.map_map, List.map_map]
    have keys : ((s.toolItems.filter (fun e => e.2.isOpen)).map
        (Prod.snd ∘ fun e : Int × ToolItem => (e.2.outputIndex, some e.1))).Nodup := by
      have some_ := (here.unique.sublist ((List.filter_sublist (p := fun e => e.2.isOpen)).map _)).map
        (Option.some_injective Int)
      rwa [List.map_map] at some_
    rw [List.nodup_append]
    refine ⟨?_, keys, ?_⟩
    · cases s.openKind <;> simp
    · rintro _ first _ second rfl
      obtain ⟨_, -, rfl⟩ := List.mem_map.mp first
      obtain ⟨_, -, is⟩ := List.mem_map.mp second
      cases is
  refine ⟨nodup, nodup.map_on ?_⟩
  -- an output index belongs to one item
  intro x mem y mem' same
  rcases mem_openItems_iff.mp mem with ⟨isOpen, rfl⟩ | ⟨e, there, -, rfl⟩
  · rcases mem_openItems_iff.mp mem' with ⟨-, rfl⟩ | ⟨e', there', -, rfl⟩
    · rfl
    · obtain ⟨kind, is⟩ := Option.ne_none_iff_exists'.mp isOpen
      obtain ⟨before, split, index, -⟩ := here.text kind is
      have called := (here.place (toolItem_of_mem here.unique there')).1
      rw [show e'.2.outputIndex = before.length by simpa [index] using same.symm] at called
      simp [split] at called
  · have called := (here.place (toolItem_of_mem here.unique there)).1
    rcases mem_openItems_iff.mp mem' with ⟨isOpen, rfl⟩ | ⟨e', there', -, rfl⟩
    · obtain ⟨kind, is⟩ := Option.ne_none_iff_exists'.mp isOpen
      obtain ⟨before, split, index, -⟩ := here.text kind is
      rw [show e.2.outputIndex = before.length by simpa [index] using same] at called
      simp [split] at called
    · have called' := (here.place (toolItem_of_mem here.unique there')).1
      rw [← show e.2.outputIndex = e'.2.outputIndex from same, called] at called'
      rw [Table.eq_of_key here.unique there there' (Opening.call.inj (Option.some.inj called'))]

theorem Mirrors.opened (here : Mirrors opens s book) {i : Nat} {slot : Slot}
    (there : book[i]? = some slot) : ∃ opening, opens[i]? = some opening :=
  ⟨_, List.getElem?_eq_getElem (here.size ▸ (List.getElem?_eq_some_iff.mp there).1)⟩

theorem mem_openItems_fst (here : Mirrors opens s book) (i : Nat) :
    i ∈ (openItems s).map Prod.fst ↔ ∃ slot, book[i]? = some slot ∧ slot.final = none := by
  constructor
  · intro mem
    obtain ⟨x, listed, rfl⟩ := List.mem_map.mp mem
    obtain ⟨slot, there, isOpen, -⟩ := (closeItem_closes here listed).closes
    exact ⟨slot, there, isOpen⟩
  · rintro ⟨slot, there, isOpen⟩
    obtain ⟨opening, opened⟩ := here.opened there
    cases opening with
    | textual kind =>
      cases is : s.openKind with
      | none =>
        rw [here.shut i kind slot opened there (.inl is)] at isOpen
        cases isOpen
      | some kind' =>
        obtain ⟨before, split, index, -⟩ := here.text kind' is
        have last : i = before.length := by
          by_contra other
          have bound := (List.getElem?_eq_some_iff.mp opened).1
          rw [split, List.length_append, List.length_singleton] at bound
          rw [here.shut i kind slot opened there (.inr (by rw [split]; simp; omega))] at isOpen
          cases isOpen
        refine List.mem_map.mpr ⟨(s.openIndex.getD 0, none), ?_, by simp [index, last]⟩
        exact mem_openItems_iff.mpr (.inl ⟨by simp [is], rfl⟩)
    | call key =>
      obtain ⟨ti, found, rfl, shown⟩ := here.calls i key opened
      cases there.symm.trans shown
      have running : ti.isOpen = true := by
        by_contra shut
        simp [ToolItem.slot, shut, Slot.close] at isOpen
      refine List.mem_map.mpr ⟨(ti.outputIndex, some key), ?_, rfl⟩
      exact mem_openItems_iff.mpr (.inr ⟨(key, ti), mem_of_toolItem found, running, rfl⟩)

theorem openItems_fst (here : Mirrors opens s book) :
    (openItems s).map Prod.fst =
      (List.range book.length).filter (fun i => book[i]?.any (·.final.isNone)) := by
  apply List.Perm.eq_of_pairwise' (r := fun a b => a ≤ b)
  · rw [List.pairwise_map]
    exact List.pairwise_insertionSort (fun a b : Nat × Option Int => a.1 ≤ b.1) _
  · exact (List.pairwise_lt_range.imp fun less => Nat.le_of_lt less).filter _
  · rw [List.perm_ext_iff_of_nodup (openItems_nodup here).2 (List.nodup_range.filter _)]
    intro i
    rw [mem_openItems_fst here, List.mem_filter, List.mem_range]
    constructor
    · rintro ⟨slot, there, isOpen⟩
      exact ⟨(List.getElem?_eq_some_iff.mp there).1, by simp [there, isOpen]⟩
    · rintro ⟨bound, isOpen⟩
      rw [List.getElem?_eq_getElem bound] at isOpen ⊢
      exact ⟨_, rfl, by simpa using isOpen⟩

theorem filterMap_range {α β : Type} (xs : List α) (p : α → Bool) (w : α → β) :
    ((List.range xs.length).filter (fun i => xs[i]?.any p)).filterMap (fun i => (xs.map w)[i]?) =
      (xs.filter p).map w := by
  induction xs with
  | nil => rfl
  | cons x xs ih =>
    rw [List.length_cons, List.range_succ_eq_map, List.filter_cons, List.filter_map, List.filter_cons]
    simp only [List.getElem?_cons_zero, Option.any_some, Function.comp_def, List.getElem?_cons_succ]
    split
    · rw [List.filterMap_cons, List.filterMap_map]
      exact congrArg (fun rest => w x :: rest) ih
    · rw [List.filterMap_map]
      exact ih

theorem closeOpenItem_reads (here : Mirrors opens s book) :
    ∃ book', book.readAll (closeOpenItem s).2 = some book' ∧
      Mirrors opens (closeOpenItem s).1 book' ∧
      book'.map Slot.whole = book.map Slot.whole ∧
      (closeOpenItem s).1.responseItems =
        s.responseItems ++ (book.filter (·.final.isNone)).map Slot.whole := by
  obtain ⟨book', reads, mirrors, wholes, response⟩ :=
    closeItems_reads (openItems s) here (openItems_nodup here).1 fun _ mem => mem
  refine ⟨book', reads, mirrors, wholes, response.trans ?_⟩
  rw [← filterMap_range, ← openItems_fst here, List.filterMap_map]
  rfl

theorem Mirrors.finished (here : Mirrors opens s book) (closed : Closed s) :
    ∀ slot ∈ book, slot.final = some slot.whole := by
  intro slot mem
  obtain ⟨i, there⟩ := List.mem_iff_getElem?.mp mem
  obtain ⟨opening, opened⟩ := here.opened there
  cases opening with
  | textual kind =>
    exact here.shut i kind slot opened there (.inl closed.1)
  | call key =>
    obtain ⟨ti, found, rfl, shown⟩ := here.calls i key opened
    cases there.symm.trans shown
    have shut : ti.isOpen = false := closed.2 _ (mem_of_toolItem found)
    simp [ToolItem.slot, shut, Slot.close, Slot.whole, Slot.said]

end Closing

/-- No message and no reasoning is opened after a call, unless it is the last item of all. -/
def Ordered (opens : List Opening) : Prop :=
  opens.dropLast.Pairwise (fun a b => a.kind = .functionCall → b.kind = .functionCall)

instance (opens : List Opening) : Decidable (Ordered opens) :=
  inferInstanceAs (Decidable (List.Pairwise _ _))

theorem filter_append_filter_iff {α : Type} (q : α → Bool) (xs : List α) :
    xs.filter q ++ xs.filter (fun x => !q x) = xs ↔
      xs.Pairwise (fun a b => q a = false → q b = false) := by
  induction xs with
  | nil => simp
  | cons x xs ih =>
    rw [List.pairwise_cons]
    cases is : q x with
    | true => simp [is, ih]
    | false =>
      have none_ : xs.filter q = [] ↔ ∀ b ∈ xs, q b = false := by simp
      simp only [List.filter_cons, is, Bool.false_eq_true, if_false, Bool.not_false, if_true,
        true_implies]
      constructor
      · intro same
        cases moved : xs.filter q with
        | nil =>
          have all := none_.mp moved
          exact ⟨all, List.pairwise_iff_forall_sublist.mpr fun sub _ => all _ (sub.subset (by simp))⟩
        | cons y ys =>
          have front : y ∈ xs.filter q := by simp [moved]
          rw [moved, List.cons_append] at same
          rw [(List.cons.inj same).1] at front
          rw [(List.mem_filter.mp front).2] at is
          cases is
      · rintro ⟨all, -⟩
        rw [none_.mpr all, List.nil_append]
        congr 1
        exact List.filter_eq_self.mpr fun b mem => by simp [all b mem]

section Last

variable {front : List Opening} {opening : Opening} {s : StreamState} {slots : List Slot}
  {last : Slot}
  (here : Runs (front ++ [opening]) (current (front ++ [opening])) s (slots ++ [last]))

include here

theorem Runs.kinds_before : slots.map (·.opened.kind) = front.map Opening.kind := by
  have kinds := here.mirrors.kinds
  simp only [List.map_append, List.map_cons, List.map_nil] at kinds
  exact (List.append_inj' kinds rfl).1

theorem Runs.length_before : slots.length = front.length := by
  simpa using congrArg List.length here.kinds_before

theorem Runs.last_open : last.final = none := by
  have length := here.length_before
  cases opening with
  | textual kind =>
    obtain ⟨before, split, -, there⟩ := here.mirrors.text kind (here.kind.trans (current_concat _ _))
    have same := List.append_inj_left' split rfl
    rw [← same, ← length, List.getElem?_concat_length, Option.some.injEq] at there
    rw [there]
    exact textSlot_final s kind
  | call key =>
    obtain ⟨ti, found, -, there⟩ := here.mirrors.calls front.length key List.getElem?_concat_length
    rw [← length, List.getElem?_concat_length, Option.some.injEq] at there
    rw [there]
    exact toolSlot_open ti (here.running _ (mem_of_toolItem found))

theorem Runs.shut_before : ∀ slot ∈ slots, slot.final =
    if slot.opened.kind = .functionCall then none else some slot.whole := by
  have length := here.length_before
  intro slot mem
  obtain ⟨i, there⟩ := List.mem_iff_getElem?.mp mem
  have bound := (List.getElem?_eq_some_iff.mp there).1
  have shown : (slots ++ [last])[i]? = some slot := by rw [List.getElem?_append_left bound, there]
  obtain ⟨opening', opened⟩ : ∃ o, front[i]? = some o :=
    ⟨_, List.getElem?_eq_getElem (length ▸ bound)⟩
  have opened' : (front ++ [opening])[i]? = some opening' := by
    rw [List.getElem?_append_left (length ▸ bound), opened]
  have kind : slot.opened.kind = opening'.kind := by
    have at_ := congrArg (fun xs : List ItemKind => xs[i]?) here.kinds_before
    simpa [List.getElem?_map, there, opened] using at_
  cases opening' with
  | textual k =>
    have textual : slot.opened.kind ≠ .functionCall := by
      rw [kind]
      cases k <;> simp [Opening.kind, TextualKind.item]
    rw [if_neg textual]
    apply here.mirrors.shut i k slot opened' shown
    right
    rw [List.length_append, List.length_singleton]
    omega
  | call key =>
    rw [if_pos (show slot.opened.kind = .functionCall from kind)]
    obtain ⟨ti, found, -, is⟩ := here.mirrors.calls i key opened'
    cases shown.symm.trans is
    exact toolSlot_open ti (here.running _ (mem_of_toolItem found))

end Last

def OutputItem.textual (item : OutputItem) : Bool := item.kind ≠ .functionCall

theorem Runs.ordered_iff {opens : List Opening} {s : StreamState} {book : Book}
    (here : Runs opens (current opens) s book) :
    book.filterMap Slot.final ++ (book.filter (·.final.isNone)).map Slot.whole =
      book.map Slot.whole ↔ Ordered opens := by
  have size := here.mirrors.size
  rcases List.eq_nil_or_concat opens with rfl | ⟨front, opening, rfl⟩
  · rw [List.length_nil, List.length_eq_zero_iff] at size
    subst size
    exact iff_of_true rfl .nil
  rw [List.concat_eq_append] at here size ⊢
  rcases List.eq_nil_or_concat book with rfl | ⟨slots, last, rfl⟩
  · simp at size
  rw [List.concat_eq_append] at here ⊢
  have early : slots.filterMap Slot.final = (slots.map Slot.whole).filter OutputItem.textual := by
    rw [List.filter_map, ← List.filterMap_eq_map, ← List.filterMap_eq_filter,
      List.filterMap_filterMap]
    apply List.filterMap_congr
    intro slot mem
    rw [here.shut_before slot mem]
    by_cases call : slot.opened.kind = .functionCall <;>
      simp [call, OutputItem.textual, Option.guard, Slot.whole_kind]
  have late : (slots.filter (·.final.isNone)).map Slot.whole =
      (slots.map Slot.whole).filter (fun item => !item.textual) := by
    rw [List.filter_map]
    congr 1
    apply List.filter_congr
    intro slot mem
    rw [here.shut_before slot mem]
    by_cases call : slot.opened.kind = .functionCall <;>
      simp [call, OutputItem.textual, Slot.whole_kind]
  have kinds : (slots.map Slot.whole).map OutputItem.kind = front.map Opening.kind := by
    rw [← here.kinds_before, List.map_map]
    exact List.map_congr_left fun slot _ => slot.whole_kind
  rw [List.filterMap_append, List.filter_append, List.map_append, List.map_append, early, late]
  simp only [List.filterMap_cons, here.last_open, List.filterMap_nil, List.append_nil,
    List.filter_cons, Option.isNone_none, if_true, List.filter_nil]
  rw [← List.append_assoc, List.append_left_inj, filter_append_filter_iff]
  unfold Ordered
  rw [List.dropLast_concat, ← List.pairwise_map (f := Opening.kind)
    (R := fun a b => a = ItemKind.functionCall → b = ItemKind.functionCall), ← kinds,
    List.pairwise_map (f := OutputItem.kind)]
  simp [OutputItem.textual]

end Responses

end YunhouUsers.Inference.Providers
