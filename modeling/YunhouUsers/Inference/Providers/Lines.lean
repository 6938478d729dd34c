import YunhouUsers.Inference.Providers.MessagesStream

/-!
What the pump hears of a source, however it is cut into reads: every line within the cap, and of a
longer line what is left after the last read in which it overflows.
-/

namespace YunhouUsers.Inference.Providers

def encodeLines (lines : List Bytes) : Bytes := lines.flatMap (fun l => l ++ [newline])

def Plain (line : Bytes) : Prop := newline ∉ line ∧ line.length ≤ trackLineCap

theorem encodeLines_cons (l : Bytes) (lines : List Bytes) :
    encodeLines (l :: lines) = l ++ newline :: encodeLines lines := by
  simp [encodeLines]

variable {lines : List Bytes}

theorem start_of_line {start rest : Bytes} (free : newline ∉ start)
    (same : start ++ rest = encodeLines lines) :
    (start = [] ∧ rest = [] ∧ lines = []) ∨
      ∃ l more, lines = l :: more ∧ ∃ others, l = start ++ others ∧
        rest = others ++ newline :: encodeLines more := by
  cases lines with
  | nil =>
    obtain ⟨rfl, rfl⟩ := List.append_eq_nil_iff.mp same
    exact .inl ⟨rfl, rfl, rfl⟩
  | cons l more =>
    refine .inr ⟨l, more, rfl, ?_⟩
    rw [encodeLines_cons] at same
    rcases List.append_eq_append_iff.mp same with ⟨others, rfl, eq⟩ | ⟨over_, rfl, eq⟩
    · exact ⟨others, rfl, eq⟩
    · cases over_ with
      | nil => exact ⟨[], by simp, by simpa using eq.symm⟩
      | cons b over_ =>
        have first : b = newline := (List.cons.inj eq).1.symm
        simp [first] at free

/-! Lines in the pieces in which the reads deliver them. -/

/-- A complete line; `pieces` came with earlier reads. -/
structure CutLine where
  pieces : List Bytes
  last : Bytes
deriving DecidableEq

def CutLine.bytes (l : CutLine) : Bytes := l.pieces.flatten ++ l.last

def CutLine.whole (l : CutLine) : Bool := l.bytes.length ≤ trackLineCap

def keep (pending piece : Bytes) : Bytes :=
  if trackLineCap < pending.length + piece.length then [] else pending ++ piece

def CutLine.rest (l : CutLine) : Option Bytes :=
  let pending := l.pieces.foldl keep []
  if trackLineCap < pending.length + l.last.length then none else some (pending ++ l.last)

def linesFrom (pieces : List Bytes) (segment : Bytes) : Bytes → List CutLine × List Bytes
  | [] => ([], pieces ++ [segment])
  | b :: rest =>
    if b = newline then
      (⟨pieces, segment⟩ :: (linesFrom [] [] rest).1, (linesFrom [] [] rest).2)
    else linesFrom pieces (segment ++ [b]) rest

def cutLines : List Bytes → List Bytes → List CutLine
  | _, [] => []
  | pieces, read :: reads => (linesFrom pieces [] read).1 ++ cutLines (linesFrom pieces [] read).2 reads

theorem linesFrom_bytes {read rest : Bytes} (pieces : List Bytes)
    (segment : Bytes) (plain : ∀ l ∈ lines, newline ∉ l) (free : newline ∉ pieces.flatten ++ segment)
    (same : (pieces.flatten ++ segment) ++ (read ++ rest) = encodeLines lines) :
    ∃ done todo, lines = done ++ todo ∧
      (linesFrom pieces segment read).1.map CutLine.bytes = done ∧
      newline ∉ (linesFrom pieces segment read).2.flatten ∧
      (linesFrom pieces segment read).2.flatten ++ rest = encodeLines todo := by
  induction read generalizing pieces segment lines with
  | nil =>
    refine ⟨[], lines, rfl, rfl, ?_⟩
    simp only [linesFrom, List.flatten_append, List.flatten_singleton]
    exact ⟨free, by simpa using same⟩
  | cons b read ih =>
    rw [linesFrom]
    split
    · rename_i ends
      subst ends
      rcases start_of_line free same with ⟨_, impossible, _⟩ | ⟨l, more, rfl, others, line, eq⟩
      · cases impossible
      -- the newline just read is the one that ends the line
      have exact : others = [] := by
        cases others with
        | nil => rfl
        | cons c others =>
          have first : newline = c := (List.cons.inj eq).1
          have := plain l List.mem_cons_self
          simp [line, first] at this
      subst exact
      rw [List.append_nil] at line
      have after : ([] : List Bytes).flatten ++ [] ++ (read ++ rest) = encodeLines more :=
        (List.cons.inj eq).2
      obtain ⟨done, todo, rfl, out, free', same'⟩ := ih [] []
        (fun l mem => plain l (List.mem_cons_of_mem _ mem)) (by simp) after
      refine ⟨l :: done, todo, rfl, ?_, free', same'⟩
      rw [List.map_cons, out, line]
      rfl
    · rename_i inside
      have free' : newline ∉ pieces.flatten ++ (segment ++ [b]) := by
        simpa [eq_comm, inside] using free
      have same' : pieces.flatten ++ (segment ++ [b]) ++ (read ++ rest) = encodeLines lines := by
        simpa using same
      exact ih pieces (segment ++ [b]) plain free' same'

variable {reads : List Bytes}

theorem cutLines_bytes_from (pieces : List Bytes)
    (plain : ∀ l ∈ lines, newline ∉ l) (free : newline ∉ pieces.flatten)
    (same : pieces.flatten ++ reads.flatten = encodeLines lines) :
    (cutLines pieces reads).map CutLine.bytes = lines := by
  induction reads generalizing pieces lines with
  | nil =>
    rcases start_of_line free same with ⟨_, _, rfl⟩ | ⟨l, more, rfl, others, _, eq⟩
    · rfl
    · simp at eq
  | cons read reads ih =>
    have split : (pieces.flatten ++ []) ++ (read ++ reads.flatten) = encodeLines lines := by
      simpa using same
    obtain ⟨done, todo, rfl, out, free', same'⟩ :=
      linesFrom_bytes pieces [] plain (by simpa using free) split
    rw [cutLines, List.map_append, out,
      ih _ (fun l mem => plain l (List.mem_append_right _ mem)) free' same']

theorem cutLines_bytes (plain : ∀ l ∈ lines, newline ∉ l)
    (same : reads.flatten = encodeLines lines) : (cutLines [] reads).map CutLine.bytes = lines :=
  cutLines_bytes_from [] plain (by simp) same

theorem foldl_keep {pieces : List Bytes} {pending : Bytes}
    (short : (pending ++ pieces.flatten).length ≤ trackLineCap) :
    pieces.foldl keep pending = pending ++ pieces.flatten := by
  induction pieces generalizing pending with
  | nil => simp
  | cons piece pieces ih =>
    simp only [List.flatten_cons, List.length_append] at short
    have kept : keep pending piece = pending ++ piece := if_neg (by omega)
    rw [List.foldl_cons, kept, ih (by simp only [List.length_append]; omega)]
    simp

theorem CutLine.rest_of_whole {l : CutLine} (whole : l.whole = true) : l.rest = some l.bytes := by
  have short : (l.pieces.flatten ++ l.last).length ≤ trackLineCap := by
    simpa [CutLine.whole, CutLine.bytes] using whole
  rw [List.length_append] at short
  have kept : l.pieces.foldl keep [] = l.pieces.flatten := by
    rw [foldl_keep (by rw [List.nil_append]; omega), List.nil_append]
  rw [CutLine.rest, kept, if_neg (by omega)]
  rfl

variable (unmarshal : Bytes → Option OpenAIStreamChunk)

def CutLine.scan (l : CutLine) : Option PumpEvent := l.rest.bind (scanLine unmarshal)

theorem feedFrom_eq (pieces : List Bytes) (segment read : Bytes) :
    feedFrom unmarshal (pieces.foldl keep []) segment read =
      ((linesFrom pieces segment read).1.filterMap (CutLine.scan unmarshal),
        (linesFrom pieces segment read).2.foldl keep []) := by
  induction read generalizing pieces segment with
  | nil => simp [feedFrom, linesFrom, keep]
  | cons b read ih =>
    rw [feedFrom, linesFrom]
    split
    · have rest := ih [] []
      rw [List.foldl_nil] at rest
      rw [rest, List.filterMap_cons]
      simp only [CutLine.scan, CutLine.rest]
      split
      · rfl
      · rw [Option.bind_some]
        cases scanLine unmarshal (pieces.foldl keep [] ++ segment) <;> rfl
    · exact ih pieces (segment ++ [b])

theorem pump_eq_from (pieces reads : List Bytes) :
    pump unmarshal (pieces.foldl keep []) reads =
      (cutLines pieces reads).filterMap (CutLine.scan unmarshal) := by
  induction reads generalizing pieces with
  | nil => rfl
  | cons read reads ih =>
    rw [pump, feed, feedFrom_eq, cutLines, List.filterMap_append, ← ih]

theorem pump_eq (reads : List Bytes) :
    pump unmarshal [] reads = (cutLines [] reads).filterMap (CutLine.scan unmarshal) :=
  pump_eq_from unmarshal [] reads

theorem pump_lines (plain : ∀ l ∈ lines, Plain l) (same : reads.flatten = encodeLines lines) :
    pump unmarshal [] reads = lines.filterMap (scanLine unmarshal) := by
  have bytes := cutLines_bytes (fun l mem => (plain l mem).1) same
  rw [pump_eq, ← bytes, List.filterMap_map]
  apply List.filterMap_congr
  intro l mem
  have short := (plain l.bytes (bytes ▸ List.mem_map_of_mem mem)).2
  have whole : l.whole = true := by simpa [CutLine.whole] using short
  simp [CutLine.scan, CutLine.rest_of_whole whole]

end YunhouUsers.Inference.Providers
