import YunhouUsers.Inference.Providers.UsageTracker

/-!
How the cuts between reads show in what the tracker and the pump make of a stream.

A line that overflows in a read without its newline is dropped with that read, and what follows of
it is then taken for a line of its own.
-/

namespace YunhouUsers.Inference.Providers

open Accounting

def terminatedFrom (line : Bytes) : Bytes → List Bytes
  | [] => []
  | b :: rest =>
    if b = newline then line :: terminatedFrom [] rest else terminatedFrom (line ++ [b]) rest

def terminated (stream : Bytes) : List Bytes := terminatedFrom [] stream

def kept (lines : List Bytes) : List Bytes := lines.filter (·.length ≤ trackLineCap)

def Exposed (line tail : Bytes) : Prop :=
  ∃ k, trackLineCap < k ∧ k ≤ line.length ∧ tail = line.drop k ∧ tail.length ≤ trackLineCap

theorem terminatedFrom_read (pieces : List Bytes) (segment read rest : Bytes) :
    terminatedFrom (pieces.flatten ++ segment) (read ++ rest) =
      (linesFrom pieces segment read).1.map CutLine.bytes ++
        terminatedFrom (linesFrom pieces segment read).2.flatten rest := by
  induction read generalizing pieces segment with
  | nil => simp [linesFrom]
  | cons b read ih =>
    rw [List.cons_append, terminatedFrom, linesFrom]
    by_cases ends : b = newline
    · rw [if_pos ends, if_pos ends, List.map_cons, List.cons_append, ← ih [] []]
      rfl
    · rw [if_neg ends, if_neg ends, ← ih pieces (segment ++ [b]), List.append_assoc]

theorem terminatedFrom_reads (pieces reads : List Bytes) :
    terminatedFrom pieces.flatten reads.flatten = (cutLines pieces reads).map CutLine.bytes := by
  induction reads generalizing pieces with
  | nil => rfl
  | cons read reads ih =>
    have first := terminatedFrom_read pieces [] read reads.flatten
    rw [List.append_nil] at first
    rw [List.flatten_cons, first, cutLines, List.map_append, ih]

variable {stream : Bytes}

theorem cutLines_terminated {reads : List Bytes} (same : reads.flatten = stream) :
    (cutLines [] reads).map CutLine.bytes = terminated stream := by
  rw [← terminatedFrom_reads, same]
  rfl

/-! What is scanned of a cut line. -/

theorem foldl_keep_cases (pieces : List Bytes) :
    pieces.foldl keep [] = pieces.flatten ∨
      ∃ k, trackLineCap < k ∧ k ≤ pieces.flatten.length ∧
        pieces.foldl keep [] = pieces.flatten.drop k := by
  induction pieces using List.reverseRecOn with
  | nil => exact .inl rfl
  | append_singleton pieces piece ih =>
    simp only [List.foldl_append, List.foldl_cons, List.foldl_nil, List.flatten_append,
      List.flatten_singleton, keep]
    by_cases over_ : trackLineCap < (pieces.foldl keep []).length + piece.length
    · rw [if_pos over_]
      refine .inr ⟨(pieces.flatten ++ piece).length, ?_, Nat.le_refl _, by simp⟩
      have shorter : (pieces.foldl keep []).length ≤ pieces.flatten.length := by
        rcases ih with whole | ⟨k, _, _, tail⟩
        · rw [whole]
        · rw [tail, List.length_drop]
          exact Nat.sub_le ..
      rw [List.length_append]
      omega
    · rw [if_neg over_]
      rcases ih with whole | ⟨k, far, inside, tail⟩
      · exact .inl (by rw [whole])
      · refine .inr ⟨k, far, ?_, ?_⟩
        · rw [List.length_append]
          omega
        · rw [tail, List.drop_append_of_le_length inside]

theorem CutLine.rest_cases (l : CutLine) :
    (l.bytes.length ≤ trackLineCap ∧ l.rest = some l.bytes) ∨
      trackLineCap < l.bytes.length ∧
        (l.rest = none ∨ ∃ tail, l.rest = some tail ∧ Exposed l.bytes tail) := by
  by_cases short : l.bytes.length ≤ trackLineCap
  · exact .inl ⟨short, rest_of_whole (by simpa [whole] using short)⟩
  · refine .inr ⟨Nat.lt_of_not_le short, ?_⟩
    by_cases over_ : trackLineCap < (l.pieces.foldl keep []).length + l.last.length
    · exact .inl (if_pos over_)
    · have scanned : l.rest = some (l.pieces.foldl keep [] ++ l.last) := if_neg over_
      refine .inr ⟨_, scanned, ?_⟩
      rcases foldl_keep_cases l.pieces with all | ⟨k, far, inside, tail⟩
      · rw [bytes, List.length_append] at short
        rw [all] at over_
        omega
      · refine ⟨k, far, ?_, ?_, ?_⟩
        · rw [bytes, List.length_append]
          omega
        · rw [tail, bytes, List.drop_append_of_le_length inside]
        · rw [List.length_append]
          omega

/-! Every tail is exposed by some cut. -/

theorem linesFrom_part {part : Bytes} (free : newline ∉ part) (pieces : List Bytes)
    (segment : Bytes) : linesFrom pieces segment part = ([], pieces ++ [segment ++ part]) := by
  induction part generalizing segment with
  | nil => simp [linesFrom]
  | cons b part ih =>
    obtain ⟨other, free⟩ := not_or.mp (List.mem_cons.not.mp free)
    rw [linesFrom, if_neg (Ne.symm other), ih free, List.append_assoc]
    rfl

variable {line : Bytes}

theorem linesFrom_line (free : newline ∉ line) (pieces : List Bytes) (segment rest : Bytes) :
    linesFrom pieces segment (line ++ newline :: rest) =
      (⟨pieces, segment ++ line⟩ :: (linesFrom [] [] rest).1, (linesFrom [] [] rest).2) := by
  induction line generalizing segment with
  | nil => simp [linesFrom]
  | cons b line ih =>
    obtain ⟨other, free⟩ := not_or.mp (List.mem_cons.not.mp free)
    rw [List.cons_append, linesFrom, if_neg (Ne.symm other), ih free, List.append_assoc]
    rfl

theorem linesFrom_encode {lines : List Bytes} (free : ∀ l ∈ lines, newline ∉ l) (rest : Bytes) :
    linesFrom [] [] (encodeLines lines ++ rest) =
      (lines.map (CutLine.mk []) ++ (linesFrom [] [] rest).1, (linesFrom [] [] rest).2) := by
  induction lines with
  | nil => rfl
  | cons l lines ih =>
    obtain ⟨first, free⟩ := List.forall_mem_cons.mp free
    rw [encodeLines_cons, List.append_assoc, List.cons_append, linesFrom_line first, ih free]
    rfl

theorem linesFrom_uncut (segment read : Bytes) :
    ∀ l ∈ (linesFrom [] segment read).1, l.pieces = [] := by
  induction read generalizing segment with
  | nil => simp [linesFrom]
  | cons b read ih =>
    rw [linesFrom]
    by_cases ends : b = newline
    · rw [if_pos ends]
      exact List.forall_mem_cons.mpr ⟨rfl, ih []⟩
    · rw [if_neg ends]
      exact ih (segment ++ [b])

variable {lines : List CutLine}

theorem rests_of_uncut (uncut : ∀ l ∈ lines, l.pieces = []) :
    lines.filterMap CutLine.rest = kept (lines.map CutLine.bytes) := by
  induction lines with
  | nil => rfl
  | cons l lines ih =>
    obtain ⟨first, others⟩ := List.forall_mem_cons.mp uncut
    obtain ⟨_, last⟩ := l
    cases first
    have bytes : (⟨[], last⟩ : CutLine).bytes = last := rfl
    rw [List.map_cons, bytes, kept, List.filterMap_cons, List.filter_cons, ← kept, ← ih others]
    by_cases short : last.length ≤ trackLineCap
    · have rest : (⟨[], last⟩ : CutLine).rest = some last := by
        rw [CutLine.rest_of_whole (by simpa [CutLine.whole, bytes] using short), bytes]
      simp [rest, short]
    · have rest : (⟨[], last⟩ : CutLine).rest = none := by
        simp [CutLine.rest, Nat.lt_of_not_le short]
      simp [rest, short]

theorem rests_of_single (stream : Bytes) :
    (cutLines [] [stream]).filterMap CutLine.rest = kept (terminated stream) := by
  have same : [stream].flatten = stream := List.flatten_singleton
  rw [← cutLines_terminated same]
  apply rests_of_uncut
  simpa [cutLines] using linesFrom_uncut [] stream

theorem terminatedFrom_split {start : Bytes} {pre post : List Bytes}
    (free : newline ∉ start) (lines : terminatedFrom start stream = pre ++ line :: post) :
    ∃ after, start ++ stream = encodeLines pre ++ (line ++ newline :: after) ∧
      terminated after = post ∧ newline ∉ line ∧ ∀ l ∈ pre, newline ∉ l := by
  induction stream generalizing start pre with
  | nil => simp [terminatedFrom] at lines
  | cons b stream ih =>
    rw [terminatedFrom] at lines
    by_cases ends : b = newline
    · rw [if_pos ends] at lines
      cases pre with
      | nil =>
        obtain ⟨rfl, rfl⟩ := List.cons.inj lines
        exact ⟨stream, by simp [encodeLines, ends], rfl, free, by simp⟩
      | cons l pre =>
        obtain ⟨rfl, behind⟩ := List.cons.inj lines
        obtain ⟨after, same, rest, inner, others⟩ := ih List.not_mem_nil behind
        refine ⟨after, ?_, rest, inner, List.forall_mem_cons.mpr ⟨free, others⟩⟩
        rw [List.nil_append] at same
        rw [encodeLines_cons, List.append_assoc, List.cons_append, ← same, ends]
    · rw [if_neg ends] at lines
      obtain ⟨after, same, parts⟩ := ih (by simp [free, Ne.symm ends]) lines
      exact ⟨after, by rw [← same]; simp, parts⟩

theorem rests_of_exposing {tail : Bytes} {pre post : List Bytes}
    (lines : terminated stream = pre ++ line :: post) (exposed : Exposed line tail) :
    ∃ reads, reads.flatten = stream ∧
      (cutLines [] reads).filterMap CutLine.rest = kept pre ++ tail :: kept post := by
  obtain ⟨after, same, rfl, free, others⟩ := terminatedFrom_split (by simp) lines
  obtain ⟨k, far, inside, rfl, short⟩ := exposed
  have freeTake : newline ∉ line.take k := fun mem => free (List.mem_of_mem_take mem)
  have freeDrop : newline ∉ line.drop k := fun mem => free (List.mem_of_mem_drop mem)
  refine ⟨[encodeLines pre ++ line.take k, line.drop k ++ newline :: after], ?_, ?_⟩
  · rw [List.nil_append] at same
    simp only [List.flatten_cons, List.flatten_nil, List.append_nil, List.append_assoc, same]
    rw [← List.append_assoc (line.take k), List.take_append_drop]
  · have uncut : (pre.map (CutLine.mk [])).filterMap CutLine.rest = kept pre := by
      rw [rests_of_uncut (by simp), List.map_map]
      congr 1
      exact List.map_id pre
    have dropped : keep [] (line.take k) = [] := if_pos (by
      rw [List.length_take, List.length_nil]
      omega)
    have tail : (⟨[line.take k], line.drop k⟩ : CutLine).rest = some (line.drop k) := by
      simp only [CutLine.rest, List.foldl_cons, List.foldl_nil, dropped, List.length_nil,
        List.nil_append]
      rw [if_neg (by omega)]
    have behind := rests_of_single after
    simp only [cutLines, List.append_nil] at behind
    simp only [cutLines, linesFrom_encode others, linesFrom_part freeTake, linesFrom_line freeDrop,
      List.nil_append, List.append_nil, List.filterMap_append, List.filterMap_cons, uncut, tail,
      behind]

/-! When the cuts do not show. -/

theorem pump_rests (unmarshal : Bytes → Option OpenAIStreamChunk) (reads : List Bytes) :
    pump unmarshal [] reads =
      ((cutLines [] reads).filterMap CutLine.rest).filterMap (scanLine unmarshal) := by
  rw [pump_eq, List.filterMap_filterMap]
  rfl

variable (unmarshal : Bytes → Option OpenAIStreamChunk) (decode : Bytes → Option TrackedChunk)

/-- No exposed tail of the lines is an event of the pump or carries content, and one that carries
usage is followed by a usage within the cap or repeats the last one before it. -/
structure Inert (lines : List Bytes) : Prop where
  silent : ∀ line ∈ lines, ∀ tail, Exposed line tail →
    scanLine unmarshal tail = none ∧ served decode tail = 0
  usage : ∀ pre line post, lines = pre ++ line :: post → ∀ tail, Exposed line tail →
    ∀ u, reported decode tail = some u →
      (∃ l ∈ kept post, reported decode l ≠ none) ∨ lastUsage decode none (kept pre) = some u

theorem ends_of_silent {unmarshal : Bytes → Option OpenAIStreamChunk}
    (silent : scanLine unmarshal line = none) : ends line = false := by
  unfold scanLine at silent
  unfold ends
  by_cases data : (ascii "data:").isPrefixOf line = true
  · by_cases done : trimSpace (line.drop 5) = ascii "[DONE]"
    · simp [data, done] at silent
    · simp [done]
  · simp [data]

theorem lastUsage_append (usage : Option UsageBuckets) (lines lines' : List Bytes) :
    lastUsage decode usage (lines ++ lines') =
      lastUsage decode (lastUsage decode usage lines) lines' := by
  rw [lastUsage, List.foldl_append]
  rfl

theorem lastUsage_silent {lines : List Bytes} (silent : ¬ ∃ l ∈ lines, reported decode l ≠ none)
    (u : Option UsageBuckets) : lastUsage decode u lines = u := by
  induction lines with
  | nil => rfl
  | cons l lines ih =>
    simp only [List.mem_cons, exists_eq_or_imp, not_or, not_not] at silent
    rw [lastUsage_cons, silent.1, Option.none_or]
    exact ih silent.2

theorem kept_append (lines lines' : List Bytes) :
    kept (lines ++ lines') = kept lines ++ kept lines' := List.filter_append ..

theorem kept_short (short : line.length ≤ trackLineCap) (lines : List Bytes) :
    kept (line :: lines) = line :: kept lines := by
  simp [kept, short]

theorem kept_long (long : trackLineCap < line.length) (lines : List Bytes) :
    kept (line :: lines) = kept lines := by
  simp [kept, Nat.not_le.mpr long]

theorem Exposed.long {tail : Bytes} (exposed : Exposed line tail) : trackLineCap < line.length := by
  obtain ⟨k, far, inside, _⟩ := exposed
  omega

theorem rests_of_silent
    (silent : ∀ l ∈ lines, ∀ tail, Exposed l.bytes tail →
      scanLine unmarshal tail = none ∧ served decode tail = 0) :
    let scanned := lines.filterMap CutLine.rest
    let whole := kept (lines.map CutLine.bytes)
    scanned.filterMap (scanLine unmarshal) = whole.filterMap (scanLine unmarshal) ∧
      scanned.any ends = whole.any ends ∧
      (scanned.map (served decode)).sum = (whole.map (served decode)).sum := by
  induction lines with
  | nil => simp [kept]
  | cons l lines ih =>
    obtain ⟨first, others⟩ := List.forall_mem_cons.mp silent
    obtain ⟨events, marks, bytes⟩ := ih others
    dsimp only
    rw [List.map_cons, List.filterMap_cons]
    rcases l.rest_cases with ⟨short, rest⟩ | ⟨long, rest | ⟨tail, rest, exposed⟩⟩
    · rw [rest, kept_short short]
      simp only [List.filterMap_cons, List.any_cons, List.map_cons, List.sum_cons, events, marks,
        bytes, and_self]
    · rw [rest, kept_long long]
      exact ⟨events, marks, bytes⟩
    · obtain ⟨quiet, nothing⟩ := first tail exposed
      rw [rest, kept_long long]
      simp only [List.filterMap_cons, List.any_cons, List.map_cons, List.sum_cons, quiet, nothing,
        ends_of_silent quiet, Bool.false_or, Nat.zero_add]
      exact ⟨events, marks, bytes⟩

theorem rests_usage {u v : Option UsageBuckets}
    (catch_ : u = v ∨ ∃ l ∈ kept (lines.map CutLine.bytes), reported decode l ≠ none)
    (inert : ∀ pre line post, lines.map CutLine.bytes = pre ++ line :: post → ∀ tail,
      Exposed line tail → ∀ w, reported decode tail = some w →
        (∃ l ∈ kept post, reported decode l ≠ none) ∨ lastUsage decode v (kept pre) = some w) :
    lastUsage decode u (lines.filterMap CutLine.rest) =
      lastUsage decode v (kept (lines.map CutLine.bytes)) := by
  induction lines generalizing u v with
  | nil =>
    rcases catch_ with rfl | later
    · rfl
    · simp [kept] at later
  | cons l lines ih =>
    rw [List.map_cons] at catch_ inert ⊢
    rw [List.filterMap_cons]
    rcases l.rest_cases with ⟨short, rest⟩ | ⟨long, rest | ⟨tail, rest, exposed⟩⟩
    · rw [kept_short short] at catch_ ⊢
      rw [rest]
      simp only [lastUsage_cons]
      apply ih
      · rcases catch_ with rfl | ⟨l', mem, some_⟩
        · exact .inl rfl
        · rcases List.mem_cons.mp mem with rfl | mem
          · obtain ⟨w, is⟩ := Option.ne_none_iff_exists'.mp some_
            exact .inl (by rw [is, Option.some_or, Option.some_or])
          · exact .inr ⟨l', mem, some_⟩
      · intro pre line post split
        have := inert (l.bytes :: pre) line post (by rw [split]; rfl)
        rwa [kept_short short] at this
    · rw [kept_long long] at catch_ ⊢
      rw [rest]
      refine ih catch_ fun pre line post split => ?_
      have := inert (l.bytes :: pre) line post (by rw [split]; rfl)
      rwa [kept_long long] at this
    · rw [kept_long long] at catch_ ⊢
      rw [rest]
      simp only [lastUsage_cons]
      apply ih
      · cases is : reported decode tail with
        | none => exact catch_
        | some w =>
          rcases inert [] l.bytes _ rfl tail exposed w is with later | same
          · exact .inr later
          · exact .inl same.symm
      · intro pre line post split
        have := inert (l.bytes :: pre) line post (by rw [split]; rfl)
        rwa [kept_long long] at this

/-- The figures and the events are the same for all cuts of a stream, those of its lines within the
cap, exactly when its exposed tails are inert. -/
theorem segmentation_free_iff (stream : Bytes) :
    ((∀ reads reads', reads.flatten = stream → reads'.flatten = stream →
        (track decode reads).figures = (track decode reads').figures ∧
          pump unmarshal [] reads = pump unmarshal [] reads') ∧
      ∀ reads, reads.flatten = stream →
        (track decode reads).figures = (meter decode {} (kept (terminated stream))).figures ∧
          pump unmarshal [] reads =
            (kept (terminated stream)).filterMap (scanLine unmarshal)) ↔
      Inert unmarshal decode (terminated stream) := by
  constructor
  · rintro ⟨-, whole⟩
    have exposing {pre post : List Bytes} {line tail : Bytes}
        (split : terminated stream = pre ++ line :: post) (exposed : Exposed line tail) :
        (meter decode {} (kept pre ++ tail :: kept post)).figures =
            (meter decode {} (kept pre ++ kept post)).figures ∧
          (kept pre ++ tail :: kept post).filterMap (scanLine unmarshal) =
            (kept pre ++ kept post).filterMap (scanLine unmarshal) := by
      obtain ⟨reads, same, rests⟩ := rests_of_exposing split exposed
      have := whole reads same
      rwa [track_eq, pump_rests, rests, split, kept_append, kept_long exposed.long] at this
    refine ⟨?_, ?_⟩
    · intro line mem tail exposed
      obtain ⟨pre, post, split⟩ := List.append_of_mem mem
      obtain ⟨figures, events⟩ := exposing split exposed
      obtain ⟨-, -, bytes⟩ := (meter_figures_eq_iff decode).mp figures
      constructor
      · simp only [List.filterMap_append, List.filterMap_cons] at events
        cases event : scanLine unmarshal tail with
        | none => rfl
        | some e => simp [event] at events
      · simp only [List.map_append, List.map_cons, List.sum_append, List.sum_cons] at bytes
        omega
    · intro pre line post split tail exposed u is
      obtain ⟨figures, -⟩ := exposing split exposed
      obtain ⟨usage, -, -⟩ := (meter_figures_eq_iff decode).mp figures
      by_cases later : ∃ l ∈ kept post, reported decode l ≠ none
      · exact .inl later
      · rw [lastUsage_append, lastUsage_append, lastUsage_silent decode later] at usage
        rw [lastUsage_cons, is, Option.some_or, lastUsage_silent decode later] at usage
        exact .inr usage.symm
  · intro inert
    have whole (reads : List Bytes) (same : reads.flatten = stream) :
        (track decode reads).figures = (meter decode {} (kept (terminated stream))).figures ∧
          pump unmarshal [] reads =
            (kept (terminated stream)).filterMap (scanLine unmarshal) := by
      have lines := cutLines_terminated same
      rw [← lines] at inert ⊢
      have silent : ∀ l ∈ cutLines [] reads, ∀ tail, Exposed l.bytes tail →
          scanLine unmarshal tail = none ∧ served decode tail = 0 :=
        fun l mem => inert.silent l.bytes (List.mem_map_of_mem mem)
      obtain ⟨events, marks, bytes⟩ := rests_of_silent unmarshal decode silent
      rw [track_eq, pump_rests, meter_figures_eq_iff]
      exact ⟨⟨rests_usage decode (.inl rfl) inert.usage, marks, bytes⟩, events⟩
    refine ⟨fun reads reads' same same' => ?_, whole⟩
    rw [(whole reads same).1, (whole reads same).2, (whole reads' same').1, (whole reads' same').2]
    exact ⟨rfl, rfl⟩

/-- A line of more than 64 KiB that ends like the end marker: read at once it is dropped, cut before
its end it finishes the stream. -/
theorem overlong_line_finishes_stream :
    let start : Bytes := List.replicate (trackLineCap + 1) 120
    let end_ := ascii "data: [DONE]" ++ [newline]
    [start ++ end_].flatten = [start, end_].flatten ∧
      pump (fun _ => none) [] [start ++ end_] = [] ∧
      pump (fun _ => none) [] [start, end_] = [.done] ∧
      (track (fun _ => none) [start ++ end_]).terminal = false ∧
      (track (fun _ => none) [start, end_]).terminal = true := by
  intro start end_
  have free : newline ∉ start := by
    intro mem
    exact absurd (List.eq_of_mem_replicate mem) (by decide)
  have free' : newline ∉ ascii "data: [DONE]" := by decide
  have length : start.length = trackLineCap + 1 := List.length_replicate
  have once : (cutLines [] [start ++ end_]).filterMap CutLine.rest = [] := by
    have line : start ++ end_ = (start ++ ascii "data: [DONE]") ++ newline :: [] := by simp [end_]
    have long : trackLineCap < start.length + (ascii "data: [DONE]").length := by omega
    rw [line, cutLines, linesFrom_line (by simp [free, free'])]
    simp [cutLines, linesFrom, CutLine.rest, long]
  have cut : (cutLines [] [start, end_]).filterMap CutLine.rest = [ascii "data: [DONE]"] := by
    have dropped : keep [] start = [] := if_pos (by rw [length, List.length_nil]; omega)
    have rest : (⟨[start], ascii "data: [DONE]"⟩ : CutLine).rest = some (ascii "data: [DONE]") := by
      rw [CutLine.rest, List.foldl_cons, List.foldl_nil, dropped]
      decide
    simp only [cutLines, linesFrom_part free, List.nil_append]
    rw [linesFrom_line free', List.nil_append, List.append_nil, List.filterMap_cons, rest]
    rfl
  refine ⟨by simp, ?_, ?_, ?_, ?_⟩
  · rw [pump_rests, once]
    rfl
  · rw [pump_rests, cut]
    decide
  · rw [track_eq, once]
    rfl
  · rw [track_eq, cut]
    decide

end YunhouUsers.Inference.Providers
