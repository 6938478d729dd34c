import Mathlib.Data.List.Infix
import YunhouUsers.Inference.Accounting.Pricing
import YunhouUsers.Inference.Providers.Lines

/-!
The tracker that meters an OpenAI stream as its bytes pass (`OpenAIUsageTracker` of
`providers/stream_usage.go`).  Decoding of JSON payloads is a parameter.
-/

namespace YunhouUsers.Inference.Providers

open Accounting

structure TapResult where
  buckets : UsageBuckets := {}
  raw : Bytes := []
  sawUsage : Bool := false
  terminal : Bool := false
  contentBytes : Nat := 0
deriving DecidableEq

def TapResult.figures (r : TapResult) : UsageBuckets × Bool × Bool × Nat :=
  (r.buckets, r.sawUsage, r.terminal, r.contentBytes)

structure TrackedDelta where
  content : String := ""
  reasoningContent : String := ""
deriving DecidableEq

structure TrackedChunk where
  choices : List TrackedDelta := []
  usage : Option OpenAIUsage := none
deriving DecidableEq

def TrackedDelta.bytes (d : TrackedDelta) : Nat :=
  d.content.utf8ByteSize + d.reasoningContent.utf8ByteSize

def OpenAIUsage.buckets (u : OpenAIUsage) : UsageBuckets :=
  { inputTokens := u.promptTokens
    cacheReadTokens := u.cachedTokens
    cacheWriteTokens := u.cacheCreationTokens
    outputTokens := u.completionTokens
    reasoningTokens := u.reasoningTokens }

def wanted (line : Bytes) : Bool :=
  decide (ascii "\"usage\"" <:+: line) || decide (ascii "\"content\"" <:+: line) ||
    decide (ascii "reasoning" <:+: line)

structure OpenAIUsageTracker where
  pending : Bytes := []
  res : TapResult := {}
deriving DecidableEq

variable (decode : Bytes → Option TrackedChunk)

namespace OpenAIUsageTracker

def scanLine (res : TapResult) (line : Bytes) : TapResult :=
  if (ascii "data:").isPrefixOf line then
    let payload := trimSpace (line.drop 5)
    if payload = ascii "[DONE]" then { res with terminal := true }
    else if payload.head? = some 123 && wanted line then
      match decode payload with
      | none => res
      | some chunk =>
        let res := { res with
          contentBytes := chunk.choices.foldl (fun n d => n + d.bytes) res.contentBytes }
        match chunk.usage with
        | none => res
        | some usage => { res with
            sawUsage := true
            raw := payload
            buckets := usage.buckets }
    else res
  else res

def feedFrom (t : OpenAIUsageTracker) (segment : Bytes) : Bytes → OpenAIUsageTracker
  | [] => { t with
      pending := if trackLineCap < t.pending.length + segment.length then []
        else t.pending ++ segment }
  | b :: rest =>
    if b = newline then
      if trackLineCap < t.pending.length + segment.length then
        feedFrom { t with pending := [] } [] rest
      else feedFrom ⟨[], scanLine decode t.res (t.pending ++ segment)⟩ [] rest
    else feedFrom t (segment ++ [b]) rest

def feed (t : OpenAIUsageTracker) (read : Bytes) : OpenAIUsageTracker := feedFrom decode t [] read

end OpenAIUsageTracker

def track (reads : List Bytes) : TapResult :=
  (reads.foldl (OpenAIUsageTracker.feed decode) {}).res

def meter (res : TapResult) (lines : List Bytes) : TapResult :=
  lines.foldl (OpenAIUsageTracker.scanLine decode) res

theorem feedFrom_tracker (pieces : List Bytes) (res : TapResult) (segment read : Bytes) :
    OpenAIUsageTracker.feedFrom decode ⟨pieces.foldl keep [], res⟩ segment read =
      ⟨(linesFrom pieces segment read).2.foldl keep [],
        meter decode res ((linesFrom pieces segment read).1.filterMap CutLine.rest)⟩ := by
  induction read generalizing pieces res segment with
  | nil => simp [OpenAIUsageTracker.feedFrom, linesFrom, keep, meter]
  | cons b read ih =>
    rw [OpenAIUsageTracker.feedFrom, linesFrom]
    by_cases ends : b = newline
    · rw [if_pos ends, if_pos ends, List.filterMap_cons]
      dsimp only
      by_cases over_ : trackLineCap < (pieces.foldl keep []).length + segment.length
      · have dropped : (⟨pieces, segment⟩ : CutLine).rest = none := if_pos over_
        rw [if_pos over_, dropped]
        exact ih [] res []
      · have scanned : (⟨pieces, segment⟩ : CutLine).rest =
            some (pieces.foldl keep [] ++ segment) := if_neg over_
        rw [if_neg over_, scanned]
        exact ih [] _ []
    · rw [if_neg ends, if_neg ends]
      exact ih pieces res (segment ++ [b])

theorem feed_tracker (pieces reads : List Bytes) (res : TapResult) :
    (reads.foldl (OpenAIUsageTracker.feed decode) ⟨pieces.foldl keep [], res⟩).res =
      meter decode res ((cutLines pieces reads).filterMap CutLine.rest) := by
  induction reads generalizing pieces res with
  | nil => rfl
  | cons read reads ih =>
    rw [List.foldl_cons, OpenAIUsageTracker.feed, feedFrom_tracker, ih, cutLines,
      List.filterMap_append, meter, meter, meter, List.foldl_append]

theorem track_eq (reads : List Bytes) :
    track decode reads = meter decode {} ((cutLines [] reads).filterMap CutLine.rest) :=
  feed_tracker decode [] reads {}

theorem track_lines {lines reads : List Bytes} (plain : ∀ l ∈ lines, Plain l)
    (same : reads.flatten = encodeLines lines) :
    track decode reads = meter decode {} lines := by
  have bytes := cutLines_bytes (fun l mem => (plain l mem).1) same
  have scanned : (cutLines [] reads).filterMap CutLine.rest = lines := by
    conv_rhs => rw [← bytes, ← List.filterMap_eq_map]
    apply List.filterMap_congr
    intro l mem
    have short := (plain l.bytes (bytes ▸ List.mem_map_of_mem mem)).2
    exact l.rest_of_whole (by simpa [CutLine.whole] using short)
  rw [track_eq, scanned]

def ends (line : Bytes) : Bool :=
  (ascii "data:").isPrefixOf line && trimSpace (line.drop 5) = ascii "[DONE]"

def tracked (line : Bytes) : Option TrackedChunk :=
  let payload := trimSpace (line.drop 5)
  if (ascii "data:").isPrefixOf line && payload.head? = some 123 && wanted line then decode payload
  else none

def served (line : Bytes) : Nat :=
  match tracked decode line with
  | some chunk => (chunk.choices.map TrackedDelta.bytes).sum
  | none => 0

def reported (line : Bytes) : Option UsageBuckets :=
  ((tracked decode line).bind (·.usage)).map OpenAIUsage.buckets

def lastUsage (usage : Option UsageBuckets) (lines : List Bytes) : Option UsageBuckets :=
  lines.foldl (fun usage line => (reported decode line).or usage) usage

theorem lastUsage_cons (usage : Option UsageBuckets) (line : Bytes) (lines : List Bytes) :
    lastUsage decode usage (line :: lines) =
      lastUsage decode ((reported decode line).or usage) lines := rfl

def TapResult.usage (r : TapResult) : Option UsageBuckets :=
  if r.sawUsage then some r.buckets else none

def TapResult.Clean (r : TapResult) : Prop := r.sawUsage = false → r.buckets = {}

theorem TapResult.figures_eq_iff {r s : TapResult} (clean : r.Clean) (clean' : s.Clean) :
    r.figures = s.figures ↔
      r.usage = s.usage ∧ r.terminal = s.terminal ∧ r.contentBytes = s.contentBytes := by
  obtain ⟨b, _, saw, t, n⟩ := r
  obtain ⟨b', _, saw', t', n'⟩ := s
  simp only [figures, usage, Clean, Prod.mk.injEq] at clean clean' ⊢
  cases saw with
  | false =>
    cases clean rfl
    cases saw' with
    | false =>
      cases clean' rfl
      simp
    | true => simp
  | true => cases saw' <;> simp

theorem foldl_bytes (choices : List TrackedDelta) (n : Nat) :
    choices.foldl (fun n d => n + d.bytes) n = n + (choices.map TrackedDelta.bytes).sum := by
  induction choices generalizing n with
  | nil => rfl
  | cons d choices ih => rw [List.foldl_cons, ih, List.map_cons, List.sum_cons, Nat.add_assoc]

theorem scanLine_figures (res : TapResult) (line : Bytes) :
    (OpenAIUsageTracker.scanLine decode res line).terminal = (res.terminal || ends line) ∧
      (OpenAIUsageTracker.scanLine decode res line).contentBytes =
        res.contentBytes + served decode line ∧
      (OpenAIUsageTracker.scanLine decode res line).usage =
        (reported decode line).or res.usage ∧
      (res.Clean → (OpenAIUsageTracker.scanLine decode res line).Clean) := by
  unfold OpenAIUsageTracker.scanLine ends reported served tracked
  by_cases data : (ascii "data:").isPrefixOf line = true
  · simp only [data, if_true, Bool.true_and]
    by_cases done : trimSpace (line.drop 5) = ascii "[DONE]"
    · have other : (ascii "[DONE]").head? ≠ some 123 := by decide
      simp [done, other, TapResult.usage, TapResult.Clean]
    · simp only [done, if_false, decide_false, Bool.or_false]
      by_cases gate : ((trimSpace (line.drop 5)).head? = some 123 && wanted line) = true
      · simp only [gate, if_true]
        cases decode (trimSpace (line.drop 5)) with
        | none => simp
        | some chunk =>
          simp only [foldl_bytes, Option.bind_some]
          cases chunk.usage <;> simp [TapResult.usage, TapResult.Clean]
      · simp [gate]
  · simp [data]

theorem meter_figures (res : TapResult) (lines : List Bytes) :
    (meter decode res lines).terminal = (res.terminal || lines.any ends) ∧
      (meter decode res lines).contentBytes = res.contentBytes + (lines.map (served decode)).sum ∧
      (meter decode res lines).usage = lastUsage decode res.usage lines ∧
      (res.Clean → (meter decode res lines).Clean) := by
  induction lines generalizing res with
  | nil => simp [meter, lastUsage]
  | cons line lines ih =>
    obtain ⟨terminal, bytes, usage, clean⟩ := scanLine_figures decode res line
    obtain ⟨terminal', bytes', usage', clean'⟩ :=
      ih (OpenAIUsageTracker.scanLine decode res line)
    rw [meter, List.foldl_cons, ← meter]
    refine ⟨?_, ?_, ?_, fun start => clean' (clean start)⟩
    · rw [terminal', terminal, List.any_cons, Bool.or_assoc]
    · rw [bytes', bytes, List.map_cons, List.sum_cons, Nat.add_assoc]
    · rw [usage', usage]
      rfl

theorem meter_figures_eq_iff {lines lines' : List Bytes} :
    (meter decode {} lines).figures = (meter decode {} lines').figures ↔
      lastUsage decode none lines = lastUsage decode none lines' ∧
      lines.any ends = lines'.any ends ∧
      (lines.map (served decode)).sum = (lines'.map (served decode)).sum := by
  obtain ⟨terminal, bytes, usage, clean⟩ := meter_figures decode {} lines
  obtain ⟨terminal', bytes', usage', clean'⟩ := meter_figures decode {} lines'
  rw [TapResult.figures_eq_iff (clean fun _ => rfl) (clean' fun _ => rfl), terminal, terminal',
    bytes, bytes', usage, usage']
  simp [TapResult.usage]

end YunhouUsers.Inference.Providers
