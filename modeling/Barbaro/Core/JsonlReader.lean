import Barbaro.Core.Checkpoint
import Barbaro.Lib.Lines

/-!
# The forward JSONL reader

`iterateJsonlForward` reads a file from a line boundary, cuts what the stream
delivers into LF-terminated lines, yields each complete line with its number and
its byte offsets, and reports an unterminated last line in its summary without
consuming it. The bytes arrive in chunks of any size.

* `feed`: what a piece of the byte stream does to the reader, whatever its
  chunking; `feed_append`: two pieces in a row do what their concatenation does.
* `consumeChunks_spec`: inside the pinned range and within the line limit, the
  chunk loop computes `feed` of all chunks together; past the limit it fails.
* `read_ok`: what a successful read yields and summarizes.
-/

namespace Barbaro

/-! ## Lines, options and summary -/

structure JsonlLineError where
  name : String
  message : String
  deriving DecidableEq, Repr

/-- The body of a complete line: what the parser made of it, or why it failed. -/
inductive JsonlLineKind (α : Type)
  | record (value : α)
  | malformed (error : JsonlLineError)
  deriving DecidableEq, Repr

structure JsonlLine (α : Type) where
  lineNumber : ℕ
  byteStart : ℕ
  /-- Offset immediately after the terminating LF byte. -/
  byteEndExclusive : ℕ
  /-- Alias for `byteEndExclusive`, suitable for the next checkpoint. -/
  nextOffset : ℕ
  /-- Decoded line content without LF or an optional preceding CR. -/
  raw : JsString
  kind : JsonlLineKind α
  deriving DecidableEq, Repr

/-- A line the parser accepted. -/
def JsonlLine.isRecord {α : Type} (l : JsonlLine α) : Bool :=
  match l.kind with
  | .record _ => true
  | .malformed _ => false

structure PartialJsonlLine where
  byteStart : ℕ
  byteLength : ℕ
  lineNumber : ℕ
  deriving DecidableEq, Repr

structure JsonlReadOptions where
  startOffset : ℕ := 0
  nextLineNumber : ℕ := 1
  /-- Last byte to consider present, exclusive. -/
  endOffset : Option ℕ := none
  /-- Pin an omitted `endOffset` to the size observed on the opened handle. -/
  pinEnd : Bool := false
  highWaterMark : Option ℕ := none
  requireSingleLink : Bool := false
  maxFileBytes : Option ℕ := none
  maxLineBytes : Option ℕ := none

structure JsonlReadSummary where
  fileIdentity : FileIdentity
  observedSize : ℕ
  startOffset : ℕ
  /-- First byte not committed; partial EOF bytes remain at this offset. -/
  checkpointOffset : ℕ
  nextLineNumber : ℕ
  checkpointAnchor : CheckpointAnchor
  bytesRead : ℕ
  completeLines : ℕ
  parsedLines : ℕ
  malformedLines : ℕ
  partialFinalLine : Option PartialJsonlLine
  deriving DecidableEq, Repr

/-- The position a checkpoint is created from. -/
def JsonlReadSummary.position (s : JsonlReadSummary) : JsonlCheckpointPosition where
  fileIdentity := s.fileIdentity
  checkpointOffset := s.checkpointOffset
  nextLineNumber := s.nextLineNumber
  observedSize := s.observedSize
  checkpointAnchor := s.checkpointAnchor

/-- What one read meets: the path when it is opened, the chunks its stream
delivers, and the open file at the final `stat`. -/
structure JsonlSource where
  opened : Opened
  chunks : List Bytes
  final : FileState

/-- The lines a read yields before it returns or throws, and how it ends. -/
structure JsonlRead (α : Type) where
  events : List (JsonlLine α)
  result : Except Failure JsonlReadSummary

/-! ## The scanner -/

section
variable {α : Type} (parse : JsString → Except JsonlLineError α)

/-- The content of a line: its bytes without one trailing CR. -/
def contentBytes (lineBytes : Bytes) : Bytes :=
  if lineBytes.getLast? = some CR then lineBytes.dropLast else lineBytes

/-- One complete line as it is yielded. A line that does not decode or parse is
data, not an exception. -/
def lineEvent (lineNumber byteStart : ℕ) (lineBytes : Bytes) : JsonlLine α :=
  let byteEndExclusive := byteStart + lineBytes.length + 1
  let base (raw : JsString) (kind : JsonlLineKind α) : JsonlLine α :=
    { lineNumber, byteStart, byteEndExclusive, nextOffset := byteEndExclusive, raw, kind }
  let lossy := bytesToString (contentBytes lineBytes)
  match textDecode (contentBytes lineBytes) with
  | none =>
    base lossy (.malformed ⟨"TypeError", "The encoded data was not valid for encoding utf-8"⟩)
  | some raw =>
    match parse raw with
    | .ok value => base raw (.record value)
    | .error e => base lossy (.malformed e)

/-- The reader's local variables. `fragments` holds the bytes of the line that is
still open, `fragmentBytes` in the source being their number. -/
structure ScanState (α : Type) where
  fragments : Bytes := []
  bytesRead : ℕ := 0
  checkpointOffset : ℕ
  nextLineNumber : ℕ
  completeLines : ℕ := 0
  parsedLines : ℕ := 0
  malformedLines : ℕ := 0
  reachedEnd : Bool := false
  events : List (JsonlLine α) := []

/-- The reader's variables before the first chunk. -/
def ScanState.initial (options : JsonlReadOptions) : ScanState α :=
  { checkpointOffset := options.startOffset, nextLineNumber := options.nextLineNumber }

/-- How a step of the chunk loop leaves it. -/
inductive Flow
  | next
  | stop
  | fail (failure : Failure)
  deriving DecidableEq, Repr

def assertLineWithinLimit (length : ℕ) (maximumBytes : Option ℕ) : Option Failure :=
  match maximumBytes with
  | none => none
  | some n =>
    if length > n then some (.inputLimit s!"JSONL line exceeds {n} bytes" .record n (some length))
    else none

/-- A complete line is counted and yielded, and the checkpoint moves past it. -/
def completeLine (st : ScanState α) (lineBytes : Bytes) : ScanState α :=
  let event := lineEvent parse st.nextLineNumber st.checkpointOffset lineBytes
  { st with
    fragments := []
    checkpointOffset := st.checkpointOffset + lineBytes.length + 1
    nextLineNumber := st.nextLineNumber + 1
    completeLines := st.completeLines + 1
    parsedLines := if event.isRecord then st.parsedLines + 1 else st.parsedLines
    malformedLines := if event.isRecord then st.malformedLines else st.malformedLines + 1
    events := st.events ++ [event] }

/-- The inner loop: the LF-terminated segments of one chunk. A line that ends past
the pinned boundary is no part of the snapshot, and ends the loop. -/
def consumeSegments (maxLineBytes endOffset : Option ℕ) :
    List Bytes → ScanState α → ScanState α × Flow
  | [], st => (st, .next)
  | segment :: segments, st =>
    match assertLineWithinLimit (st.fragments.length + segment.length) maxLineBytes with
    | some failure => (st, .fail failure)
    | none =>
      if endOffset.any (fun e => st.checkpointOffset + st.fragments.length + segment.length + 1 > e) then
        ({ st with fragments := st.fragments ++ segment, reachedEnd := true }, .stop)
      else
        consumeSegments maxLineBytes endOffset segments
          (completeLine parse st (st.fragments ++ segment))

/-- After the loop: has the checkpoint reached the pinned boundary? -/
def noteEnd (endOffset : Option ℕ) (st : ScanState α) : ScanState α :=
  if endOffset.any (fun e => st.checkpointOffset ≥ e) then { st with reachedEnd := true } else st

/-- One chunk of the stream. Past the pinned boundary chunks are drained and ignored. -/
def consumeChunk (maxLineBytes endOffset : Option ℕ) (st : ScanState α) (chunk : Bytes) :
    ScanState α × Flow :=
  if st.reachedEnd then (st, .next)
  else
    match consumeSegments parse maxLineBytes endOffset (Lines.cut LF chunk).1
        { st with bytesRead := st.bytesRead + chunk.length } with
    | (st, .fail failure) => (st, .fail failure)
    | (st, .stop) => (noteEnd endOffset st, .next)
    | (st, .next) =>
      let remainder := (Lines.cut LF chunk).2
      if remainder = [] then (noteEnd endOffset st, .next)
      else
        match assertLineWithinLimit (st.fragments.length + remainder.length) maxLineBytes with
        | some failure => (st, .fail failure)
        | none => (noteEnd endOffset { st with fragments := st.fragments ++ remainder }, .next)

/-- The outer loop over the stream. -/
def consumeChunks (maxLineBytes endOffset : Option ℕ) :
    List Bytes → ScanState α → ScanState α × Flow
  | [], st => (st, .next)
  | chunk :: chunks, st =>
    match consumeChunk parse maxLineBytes endOffset st chunk with
    | (st, .fail failure) => (st, .fail failure)
    | (st, _) => consumeChunks maxLineBytes endOffset chunks st

/-! ## The reader -/

def checkEndOffset (options : JsonlReadOptions) : Except Failure Unit :=
  match options.endOffset with
  | none => .ok ()
  | some e => do
    assertSafeNonNegativeInteger e "endOffset"
    if e < options.startOffset then .error (.rangeError "endOffset must not precede startOffset")
    else .ok ()

def checkLimits (options : JsonlReadOptions) : Except Failure Unit :=
  if options.highWaterMark.any (fun n => n < 1 ∨ n > maxSafeInteger) then
    .error (.rangeError "highWaterMark must be a positive safe integer")
  else if options.maxFileBytes.any (fun n => n > maxSafeInteger) then
    .error (.typeError "maxFileBytes must be a non-negative safe integer")
  else if options.maxLineBytes.any (fun n => n > maxSafeInteger) then
    .error (.typeError "maxLineBytes must be a non-negative safe integer")
  else .ok ()

/-- The options' own checks. -/
def checkReadOptions (options : JsonlReadOptions) : Except Failure Unit := do
  assertSafeNonNegativeInteger options.startOffset "startOffset"
  assertSafePositiveInteger options.nextLineNumber "nextLineNumber"
  checkEndOffset options
  checkLimits options

/-- The checks on the opened handle; the result is the pinned end offset. -/
def openChecks (options : JsonlReadOptions) (opened : Opened) : Except Failure (Option ℕ) := do
  checkReadOptions options
  match opened with
  | .missing => .error (.system "ENOENT")
  | .refused code => .error (.system code)
  | .file handle =>
    if options.requireSingleLink ∧ handle.nlink ≠ 1 then
      .error (.typeError "JSONL path has multiple hard links")
    else do
      let initial ← snapshotFromStats handle
      assertFileWithinLimit "JSONL path" initial.size options.maxFileBytes (some initial.size)
      if options.startOffset > initial.size then
        .error (.rangeError "startOffset is beyond the current end of the file")
      else
        return if options.pinEnd ∧ options.endOffset = none then some initial.size
          else options.endOffset

/-- The checks after the stream has ended, and the summary. -/
def closeRead (H : Hasher) (options : JsonlReadOptions) (final : FileState) (st : ScanState α) :
    Except Failure JsonlReadSummary :=
  if options.requireSingleLink ∧ final.nlink ≠ 1 then
    .error (.typeError "JSONL path gained another hard link during read")
  else do
    let snapshot ← snapshotFromStats final
    assertFileWithinLimit "JSONL path" snapshot.size options.maxFileBytes (some snapshot.size)
    if snapshot.size < st.checkpointOffset then
      .error (.rangeError "JSONL file was truncated while it was being read")
    else do
      let checkpointAnchor ← readCheckpointAnchor H final st.checkpointOffset
      return {
        fileIdentity := snapshot.identity
        observedSize := snapshot.size
        startOffset := options.startOffset
        checkpointOffset := st.checkpointOffset
        nextLineNumber := st.nextLineNumber
        checkpointAnchor
        bytesRead := st.bytesRead
        completeLines := st.completeLines
        parsedLines := st.parsedLines
        malformedLines := st.malformedLines
        partialFinalLine :=
          if st.fragments = [] then none
          else some {
            byteStart := st.checkpointOffset
            byteLength := st.fragments.length
            lineNumber := st.nextLineNumber } }

/-- Iterate the complete physical lines of a file from a byte offset. -/
def iterateJsonlForward (H : Hasher) (options : JsonlReadOptions) (source : JsonlSource) :
    JsonlRead α :=
  match openChecks options source.opened with
  | .error failure => { events := [], result := .error failure }
  | .ok endOffset =>
    let chunks := if endOffset = some options.startOffset then [] else source.chunks
    match consumeChunks parse options.maxLineBytes endOffset chunks (.initial options) with
    | (st, .fail failure) => { events := st.events, result := .error failure }
    | (st, _) => { events := st.events, result := closeRead H options source.final st }

/-! ## The scanner computes `feed` -/

/-- Lines as they are yielded from a line number and an offset on. -/
def placeLines (lineNumber byteStart : ℕ) : List Bytes → List (JsonlLine α)
  | [] => []
  | l :: ls =>
    lineEvent parse lineNumber byteStart l ::
      placeLines (lineNumber + 1) (byteStart + l.length + 1) ls

theorem placeLines_append (n o : ℕ) (a b : List Bytes) :
    placeLines parse n o (a ++ b) = placeLines parse n o a ++
      placeLines parse (n + a.length) (o + (Lines.join LF a).length) b := by
  induction a generalizing n o with
  | nil => rfl
  | cons l ls ih =>
    simp only [List.cons_append, placeLines, ih, Lines.join_cons, List.length_append,
      List.length_cons, List.cons.injEq, true_and]
    congr 2 <;> omega

/-- The state after complete lines, its open line left as it is. -/
def advance (st : ScanState α) (ls : List Bytes) : ScanState α :=
  let placed := placeLines parse st.nextLineNumber st.checkpointOffset ls
  { st with
    checkpointOffset := st.checkpointOffset + (Lines.join LF ls).length
    nextLineNumber := st.nextLineNumber + ls.length
    completeLines := st.completeLines + ls.length
    parsedLines := st.parsedLines + placed.countP JsonlLine.isRecord
    malformedLines := st.malformedLines + placed.countP (fun l => !l.isRecord)
    events := st.events ++ placed }

/-- What a piece of the byte stream does to the reader's state. -/
def feed (st : ScanState α) (b : Bytes) : ScanState α :=
  { advance parse st (Lines.cut LF (st.fragments ++ b)).1 with
    fragments := (Lines.cut LF (st.fragments ++ b)).2
    bytesRead := st.bytesRead + b.length }

theorem advance_append (st : ScanState α) (a b : List Bytes) :
    advance parse st (a ++ b) = advance parse (advance parse st a) b := by
  simp only [advance, placeLines_append, Lines.join_append, List.length_append, List.countP_append,
    List.append_assoc, Nat.add_assoc]

theorem completeLine_eq (st : ScanState α) (l : Bytes) :
    completeLine parse st l = { advance parse st [l] with fragments := [] } := by
  simp only [completeLine, advance, placeLines, Lines.join_cons, Lines.join_nil, List.length_append,
    List.length_cons, List.length_nil, List.countP_cons, List.countP_nil]
  cases h : (lineEvent parse st.nextLineNumber st.checkpointOffset l).isRecord <;>
    simp [Nat.add_assoc]

/-- Completing lines one by one. -/
theorem foldl_completeLine (ls : List Bytes) (st : ScanState α) :
    ls.foldl (completeLine parse) st =
      { advance parse st ls with fragments := if ls = [] then st.fragments else [] } := by
  induction ls generalizing st with
  | nil => simp [advance, placeLines]
  | cons l ls ih =>
    rw [List.foldl_cons, ih, completeLine_eq, show l :: ls = [l] ++ ls from rfl, advance_append]
    simp [advance]

/-- **Pieces add up**: reading `a` and then `b` is reading `a ++ b`. -/
theorem feed_append (st : ScanState α) (a b : Bytes) :
    feed parse st (a ++ b) = feed parse (feed parse st a) b := by
  have h := Lines.cut_append LF (st.fragments ++ a) b
  rw [List.append_assoc] at h
  simp only [feed, h, advance_append, List.length_append, Nat.add_assoc]
  simp only [advance]

@[simp] theorem feed_nil (st : ScanState α) (h : LF ∉ st.fragments) : feed parse st [] = st := by
  simp [feed, Lines.cut_of_free h, advance, placeLines]

theorem feed_free (st : ScanState α) (b : Bytes) : LF ∉ (feed parse st b).fragments :=
  (Lines.cut_free LF _).2

/-- A length within the line limit. -/
def Fits (maxLineBytes : Option ℕ) (n : ℕ) : Prop := ∀ m, maxLineBytes = some m → n ≤ m

theorem Fits.mono {max : Option ℕ} {m n : ℕ} (h : Fits max n) (hmn : m ≤ n) : Fits max m :=
  fun k hk => le_trans hmn (h k hk)

theorem assertLineWithinLimit_none {max : Option ℕ} {n : ℕ} :
    assertLineWithinLimit n max = none ↔ Fits max n := by
  cases max with
  | none => simp [assertLineWithinLimit, Fits]
  | some m => simp [assertLineWithinLimit, Fits]

/-- Every line and the tail of a piece of the stream are within the line limit. -/
def AllFit (max : Option ℕ) (c : List Bytes × Bytes) : Prop :=
  (∀ l ∈ c.1, Fits max l.length) ∧ Fits max c.2.length

/-- An open line that the stream goes on with is within the limit if the lines are. -/
theorem AllFit.head {max : Option ℕ} {f b : Bytes} (hf : LF ∉ f)
    (h : AllFit max (Lines.cut LF (f ++ b))) : Fits max f.length := by
  rw [Lines.cut_append_of_free hf] at h
  rcases hc : (Lines.cut LF b).1 with _ | ⟨l, ls⟩
  · have := h.2
    simp only [hc, if_true, List.length_append] at this
    exact this.mono (by omega)
  · have := h.1 (f ++ l) (by simp [hc, Lines.glue])
    exact this.mono (by simp)

theorem allFit_append (max : Option ℕ) (s b : Bytes) :
    AllFit max (Lines.cut LF (s ++ b)) ↔
      (∀ l ∈ (Lines.cut LF s).1, Fits max l.length) ∧
        AllFit max (Lines.cut LF ((Lines.cut LF s).2 ++ b)) := by
  rw [Lines.cut_append LF s b]
  simp only [AllFit, List.mem_append, or_imp, forall_and, and_assoc]

/-- A piece of the stream is within the limit if what it is the beginning of is. -/
theorem AllFit.prefix {max : Option ℕ} {s b : Bytes} (h : AllFit max (Lines.cut LF (s ++ b))) :
    AllFit max (Lines.cut LF s) :=
  have h := (allFit_append max s b).1 h
  ⟨h.1, h.2.head (Lines.cut_free LF s).2⟩

/-- The next byte to be read moves past exactly what is fed. -/
theorem feed_position (st : ScanState α) (b : Bytes) :
    (feed parse st b).checkpointOffset + (feed parse st b).fragments.length =
      st.checkpointOffset + st.fragments.length + b.length := by
  have h := congrArg List.length (Lines.cut_eq LF (st.fragments ++ b))
  simp only [List.length_append] at h
  simp only [feed, advance]
  omega

/-- The inner loop, inside the pinned range: it completes the lines if they fit, and
fails if one does not. -/
theorem consumeSegments_spec (max endOffset : Option ℕ) (segs : List Bytes) (st : ScanState α)
    (hend : ∀ e, endOffset = some e →
      st.checkpointOffset + (Lines.join LF (Lines.glue st.fragments segs)).length ≤ e) :
    ((∀ l ∈ Lines.glue st.fragments segs, Fits max l.length) →
        consumeSegments parse max endOffset segs st =
          ((Lines.glue st.fragments segs).foldl (completeLine parse) st, .next)) ∧
      (¬ (∀ l ∈ Lines.glue st.fragments segs, Fits max l.length) →
        ∃ failure, (consumeSegments parse max endOffset segs st).2 = .fail failure) := by
  induction segs generalizing st with
  | nil => simp [Lines.glue, consumeSegments]
  | cons seg segs ih =>
    set st' := completeLine parse st (st.fragments ++ seg) with hst'
    have hglue : Lines.glue st'.fragments segs = segs := by cases segs <;> rfl
    simp only [Lines.glue, Lines.join_cons, List.length_append, List.length_cons] at hend
    have hinside : ¬ (endOffset.any (fun e =>
        st.checkpointOffset + st.fragments.length + seg.length + 1 > e)) = true := by
      simp only [Option.any_eq_true, decide_eq_true_eq, not_exists, not_and, gt_iff_lt, not_lt]
      intro e he
      have := hend e he
      omega
    have hrest : ∀ e, endOffset = some e →
        st'.checkpointOffset + (Lines.join LF (Lines.glue st'.fragments segs)).length ≤ e := by
      intro e he
      have := hend e he
      rw [hglue]
      simp only [hst', completeLine, List.length_append]
      omega
    have ih := ih st' hrest
    rw [hglue] at ih
    rw [consumeSegments]
    rcases hlim : assertLineWithinLimit (st.fragments.length + seg.length) max with _ | failure
    · have hfit := assertLineWithinLimit_none.1 hlim
      rw [← List.length_append] at hfit
      simp only [Lines.glue, List.mem_cons, forall_eq_or_imp, hfit, true_and, if_neg hinside,
        List.foldl_cons]
      exact ih
    · have hfit : ¬ Fits max (st.fragments ++ seg).length := by
        rw [List.length_append, ← assertLineWithinLimit_none, hlim]
        simp
      exact ⟨fun h => absurd (h _ (by simp [Lines.glue])) hfit, fun _ => ⟨failure, rfl⟩⟩

/-- One chunk, inside the pinned range. -/
theorem consumeChunk_spec (max endOffset : Option ℕ) (st : ScanState α) (chunk : Bytes)
    (hfree : LF ∉ st.fragments) (hfits : Fits max st.fragments.length)
    (hopen : st.reachedEnd = false)
    (hend : ∀ e, endOffset = some e →
      st.checkpointOffset + st.fragments.length + chunk.length ≤ e) :
    (AllFit max (Lines.cut LF (st.fragments ++ chunk)) →
        consumeChunk parse max endOffset st chunk =
          (noteEnd endOffset (feed parse st chunk), .next)) ∧
      (¬ AllFit max (Lines.cut LF (st.fragments ++ chunk)) →
        ∃ failure, (consumeChunk parse max endOffset st chunk).2 = .fail failure) := by
  have hcut := Lines.cut_append_of_free hfree chunk
  have hlen : (Lines.join LF (Lines.cut LF (st.fragments ++ chunk)).1).length ≤
      st.fragments.length + chunk.length := by
    have := congrArg List.length (Lines.cut_eq LF (st.fragments ++ chunk))
    simp only [List.length_append] at this
    omega
  rw [hcut] at hlen
  have hends : ∀ e, endOffset = some e → st.checkpointOffset +
      (Lines.join LF (Lines.glue st.fragments (Lines.cut LF chunk).1)).length ≤ e :=
    fun e he => by have := hend e he; simp only at hlen; omega
  have hseg := consumeSegments_spec parse max endOffset
    (Lines.cut LF chunk).1 { st with bytesRead := st.bytesRead + chunk.length } hends
  rw [consumeChunk, if_neg (by simp [hopen]), AllFit, hcut]
  by_cases hlines : ∀ l ∈ Lines.glue st.fragments (Lines.cut LF chunk).1, Fits max l.length
  · rw [hseg.1 hlines, foldl_completeLine]
    simp only [Lines.glue_eq_nil]
    set tail := (Lines.cut LF chunk).2
    -- the bytes of the open line before the remainder is added
    set before : Bytes := if (Lines.cut LF chunk).1 = [] then st.fragments else [] with hbefore
    have hafter : (if (Lines.cut LF chunk).1 = [] then st.fragments ++ tail else tail) =
        before ++ tail := by
      rw [hbefore]
      split <;> rfl
    have hbeforeFits : Fits max before.length := by
      rw [hbefore]
      split
      · exact hfits
      · exact hfits.mono (by simp)
    simp only [hafter, List.length_append]
    have hfeed : feed parse st chunk =
        { advance parse { st with bytesRead := st.bytesRead + chunk.length }
            (Lines.glue st.fragments (Lines.cut LF chunk).1) with fragments := before ++ tail } := by
      simp only [feed, hcut, hafter, advance]
    by_cases htail : tail = []
    · simp only [htail, if_true, List.append_nil] at hfeed ⊢
      rw [hfeed]
      exact ⟨fun _ => rfl, fun h => absurd ⟨hlines, by simpa using hbeforeFits⟩ h⟩
    · rw [if_neg htail]
      rcases hlim : assertLineWithinLimit (before.length + tail.length) max with _ | failure
      · rw [hfeed]
        exact ⟨fun _ => rfl, fun h => absurd ⟨hlines, assertLineWithinLimit_none.1 hlim⟩ h⟩
      · refine ⟨fun h => ?_, fun _ => ⟨failure, rfl⟩⟩
        rw [assertLineWithinLimit_none.2 h.2] at hlim
        cases hlim
  · obtain ⟨failure, hfail⟩ := hseg.2 hlines
    refine ⟨fun h => absurd h.1 hlines, fun _ => ⟨failure, ?_⟩⟩
    rcases hc : consumeSegments parse max endOffset (Lines.cut LF chunk).1
      { st with bytesRead := st.bytesRead + chunk.length } with ⟨st', flow⟩
    rw [hc] at hfail
    simp only at hfail
    simp only [hfail]

theorem consumeChunks_ended {max endOffset : Option ℕ} (chunks : List Bytes) (st : ScanState α)
    (h : st.reachedEnd = true) :
    consumeChunks parse max endOffset chunks st = (st, .next) := by
  induction chunks with
  | nil => rfl
  | cons chunk chunks ih => rw [consumeChunks, consumeChunk, if_pos h]; exact ih

/-- **The chunk loop computes `feed`**, whatever the chunking: inside the pinned
range it succeeds exactly if every line and the tail are within the line limit. -/
theorem consumeChunks_spec (max endOffset : Option ℕ) (chunks : List Bytes) (st : ScanState α)
    (hfree : LF ∉ st.fragments) (hfits : Fits max st.fragments.length)
    (hopen : st.reachedEnd = false)
    (hend : ∀ e, endOffset = some e →
      st.checkpointOffset + st.fragments.length + chunks.flatten.length ≤ e) :
    (AllFit max (Lines.cut LF (st.fragments ++ chunks.flatten)) →
        ∃ ended, consumeChunks parse max endOffset chunks st =
          ({ feed parse st chunks.flatten with reachedEnd := ended }, .next)) ∧
      (¬ AllFit max (Lines.cut LF (st.fragments ++ chunks.flatten)) →
        ∃ failure, (consumeChunks parse max endOffset chunks st).2 = .fail failure) := by
  induction chunks generalizing st with
  | nil =>
    have : AllFit max (Lines.cut LF (st.fragments ++ [])) := by
      rw [List.append_nil, Lines.cut_of_free hfree]
      exact ⟨by simp, hfits⟩
    refine ⟨fun _ => ⟨st.reachedEnd, ?_⟩, fun h => absurd this h⟩
    simp [consumeChunks, feed_nil parse st hfree]
  | cons chunk chunks ih =>
    simp only [List.flatten_cons, List.length_append] at hend ⊢
    have hchunk := consumeChunk_spec parse max endOffset st chunk hfree hfits hopen (fun e he => by have := hend e he; omega)
    rw [← List.append_assoc, feed_append]
    by_cases hfit : AllFit max (Lines.cut LF (st.fragments ++ chunk))
    · have hstep : consumeChunks parse max endOffset (chunk :: chunks) st =
          consumeChunks parse max endOffset chunks (noteEnd endOffset (feed parse st chunk)) := by
        rw [consumeChunks, hchunk.1 hfit]
      rw [hstep]
      have hpos := feed_position parse st chunk
      have hlines := hfit.1
      set st' := feed parse st chunk
      have hfree' : LF ∉ st'.fragments := feed_free parse st chunk
      by_cases hover : (endOffset.any (fun e => st'.checkpointOffset ≥ e)) = true
      · -- the boundary is reached: nothing is left of the range
        obtain ⟨e, he, hge⟩ := (Option.any_eq_true _ _).1 hover
        have hall := hend e he
        simp only [ge_iff_le, decide_eq_true_eq] at hge
        have hnil : chunks.flatten = [] := List.eq_nil_of_length_eq_zero (by omega)
        rw [noteEnd, if_pos hover, consumeChunks_ended parse chunks _ rfl, hnil, List.append_nil,
          feed_nil parse st' hfree']
        exact ⟨fun _ => ⟨_, rfl⟩, fun h => absurd hfit h⟩
      · rw [noteEnd, if_neg hover, allFit_append]
        have ih := ih st' hfree' hfit.2 hopen (fun e he => by have := hend e he; omega)
        exact ⟨fun h => ih.1 h.2, fun h => ih.2 (fun hr => h ⟨hlines, hr⟩)⟩
    · obtain ⟨failure, hfail⟩ := hchunk.2 hfit
      refine ⟨fun h => absurd h.prefix hfit, fun _ => ⟨failure, ?_⟩⟩
      rcases hc : consumeChunk parse max endOffset st chunk with ⟨st', flow⟩
      rw [hc] at hfail
      simp only at hfail
      simp only [consumeChunks, hc, hfail]

/-! ## What a read yields -/

/-- The stream of the read is created with the pinned end, and delivers nothing past it. -/
def JsonlSource.WithinEnd (source : JsonlSource) (options : JsonlReadOptions) : Prop :=
  ∀ e, openChecks options source.opened = .ok (some e) →
    options.startOffset + source.chunks.flatten.length ≤ e

/-- **What a successful read is**: the checks pass, every line and the tail fit, and
the lines are those of the bytes delivered, whatever the chunks were. -/
theorem read_ok (H : Hasher) {options : JsonlReadOptions} {source : JsonlSource}
    (hend : source.WithinEnd options) {events : List (JsonlLine α)} {summary : JsonlReadSummary} :
    iterateJsonlForward parse H options source = { events, result := .ok summary } ↔
      (∃ endOffset, openChecks options source.opened = .ok endOffset) ∧
        AllFit options.maxLineBytes (Lines.cut LF source.chunks.flatten) ∧
        events = placeLines parse options.nextLineNumber options.startOffset
          (Lines.cut LF source.chunks.flatten).1 ∧
        closeRead H options source.final (feed parse (.initial options) source.chunks.flatten) =
          .ok summary := by
  rw [iterateJsonlForward]
  rcases hopen : openChecks options source.opened with failure | endOffset
  · simp
  · simp only [Except.ok.injEq, exists_eq', true_and]
    -- a read whose end is its start opens no stream
    have hchunks : (if endOffset = some options.startOffset then [] else source.chunks).flatten =
        source.chunks.flatten := by
      split
      · next h =>
        have := hend options.startOffset (by rw [hopen, h])
        exact (List.eq_nil_of_length_eq_zero (by omega)).symm
      · rfl
    have hspec := consumeChunks_spec parse options.maxLineBytes endOffset
      (if endOffset = some options.startOffset then [] else source.chunks) (.initial options)
      (by simp [ScanState.initial]) (fun m _ => Nat.zero_le m) rfl
      (fun e he => by
        have := hend e (by rw [hopen, he])
        rw [hchunks]
        simpa [ScanState.initial] using this)
    rw [hchunks] at hspec
    rw [show (ScanState.initial options : ScanState α).fragments = [] from rfl,
      List.nil_append] at hspec
    by_cases hfit : AllFit options.maxLineBytes (Lines.cut LF source.chunks.flatten)
    · obtain ⟨ended, hrun⟩ := hspec.1 hfit
      rw [hrun]
      simp only [JsonlRead.mk.injEq, hfit, true_and, feed, advance, ScanState.initial,
        List.nil_append]
      exact ⟨fun h => ⟨h.1.symm, h.2⟩, fun h => ⟨h.1.symm, h.2⟩⟩
    · obtain ⟨failure, hrun⟩ := hspec.2 hfit
      simp only [hfit, false_and, iff_false]
      intro h
      rcases hc : consumeChunks parse options.maxLineBytes endOffset
        (if endOffset = some options.startOffset then [] else source.chunks)
        (.initial options) with ⟨st, flow⟩
      rw [hc] at hrun h
      simp only at hrun
      simp [hrun] at h

/-- What the final checks of a read establish, and what the summary says. -/
theorem closeRead_ok {H : Hasher} {options : JsonlReadOptions} {final : FileState}
    {st : ScanState α} {summary : JsonlReadSummary} :
    closeRead H options final st = .ok summary ↔
      ¬ (options.requireSingleLink ∧ final.nlink ≠ 1) ∧
        ∃ snapshot anchor, snapshotFromStats final = .ok snapshot ∧
          assertFileWithinLimit "JSONL path" snapshot.size options.maxFileBytes
            (some snapshot.size) = .ok () ∧
          st.checkpointOffset ≤ snapshot.size ∧
          readCheckpointAnchor H final st.checkpointOffset = .ok anchor ∧
          summary = {
            fileIdentity := snapshot.identity
            observedSize := snapshot.size
            startOffset := options.startOffset
            checkpointOffset := st.checkpointOffset
            nextLineNumber := st.nextLineNumber
            checkpointAnchor := anchor
            bytesRead := st.bytesRead
            completeLines := st.completeLines
            parsedLines := st.parsedLines
            malformedLines := st.malformedLines
            partialFinalLine :=
              if st.fragments = [] then none
              else some {
                byteStart := st.checkpointOffset
                byteLength := st.fragments.length
                lineNumber := st.nextLineNumber } } := by
  simp only [closeRead, Outcome.guard_ok, Outcome.bind_ok, Outcome.exists_unit, Outcome.pure_ok,
    not_lt]
  constructor
  · rintro ⟨h1, snapshot, h2, h3, h4, anchor, h5, rfl⟩
    exact ⟨h1, snapshot, anchor, h2, h3, h4, h5, rfl⟩
  · rintro ⟨h1, snapshot, anchor, h2, h3, h4, h5, rfl⟩
    exact ⟨h1, snapshot, h2, h3, h4, anchor, h5, rfl⟩

end

end Barbaro
