import Barbaro.Core.JsonlReader

/-!
# Reading does not depend on chunking

The stream of a read delivers the bytes of a range of the file, cut into chunks in any way.

* `consumeChunks_fail`: a read that meets a line over the limit has yielded the lines before
  it, whichever chunk it stopped in.
* `scan_unchunked`: the lines that a read yields, the place of its tail and the line it fails
  at are those of the range.
-/

namespace Barbaro

section
variable {α : Type} (parse : JsString → Except JsonlLineError α)

/-- A line within the limit. -/
def withinLimit (max : Option ℕ) (l : Bytes) : Bool := max.all (fun m => l.length ≤ m)

theorem withinLimit_iff {max : Option ℕ} {l : Bytes} : withinLimit max l = true ↔ Fits max l.length := by
  cases max with
  | none => simp [withinLimit, Fits]
  | some m => simp [withinLimit, Fits]

/-- The lines before the first one over the limit. -/
def linesWithin (max : Option ℕ) (ls : List Bytes) : List Bytes := ls.takeWhile (withinLimit max)

/-- The failure of a read that meets a line over the limit. -/
def LineExceeds (max : Option ℕ) (failure : Failure) : Prop :=
  ∃ n m, max = some n ∧ n < m ∧ failure = .inputLimit s!"JSONL line exceeds {n} bytes" .record n (some m)

theorem assertLineWithinLimit_some {max : Option ℕ} {n : ℕ} {failure : Failure}
    (h : assertLineWithinLimit n max = some failure) : LineExceeds max failure ∧ ¬ Fits max n := by
  rcases max with _ | m
  · cases h
  · rw [assertLineWithinLimit] at h
    split at h
    · next hlt =>
      refine ⟨⟨m, n, rfl, hlt, (Option.some.inj h).symm⟩, fun hfits => ?_⟩
      have := hfits m rfl
      omega
    · cases h

/-! ## The lines before a failure -/

theorem linesWithin_all {max : Option ℕ} {a : List Bytes} (h : ∀ l ∈ a, Fits max l.length) (b : List Bytes) :
    linesWithin max (a ++ b) = a ++ linesWithin max b :=
  List.takeWhile_append_of_pos fun l hl => withinLimit_iff.2 (h l hl)

theorem linesWithin_stop {max : Option ℕ} {a : List Bytes} (h : ¬ ∀ l ∈ a, Fits max l.length) (b : List Bytes) :
    linesWithin max (a ++ b) = linesWithin max a := by
  induction a with
  | nil => exact absurd (by simp) h
  | cons l ls ih =>
    simp only [linesWithin, List.cons_append, List.takeWhile_cons] at ih ⊢
    rcases hl : withinLimit max l
    · rfl
    · have hrest : ¬ ∀ l ∈ ls, Fits max l.length := by
        intro hall
        refine h fun m hm => ?_
        rcases List.mem_cons.1 hm with rfl | hm
        · exact withinLimit_iff.1 hl
        · exact hall m hm
      simp only [if_true, List.cons.injEq, true_and]
      exact ih hrest

/-- What the stream goes on with does not matter once a piece of it is over the limit. -/
theorem linesWithin_prefix {max : Option ℕ} {s : Bytes} (h : ¬ AllFit max (Lines.cut LF s)) (b : Bytes) :
    linesWithin max (Lines.cut LF (s ++ b)).1 = linesWithin max (Lines.cut LF s).1 := by
  rw [Lines.cut_append LF s b]
  by_cases hlines : ∀ l ∈ (Lines.cut LF s).1, Fits max l.length
  · -- the open line is over the limit, and so is the line it becomes
    have htail : ¬ Fits max (Lines.cut LF s).2.length := fun hfits => h ⟨hlines, hfits⟩
    have hfree := (Lines.cut_free LF s).2
    rw [linesWithin_all hlines]
    have hnone : linesWithin max (Lines.cut LF ((Lines.cut LF s).2 ++ b)).1 = [] := by
      rw [Lines.cut_append_of_free hfree]
      rcases (Lines.cut LF b).1 with _ | ⟨l, ls⟩
      · rfl
      · have hlong : withinLimit max ((Lines.cut LF s).2 ++ l) = false := by
          rw [← Bool.not_eq_true]
          intro hwithin
          exact htail ((withinLimit_iff.1 hwithin).mono (by simp))
        simp only [Lines.glue, linesWithin, List.takeWhile_cons, hlong]
        rfl
    have hself := linesWithin_all hlines []
    rw [List.append_nil] at hself
    rw [hnone, hself]
    rfl
  · exact linesWithin_stop hlines _

/-- The inner loop stops at the first line over the limit. -/
theorem consumeSegments_fail (max endOffset : Option ℕ) (segs : List Bytes) (st : ScanState α)
    (hend : ∀ e, endOffset = some e →
      st.checkpointOffset + (Lines.join LF (Lines.glue st.fragments segs)).length ≤ e)
    (hnot : ¬ ∀ l ∈ Lines.glue st.fragments segs, Fits max l.length) :
    ∃ st' failure, consumeSegments parse max endOffset segs st = (st', .fail failure) ∧ LineExceeds max failure ∧
      st'.events = st.events ++ placeLines parse st.nextLineNumber st.checkpointOffset
        (linesWithin max (Lines.glue st.fragments segs)) := by
  induction segs generalizing st with
  | nil => exact absurd (by simp [Lines.glue]) hnot
  | cons seg segs ih =>
    set st' := completeLine parse st (st.fragments ++ seg) with hst'
    have hglue : Lines.glue st'.fragments segs = segs := by cases segs <;> rfl
    simp only [Lines.glue, Lines.join_cons, List.length_append, List.length_cons] at hend hnot
    have hinside : ¬ (endOffset.any (fun e =>
        st.checkpointOffset + st.fragments.length + seg.length + 1 > e)) = true := by
      simp only [Option.any_eq_true, decide_eq_true_eq, not_exists, not_and, gt_iff_lt, not_lt]
      intro e he
      have := hend e he
      omega
    rw [consumeSegments]
    simp only [Lines.glue, linesWithin, List.takeWhile_cons]
    rcases hlim : assertLineWithinLimit (st.fragments.length + seg.length) max with _ | failure
    · have hfit := assertLineWithinLimit_none.1 hlim
      rw [← List.length_append] at hfit
      have hrest : ∀ e, endOffset = some e →
          st'.checkpointOffset + (Lines.join LF (Lines.glue st'.fragments segs)).length ≤ e := by
        intro e he
        have := hend e he
        rw [hglue]
        simp only [hst', completeLine, List.length_append]
        omega
      have hnot' : ¬ ∀ l ∈ Lines.glue st'.fragments segs, Fits max l.length := by
        rw [hglue]
        intro hall
        refine hnot fun l hl => ?_
        rcases List.mem_cons.1 hl with rfl | hl
        · exact hfit
        · exact hall l hl
      obtain ⟨last, failure, hrun, hexceeds, hevents⟩ := ih st' hrest hnot'
      rw [hglue] at hevents
      simp only [if_neg hinside, withinLimit_iff.2 hfit, if_true]
      refine ⟨last, failure, hrun, hexceeds, ?_⟩
      rw [hevents, hst']
      simp only [completeLine, placeLines, linesWithin, List.append_assoc, List.singleton_append]
    · obtain ⟨hexceeds, hlong⟩ := assertLineWithinLimit_some hlim
      have hover : withinLimit max (st.fragments ++ seg) = false := by
        rw [← Bool.not_eq_true, withinLimit_iff, List.length_append]
        exact hlong
      refine ⟨st, failure, rfl, hexceeds, ?_⟩
      simp [hover, placeLines]

/-- One chunk, inside the pinned range. -/
theorem consumeChunk_fail (max endOffset : Option ℕ) (st : ScanState α) (chunk : Bytes)
    (hfree : LF ∉ st.fragments) (hfits : Fits max st.fragments.length) (hopen : st.reachedEnd = false)
    (hend : ∀ e, endOffset = some e → st.checkpointOffset + st.fragments.length + chunk.length ≤ e)
    (hnot : ¬ AllFit max (Lines.cut LF (st.fragments ++ chunk))) :
    ∃ st' failure, consumeChunk parse max endOffset st chunk = (st', .fail failure) ∧ LineExceeds max failure ∧
      st'.events = st.events ++ placeLines parse st.nextLineNumber st.checkpointOffset
        (linesWithin max (Lines.cut LF (st.fragments ++ chunk)).1) := by
  have hcut := Lines.cut_append_of_free hfree chunk
  have hlen : (Lines.join LF (Lines.cut LF (st.fragments ++ chunk)).1).length ≤
      st.fragments.length + chunk.length := by
    have := congrArg List.length (Lines.cut_eq LF (st.fragments ++ chunk))
    simp only [List.length_append] at this
    omega
  rw [hcut] at hlen
  have hends : ∀ e, endOffset = some e → st.checkpointOffset +
      (Lines.join LF (Lines.glue st.fragments (Lines.cut LF chunk).1)).length ≤ e := by
    intro e he
    have := hend e he
    simp only at hlen
    omega
  rw [AllFit, hcut] at hnot
  simp only at hnot
  rw [consumeChunk, if_neg (by simp [hopen]), hcut]
  simp only
  by_cases hlines : ∀ l ∈ Lines.glue st.fragments (Lines.cut LF chunk).1, Fits max l.length
  · -- the lines fit, the open line does not
    have hseg := (consumeSegments_spec parse max endOffset (Lines.cut LF chunk).1
      { st with bytesRead := st.bytesRead + chunk.length } hends).1 hlines
    rw [hseg, foldl_completeLine]
    simp only [Lines.glue_eq_nil]
    set tail := (Lines.cut LF chunk).2
    set before : Bytes := if (Lines.cut LF chunk).1 = [] then st.fragments else [] with hbefore
    have hafter : (if (Lines.cut LF chunk).1 = [] then st.fragments ++ tail else tail) = before ++ tail := by
      rw [hbefore]
      split <;> rfl
    have htail : ¬ Fits max (before.length + tail.length) := by
      rw [← List.length_append, ← hafter]
      exact fun h => hnot ⟨hlines, h⟩
    have hbeforeFits : Fits max before.length := by
      rw [hbefore]
      split
      · exact hfits
      · exact hfits.mono (by simp)
    have hne : tail ≠ [] := by
      intro hnil
      rw [hnil] at htail
      exact htail (by simpa using hbeforeFits)
    have hself := linesWithin_all hlines []
    rw [List.append_nil] at hself
    rw [if_neg hne, hself]
    rcases hlim : assertLineWithinLimit (before.length + tail.length) max with _ | failure
    · exact absurd (assertLineWithinLimit_none.1 hlim) htail
    · refine ⟨_, failure, rfl, (assertLineWithinLimit_some hlim).1, ?_⟩
      simp [advance, linesWithin]
  · obtain ⟨st', failure, hrun, hexceeds, hevents⟩ := consumeSegments_fail parse max endOffset
      (Lines.cut LF chunk).1 { st with bytesRead := st.bytesRead + chunk.length } hends hlines
    rw [hrun]
    exact ⟨st', failure, rfl, hexceeds, hevents⟩

/-- **The chunk loop stops at the first line over the limit**, in whatever chunk it is. -/
theorem consumeChunks_fail (max endOffset : Option ℕ) (chunks : List Bytes) (st : ScanState α)
    (hfree : LF ∉ st.fragments) (hfits : Fits max st.fragments.length) (hopen : st.reachedEnd = false)
    (hend : ∀ e, endOffset = some e → st.checkpointOffset + st.fragments.length + chunks.flatten.length ≤ e)
    (hnot : ¬ AllFit max (Lines.cut LF (st.fragments ++ chunks.flatten))) :
    ∃ st' failure, consumeChunks parse max endOffset chunks st = (st', .fail failure) ∧ LineExceeds max failure ∧
      st'.events = st.events ++ placeLines parse st.nextLineNumber st.checkpointOffset
        (linesWithin max (Lines.cut LF (st.fragments ++ chunks.flatten)).1) := by
  induction chunks generalizing st with
  | nil =>
    refine absurd ?_ hnot
    rw [List.flatten_nil, List.append_nil, Lines.cut_of_free hfree]
    exact ⟨by simp, hfits⟩
  | cons chunk chunks ih =>
    simp only [List.flatten_cons, List.length_append] at hend
    rw [List.flatten_cons, ← List.append_assoc] at hnot ⊢
    have hinside : ∀ e, endOffset = some e → st.checkpointOffset + st.fragments.length + chunk.length ≤ e := by
      intro e he
      have := hend e he
      omega
    by_cases hfit : AllFit max (Lines.cut LF (st.fragments ++ chunk))
    · have hchunk := (consumeChunk_spec parse max endOffset st chunk hfree hfits hopen hinside).1 hfit
      have hpos := feed_position parse st chunk
      have hcut := Lines.cut_append LF (st.fragments ++ chunk) chunks.flatten
      set fed := feed parse st chunk with hfed
      have hfragments : fed.fragments = (Lines.cut LF (st.fragments ++ chunk)).2 := rfl
      rw [← hfragments] at hcut
      have hnot' : ¬ AllFit max (Lines.cut LF (fed.fragments ++ chunks.flatten)) := by
        intro hall
        exact hnot ((allFit_append max _ _).2 ⟨hfit.1, hall⟩)
      have hmore : ¬ (endOffset.any (fun e => fed.checkpointOffset ≥ e)) = true := by
        intro hover
        obtain ⟨e, he, hge⟩ := (Option.any_eq_true _ _).1 hover
        have hall := hend e he
        simp only [ge_iff_le, decide_eq_true_eq] at hge
        have hnil : chunks.flatten = [] := List.eq_nil_of_length_eq_zero (by omega)
        rw [hnil, List.append_nil] at hnot
        exact hnot hfit
      obtain ⟨last, failure, hrun, hexceeds, hevents⟩ := ih fed (feed_free parse st chunk) hfit.2 hopen
        (fun e he => by have := hend e he; omega) hnot'
      refine ⟨last, failure, ?_, hexceeds, ?_⟩
      · rw [consumeChunks, hchunk, noteEnd, if_neg hmore]
        exact hrun
      · rw [hevents, hcut]
        simp only
        rw [linesWithin_all hfit.1, placeLines_append, ← List.append_assoc]
        rfl
    · obtain ⟨last, failure, hrun, hexceeds, hevents⟩ :=
        consumeChunk_fail parse max endOffset st chunk hfree hfits hopen hinside hfit
      refine ⟨last, failure, ?_, hexceeds, ?_⟩
      · rw [consumeChunks, hrun]
      · rw [hevents, linesWithin_prefix hfit]

/-! ## The range of a read -/

/-- The bytes between the start and the pinned end. -/
def byteRange (bytes : Bytes) (startOffset : ℕ) (endOffset : Option ℕ) : Bytes :=
  (match endOffset with
    | none => bytes
    | some e => bytes.take e).drop startOffset

/-- **What a read makes of a range**: the lines up to the first one over the limit, the tail,
or the failure, each of them determined by the bytes. -/
structure ReadsRange (H : Hasher) (options : JsonlReadOptions) (final : FileState) (range : Bytes)
    (read : JsonlRead α) : Prop where
  events : read.events = placeLines parse options.nextLineNumber options.startOffset
    (linesWithin options.maxLineBytes (Lines.cut LF range).1)
  fits : AllFit options.maxLineBytes (Lines.cut LF range) →
    read.result = closeRead H options final (feed parse (.initial options) range)
  exceeds : ¬ AllFit options.maxLineBytes (Lines.cut LF range) →
    ∃ failure, read.result = .error failure ∧ LineExceeds options.maxLineBytes failure
  summary : ∀ summary, read.result = .ok summary →
    summary.checkpointOffset = options.startOffset + (Lines.join LF (Lines.cut LF range).1).length ∧
      summary.nextLineNumber = options.nextLineNumber + (Lines.cut LF range).1.length ∧
      summary.completeLines = (Lines.cut LF range).1.length ∧ summary.bytesRead = range.length ∧
      summary.partialFinalLine =
        if (Lines.cut LF range).2 = [] then none
        else some ⟨summary.checkpointOffset, (Lines.cut LF range).2.length, summary.nextLineNumber⟩

/-- The pinned end does not precede the start. -/
theorem openChecks_end {options : JsonlReadOptions} {handle : FileState} {e : ℕ}
    (h : openChecks options (.file handle) = .ok (some e)) : options.startOffset ≤ e := by
  simp only [openChecks, checkReadOptions, checkEndOffset, Outcome.bind_ok, Outcome.exists_unit, Outcome.guard_ok,
    Outcome.pure_ok] at h
  obtain ⟨⟨-, -, hend, -⟩, -, snapshot, -, -, hstart, heq⟩ := h
  split at heq
  · have hsize := Option.some.inj heq
    omega
  · rw [heq] at hend
    simp only [Outcome.bind_ok, Outcome.exists_unit, Outcome.guard_ok] at hend
    omega

/-- **Scanning does not depend on chunking**: whatever the chunks are that the bytes of the
range come in, the read yields the lines of the range. -/
theorem scan_unchunked (H : Hasher) (options : JsonlReadOptions) (handle final : FileState) (chunks : List Bytes)
    (endOffset : Option ℕ) (hopen : openChecks options (.file handle) = .ok endOffset)
    (hchunks : chunks.flatten = byteRange handle.bytes options.startOffset endOffset) :
    ReadsRange parse H options final (byteRange handle.bytes options.startOffset endOffset)
      (iterateJsonlForward parse H options ⟨.file handle, chunks, final⟩) := by
  set range := byteRange handle.bytes options.startOffset endOffset with hrange
  have hlength : ∀ e, endOffset = some e → options.startOffset + range.length ≤ e := by
    rintro e rfl
    have hle := openChecks_end hopen
    rw [hrange, byteRange, List.length_drop, List.length_take]
    omega
  -- a read whose end is its start opens no stream
  have hdelivered : (if endOffset = some options.startOffset then [] else chunks).flatten = range := by
    split
    · next h =>
      have hnone := hlength options.startOffset h
      exact (List.eq_nil_of_length_eq_zero (by omega)).symm
    · exact hchunks
  set delivered := if endOffset = some options.startOffset then [] else chunks with hdeliveredDef
  have hfree : LF ∉ (ScanState.initial options : ScanState α).fragments := by simp [ScanState.initial]
  have hnothing : Fits options.maxLineBytes (ScanState.initial options : ScanState α).fragments.length :=
    fun m _ => Nat.zero_le m
  have hend : ∀ e, endOffset = some e → (ScanState.initial options : ScanState α).checkpointOffset +
      (ScanState.initial options : ScanState α).fragments.length + delivered.flatten.length ≤ e := by
    intro e he
    have := hlength e he
    rw [hdelivered]
    simpa [ScanState.initial] using this
  have hself : (ScanState.initial options : ScanState α).fragments ++ delivered.flatten = range := by
    rw [hdelivered]
    rfl
  rewrite [iterateJsonlForward, hopen]
  dsimp only
  rewrite [← hdeliveredDef]
  by_cases hfit : AllFit options.maxLineBytes (Lines.cut LF range)
  · obtain ⟨ended, hrun⟩ := (consumeChunks_spec parse options.maxLineBytes endOffset delivered (.initial options)
      hfree hnothing rfl hend).1 (by rw [hself]; exact hfit)
    rw [hdelivered] at hrun
    rw [hrun]
    have hall := linesWithin_all hfit.1 []
    rw [List.append_nil] at hall
    have hclose : closeRead H options final { feed parse (.initial options) range with reachedEnd := ended } =
        closeRead H options final (feed parse (.initial options) range) := rfl
    refine ⟨?_, fun _ => hclose, fun hnot => absurd hfit hnot, fun summary hsummary => ?_⟩
    · rw [hall]
      simp [feed, advance, ScanState.initial, linesWithin]
    · obtain ⟨-, snapshot, anchor, -, -, -, -, rfl⟩ := closeRead_ok.1 (hclose.symm.trans hsummary)
      simp [feed, advance, ScanState.initial]
  · obtain ⟨last, failure, hrun, hexceeds, hevents⟩ := consumeChunks_fail parse options.maxLineBytes endOffset
      delivered (.initial options) hfree hnothing rfl hend (by rw [hself]; exact hfit)
    rw [hself] at hevents
    rw [hrun]
    refine ⟨?_, fun h => absurd h hfit, fun _ => ⟨failure, rfl, hexceeds⟩, fun summary hsummary => ?_⟩
    · refine hevents.trans ?_
      simp [ScanState.initial]
    · cases hsummary

/-! ## A file in two chunks -/

/-- The file `a`, LF, `bb`, LF, `c`. -/
def chunkedFile : FileState := { dev := 1, ino := 2, birthtimeNs := 3, mtimeNs := 4, bytes := [97, 10, 98, 98, 10, 99] }

/-- Its second line is cut in the middle, and the first chunk ends with the limit of one byte
still kept. -/
theorem scan_unchunked_split : ReadsRange (fun raw => .ok raw) (.ofTable [])
    { maxLineBytes := some 1 } chunkedFile (byteRange chunkedFile.bytes 0 none)
    (iterateJsonlForward (fun raw => .ok raw) (.ofTable []) { maxLineBytes := some 1 }
      ⟨.file chunkedFile, [[97, 10, 98], [98, 10, 99]], chunkedFile⟩) :=
  scan_unchunked (fun raw => .ok raw) _ { maxLineBytes := some 1 } chunkedFile chunkedFile _ none rfl rfl

end

end Barbaro
