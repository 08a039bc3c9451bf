import Barbaro.Nudge.Run
import Barbaro.Reader.RecordStore
import Barbaro.Reader.Types

/-!
# The newest turns of a feed

The catalogue and the scoped context both read a feed from its end, within a bound on the bytes.
The catalogue takes the newest turns of the session and then those of a workstream; the context
takes the newest turns of the workstream.

* `suffix_lines`: the complete lines of a suffix are the last lines of the file.
* `feed_scan_sound`: what the catalogue calls complete or clean, is.
* `shown_selected`: its turns of a workstream are the newest of those the context takes, and all
  of them exactly if the window hides none.
-/

namespace Barbaro.Reader

open RecordPage

/-! ## Lines -/

/-- The complete lines of a suffix, without the one that it cuts. What follows the last line end is
no line. -/
def completeSuffixLines (suffix : Bytes) (startsMidFile : Bool) : List Bytes :=
  let lines := (Lines.cut LF suffix).1
  ((if startsMidFile then lines.tail else lines).map contentBytes).filter (· ≠ [])

/-- **The lines of a suffix are the last lines of the file.** -/
theorem suffix_lines (bytes : Bytes) (start : ℕ) :
    completeSuffixLines (bytes.drop start) (decide (0 < start)) <:+ completeSuffixLines bytes false := by
  by_cases hstart : 0 < start
  · have hcut := Lines.cut_append LF (bytes.take start) (bytes.drop start)
    rw [List.take_append_drop, Lines.cut_append_of_free (Lines.cut_free LF (bytes.take start)).2] at hcut
    -- the line that the suffix cuts is the first one in it
    have htail : ∀ (f : Bytes) (ls : List Bytes), ls.tail <:+ Lines.glue f ls := by
      intro f ls
      cases ls with
      | nil => exact List.suffix_rfl
      | cons l ls => exact List.suffix_cons ..
    have hlines : (Lines.cut LF (bytes.drop start)).1.tail <:+ (Lines.cut LF bytes).1 := by
      rw [hcut]
      exact (htail _ _).trans (List.suffix_append ..)
    simp only [completeSuffixLines, hstart, decide_true, if_true, Bool.false_eq_true, if_false]
    exact (hlines.map contentBytes).filter _
  · have hzero : start = 0 := by omega
    subst hzero
    exact List.suffix_rfl

variable (E : Host)

/-- What a line of a feed holds. -/
inductive FeedLine (E : Host)
  | malformed
  | invalid
  | turn (turn : Turn E)

def feedLine (key : FeedKey) (line : Bytes) : FeedLine E :=
  match recordOf E line with
  | none => .malformed
  | some value =>
    match Turn.ofJson E value with
    | none => .invalid
    | some turn => if turn.provider = key.provider ∧ turn.sessionId = key.sessionId then .turn turn else .invalid

variable {E} in
def FeedLine.turn? : FeedLine E → Option (Turn E)
  | .turn t => some t
  | _ => none

/-- The turns on the lines. -/
def turnsOn (key : FeedKey) (lines : List Bytes) : List (Turn E) :=
  lines.filterMap (fun line => (feedLine E key line).turn?)

/-- The turns of a feed, newest first. -/
def wholeTurns (key : FeedKey) (bytes : Bytes) : List (Turn E) :=
  turnsOn E key (completeSuffixLines bytes false).reverse

/-! ## The catalogue -/

/-- The limits, which are checked to be positive. -/
structure CatalogueLimits where
  turnsPerSession : ℕ
  maxFileBytes : ℕ
  maxRecordBytes : ℕ
  maxScanBytes : ℕ
  turnsPerSession_pos : 0 < turnsPerSession
  maxScanBytes_pos : 0 < maxScanBytes

/-- A feed when it is measured and when it is read. -/
structure FeedSnapshot where
  path : String
  opened : FileState
  read : FileState

/-- What the loop has found. -/
structure SuffixScan where
  turns : List (Turn E) := []
  malformed : ℕ := 0
  invalid : ℕ := 0
  recentMalformed : Bool := false
  recentInvalid : Bool := false

structure FeedScan where
  turns : List (Turn E)
  malformed : ℕ
  invalid : ℕ
  partialTail : Bool
  scanLimited : Bool
  clean : Bool
  recentTurns : List (Turn E)
  recentCoverage : ReaderCoverage

def fileTooLarge (path : String) (maximumBytes : ℕ) : Failure :=
  .inputLimit s!"Barbaro store file {path} exceeds {maximumBytes} bytes" .file maximumBytes none

/-- The bytes of a file from a place on. -/
def readFrom (f : FileState) (start length : ℕ) : Except Failure Bytes :=
  if f.size < start + length then .error changedWhileRead else .ok ((f.bytes.drop start).take length)

/-- One line, from the last one to the first. -/
def scanLine (path : String) (key : FeedKey) (limits : CatalogueLimits) (st : SuffixScan E) (line : Bytes) :
    Except Failure (SuffixScan E) :=
  if line.length > limits.maxRecordBytes then .error (fileTooLarge path limits.maxRecordBytes)
  else
    let recent := decide (st.turns.length < limits.turnsPerSession)
    match feedLine E key line with
    | .malformed => .ok { st with malformed := st.malformed + 1, recentMalformed := st.recentMalformed || recent }
    | .invalid => .ok { st with invalid := st.invalid + 1, recentInvalid := st.recentInvalid || recent }
    | .turn turn => .ok { st with turns := st.turns ++ [turn] }

def recentCoverage (limits : CatalogueLimits) (partialTail scanLimited : Bool) (st : SuffixScan E) : ReaderCoverage :=
  if partialTail then { state := .limited, reason := some "feed_partial" }
  else if st.recentMalformed then { state := .limited, reason := some "feed_malformed" }
  else if st.recentInvalid then { state := .limited, reason := some "feed_invalid_records" }
  else if scanLimited && (st.turns.take limits.turnsPerSession).length < limits.turnsPerSession then
    { state := .limited, reason := some "feed_scan_limit" }
  else { state := .complete }

/-- The scan of one feed for the catalogue. -/
def scanFeed (key : FeedKey) (limits : CatalogueLimits) (feed : FeedSnapshot) : Except Failure (FeedScan E) := do
  assertSafeOpenedFile feed.path feed.opened limits.maxFileBytes
  let length := min feed.opened.size limits.maxScanBytes
  let start := feed.opened.size - length
  let suffix ← readFrom feed.read start length
  let partialTail := decide (suffix ≠ [] ∧ suffix.getLast? ≠ some LF)
  let st ← (completeSuffixLines suffix (decide (0 < start))).reverse.foldlM (scanLine E feed.path key limits) {}
  let scanLimited := decide (0 < start)
  return {
    turns := st.turns, malformed := st.malformed, invalid := st.invalid, partialTail, scanLimited
    clean := !scanLimited && !partialTail && st.malformed == 0 && st.invalid == 0
    recentTurns := st.turns.take limits.turnsPerSession
    recentCoverage := recentCoverage E limits partialTail scanLimited st }

/-! ## The scoped context -/

structure ReaderFileLimits where
  maxFileBytes : ℕ
  maxRecordBytes : ℕ
  maxScanBytes : ℕ

structure FeedReadResult where
  turns : List (Turn E)
  malformed : ℕ
  invalid : ℕ
  partialTail : Bool
  scanLimited : Bool
  windowLimited : Bool

structure NewestScan where
  turns : List (Turn E) := []
  malformed : ℕ := 0
  invalid : ℕ := 0
  windowLimited : Bool := false

def recordTooLarge (path : String) (maximumBytes : ℕ) : Failure :=
  .inputLimit s!"Barbaro JSONL record in {path} exceeds {maximumBytes} bytes" .record maximumBytes none

/-- The turn is in the scope. -/
def inScope (workstreamId : Option JsString) (turn : Turn E) : Bool :=
  workstreamId.all (fun id => turn.workstreamId == some id)

/-- The lines from the last one on, until the window is full and one more turn is in the scope. -/
def newestLoop (path : String) (key : FeedKey) (maximumRecords : ℕ) (limits : ReaderFileLimits)
    (workstreamId : Option JsString) : List Bytes → NewestScan E → Except Failure (NewestScan E)
  | [], st => .ok st
  | line :: lines, st =>
    if line.length > limits.maxRecordBytes then .error (recordTooLarge path limits.maxRecordBytes)
    else
      match feedLine E key line with
      | .malformed =>
        newestLoop path key maximumRecords limits workstreamId lines { st with malformed := st.malformed + 1 }
      | .invalid =>
        newestLoop path key maximumRecords limits workstreamId lines { st with invalid := st.invalid + 1 }
      | .turn turn =>
        if !inScope E workstreamId turn then newestLoop path key maximumRecords limits workstreamId lines st
        else if st.turns.length = maximumRecords then .ok { st with windowLimited := true }
        else newestLoop path key maximumRecords limits workstreamId lines { st with turns := st.turns ++ [turn] }

/-- The newest turns of one feed for the context. -/
def readNewestFeedTurns (key : FeedKey) (maximumRecords : ℕ) (limits : ReaderFileLimits)
    (workstreamId : Option JsString) (feed : FeedSnapshot) : Except Failure (FeedReadResult E) := do
  assertSafeOpenedFile feed.path feed.opened limits.maxFileBytes
  let length := min feed.opened.size limits.maxScanBytes
  let start := feed.opened.size - length
  let suffix ← readFrom feed.read start length
  let partialTail := decide (suffix ≠ [] ∧ suffix.getLast? ≠ some LF)
  let firstNewline := suffix.idxOf? LF
  if 0 < start ∧ firstNewline.any (limits.maxRecordBytes < ·) then
    throw (recordTooLarge feed.path limits.maxRecordBytes)
  if partialTail ∧ (Lines.cut LF suffix).2.length > limits.maxRecordBytes then
    throw (recordTooLarge feed.path limits.maxRecordBytes)
  let st ← newestLoop E feed.path key maximumRecords limits workstreamId
    (completeSuffixLines suffix (decide (0 < start))).reverse {}
  return {
    turns := st.turns, malformed := st.malformed, invalid := st.invalid, partialTail
    scanLimited := decide (0 < start), windowLimited := st.windowLimited }

/-! ## What the loops find -/

section
variable {E}

/-- Every line is a turn of the feed. -/
def Undamaged (key : FeedKey) (lines : List Bytes) : Prop := ∀ line ∈ lines, ((feedLine E key line).turn?).isSome = true

theorem turnsOn_append (key : FeedKey) (as bs : List Bytes) :
    turnsOn E key (as ++ bs) = turnsOn E key as ++ turnsOn E key bs := List.filterMap_append

/-- So it is if there are as many turns as lines. -/
theorem undamaged_iff {key : FeedKey} {lines : List Bytes} :
    (turnsOn E key lines).length = lines.length ↔ Undamaged (E := E) key lines := List.filterMap_length_eq_length

/-- The newest lines are turns, and they fill the window if there are more. -/
def Windowed (key : FeedKey) (turnsPerSession : ℕ) (lines : List Bytes) : Prop :=
  ∃ newest older, lines = newest ++ older ∧ Undamaged (E := E) key newest ∧
    (older ≠ [] → turnsPerSession ≤ newest.length)

/-- What the catalogue's loop knows of the lines it has seen, newest first: their turns, how many of
them are damaged, and whether one is before the window was full. -/
structure Scanned (key : FeedKey) (limits : CatalogueLimits) (lines : List Bytes) (st : SuffixScan E) : Prop where
  turns : st.turns = turnsOn E key lines
  count : lines.length = st.turns.length + st.malformed + st.invalid
  recent : st.recentMalformed = false → st.recentInvalid = false →
    Windowed (E := E) key limits.turnsPerSession lines

/-- A damaged line behind a full window leaves it full. -/
theorem Windowed.damaged {key : FeedKey} {turnsPerSession : ℕ} {lines : List Bytes}
    (h : Windowed (E := E) key turnsPerSession lines) (hfull : ¬ (turnsOn E key lines).length < turnsPerSession)
    (line : Bytes) : Windowed (E := E) key turnsPerSession (lines ++ [line]) := by
  obtain ⟨newest, older, rfl, hnewest, holder⟩ := h
  refine ⟨newest, older ++ [line], List.append_assoc .., hnewest, ?_⟩
  intro _
  by_cases hnone : older = []
  · rw [hnone, List.append_nil, undamaged_iff.2 hnewest] at hfull
    omega
  · exact holder hnone

/-- A turn is in the window, or behind it. -/
theorem Windowed.turn {key : FeedKey} {turnsPerSession : ℕ} {lines : List Bytes}
    (h : Windowed (E := E) key turnsPerSession lines) {line : Bytes}
    (hline : ((feedLine E key line).turn?).isSome = true) :
    Windowed (E := E) key turnsPerSession (lines ++ [line]) := by
  obtain ⟨newest, older, rfl, hnewest, holder⟩ := h
  by_cases hnone : older = []
  · refine ⟨newest ++ [line], [], ?_, ?_, fun h => absurd rfl h⟩
    · rw [hnone, List.append_nil, List.append_nil]
    · intro l hl
      rcases List.mem_append.1 hl with hl | hl
      · exact hnewest l hl
      · rw [List.mem_singleton.1 hl]
        exact hline
  · exact ⟨newest, older ++ [line], List.append_assoc .., hnewest, fun _ => holder hnone⟩

theorem turnsOn_damaged {key : FeedKey} {line : Bytes} (h : (feedLine E key line).turn? = none) (lines : List Bytes) :
    turnsOn E key (lines ++ [line]) = turnsOn E key lines := by
  have hnone : turnsOn E key [line] = [] := List.filterMap_cons_none h
  rw [turnsOn_append, hnone, List.append_nil]

theorem scanLine_scanned {path : String} {key : FeedKey} {limits : CatalogueLimits} {lines : List Bytes}
    {st st' : SuffixScan E} {line : Bytes} (hst : Scanned key limits lines st)
    (h : scanLine E path key limits st line = .ok st') : Scanned key limits (lines ++ [line]) st' := by
  have hlength : (lines ++ [line]).length = lines.length + 1 := List.length_append
  have hcount := hst.count
  unfold scanLine at h
  split at h
  · cases h
  rcases hkind : feedLine E key line with _ | _ | turn
  · rw [hkind] at h
    cases h
    have hnone : (feedLine E key line).turn? = none := by rw [hkind]; rfl
    refine ⟨hst.turns.trans (turnsOn_damaged hnone lines).symm, ?_, ?_⟩
    · rw [hlength]
      show lines.length + 1 = st.turns.length + (st.malformed + 1) + st.invalid
      omega
    · intro hmalformed hinvalid
      rw [Bool.or_eq_false_iff, decide_eq_false_iff_not, hst.turns] at hmalformed
      exact (hst.recent hmalformed.1 hinvalid).damaged hmalformed.2 line
  · rw [hkind] at h
    cases h
    have hnone : (feedLine E key line).turn? = none := by rw [hkind]; rfl
    refine ⟨hst.turns.trans (turnsOn_damaged hnone lines).symm, ?_, ?_⟩
    · rw [hlength]
      show lines.length + 1 = st.turns.length + st.malformed + (st.invalid + 1)
      omega
    · intro hmalformed hinvalid
      rw [Bool.or_eq_false_iff, decide_eq_false_iff_not, hst.turns] at hinvalid
      exact (hst.recent hmalformed hinvalid.1).damaged hinvalid.2 line
  · rw [hkind] at h
    cases h
    have hsome : (feedLine E key line).turn? = some turn := by rw [hkind]; rfl
    have hone : turnsOn E key [line] = [turn] := List.filterMap_cons_some hsome
    refine ⟨?_, ?_, fun hmalformed hinvalid => (hst.recent hmalformed hinvalid).turn (by rw [hsome]; rfl)⟩
    · rw [turnsOn_append, ← hst.turns, hone]
    · rw [hlength]
      show lines.length + 1 = (st.turns ++ [turn]).length + st.malformed + st.invalid
      rw [List.length_append, List.length_singleton]
      omega

theorem scanLines_scanned {path : String} {key : FeedKey} {limits : CatalogueLimits} {lines more : List Bytes}
    {st st' : SuffixScan E} (hst : Scanned key limits lines st)
    (h : more.foldlM (scanLine E path key limits) st = .ok st') : Scanned key limits (lines ++ more) st' := by
  induction more generalizing lines st with
  | nil =>
    cases h
    rw [List.append_nil]
    exact hst
  | cons line more ih =>
    rw [List.foldlM_cons] at h
    rcases hline : scanLine E path key limits st line with e | next
    · rw [hline] at h
      cases h
    · rw [hline] at h
      have hmore := ih (scanLine_scanned hst hline) h
      rw [List.append_assoc, List.singleton_append] at hmore
      exact hmore

/-! ## The suffix and the file -/

/-- The bytes of a feed that were there when it was measured. -/
def FeedSnapshot.content (feed : FeedSnapshot) : Bytes := feed.read.bytes.take feed.opened.size

theorem readFrom_content {feed : FeedSnapshot} {length : ℕ} {suffix : Bytes} (hlength : length ≤ feed.opened.size)
    (h : readFrom feed.read (feed.opened.size - length) length = .ok suffix) :
    suffix = feed.content.drop (feed.opened.size - length) ∧ feed.content.length = feed.opened.size := by
  unfold readFrom at h
  split at h
  · cases h
  next hsize =>
  cases h
  unfold FeedSnapshot.content FileState.size at *
  refine ⟨?_, ?_⟩
  · rw [List.drop_take]
    congr 1
    omega
  · rw [List.length_take]
    omega

/-- A file that ends with a line end has no torn tail. -/
theorem tail_nil {bytes : Bytes} (h : ¬ (bytes ≠ [] ∧ bytes.getLast? ≠ some LF)) : (Lines.cut LF bytes).2 = [] := by
  by_contra htail
  have hjoin := Lines.cut_eq LF bytes
  have hlast : bytes.getLast? = (Lines.cut LF bytes).2.getLast? := by
    conv_lhs => rw [← hjoin]
    rw [List.getLast?_append_of_ne_nil _ htail]
  refine h ⟨?_, ?_⟩
  · rintro rfl
    exact htail rfl
  · intro hend
    rw [hlast] at hend
    exact (Lines.cut_free LF bytes).2 (List.mem_of_getLast? hend)

/-- The lines that are read from the end of the file are its newest ones. -/
theorem newest_lines {feed : FeedSnapshot} {length : ℕ} {suffix : Bytes} (hlength : length ≤ feed.opened.size)
    (h : readFrom feed.read (feed.opened.size - length) length = .ok suffix) :
    ∃ rest, (completeSuffixLines feed.content false).reverse =
      (completeSuffixLines suffix (decide (0 < feed.opened.size - length))).reverse ++ rest ∧
        (feed.opened.size - length = 0 → rest = []) := by
  obtain ⟨hsuffix, -⟩ := readFrom_content hlength h
  obtain ⟨older, hlines⟩ := suffix_lines feed.content (feed.opened.size - length)
  rw [← hsuffix] at hlines
  refine ⟨older.reverse, ?_, ?_⟩
  · rw [← hlines, List.reverse_append]
  · intro hzero
    rw [hzero, List.drop_zero] at hsuffix
    rw [hsuffix, hzero, show decide (0 < 0) = false from rfl] at hlines
    have hcount := congrArg List.length hlines
    rw [List.length_append] at hcount
    have hnone : older = [] := List.eq_nil_of_length_eq_zero (by omega)
    rw [hnone, List.reverse_nil]

/-- What a scan of the catalogue has seen of the file. -/
structure SuffixOf (key : FeedKey) (limits : CatalogueLimits) (feed : FeedSnapshot) (scan : FeedScan E)
    (st : SuffixScan E) (lines rest : List Bytes) : Prop where
  whole : (completeSuffixLines feed.content false).reverse = lines ++ rest
  scanned : Scanned key limits lines st
  turns : scan.turns = st.turns
  recent : scan.recentTurns = st.turns.take limits.turnsPerSession
  coverage : scan.recentCoverage = recentCoverage E limits scan.partialTail scan.scanLimited st
  clean : scan.clean = (!scan.scanLimited && !scan.partialTail && st.malformed == 0 && st.invalid == 0)
  all : scan.scanLimited = false → rest = []
  tail : scan.partialTail = false → (Lines.cut LF feed.content).2 = []

theorem scanFeed_ok {key : FeedKey} {limits : CatalogueLimits} {feed : FeedSnapshot} {scan : FeedScan E}
    (h : scanFeed E key limits feed = .ok scan) : ∃ st lines rest, SuffixOf key limits feed scan st lines rest := by
  unfold scanFeed at h
  rcases hsafe : assertSafeOpenedFile feed.path feed.opened limits.maxFileBytes with e | _
  · rw [hsafe] at h
    cases h
  rw [hsafe] at h
  rcases hread : readFrom feed.read (feed.opened.size - min feed.opened.size limits.maxScanBytes)
    (min feed.opened.size limits.maxScanBytes) with e | suffix
  · simp only [hread, bind, Except.bind] at h
    cases h
  simp only [hread, bind, Except.bind] at h
  obtain ⟨hsuffix, hsize⟩ := readFrom_content (min_le_left _ _) hread
  set start := feed.opened.size - min feed.opened.size limits.maxScanBytes with hstart
  rcases hloop : (completeSuffixLines suffix (decide (0 < start))).reverse.foldlM (scanLine E feed.path key limits) {}
    with e | st
  · rw [hloop] at h
    cases h
  rw [hloop] at h
  cases h
  obtain ⟨rest, hwhole, hall⟩ := newest_lines (min_le_left _ _) hread
  refine ⟨st, (completeSuffixLines suffix (decide (0 < start))).reverse, rest, hwhole, ?_, rfl, rfl, rfl, rfl, ?_, ?_⟩
  · have hempty : Scanned key limits [] ({} : SuffixScan E) :=
      ⟨rfl, rfl, fun _ _ => ⟨[], [], rfl, fun _ h => (List.not_mem_nil h).elim, fun h => absurd rfl h⟩⟩
    exact scanLines_scanned hempty hloop
  · intro hlimited
    rw [decide_eq_false_iff_not] at hlimited
    exact hall (by omega)
  · intro htorn
    rw [decide_eq_false_iff_not] at htorn
    refine tail_nil ?_
    rintro ⟨hsome, hlast⟩
    have hlonger : 0 < feed.content.length := List.length_pos_iff.2 hsome
    have hpos := limits.maxScanBytes_pos
    have hrest : suffix ≠ [] := by
      rw [hsuffix, ← List.length_pos_iff, List.length_drop]
      omega
    refine htorn ⟨hrest, ?_⟩
    rw [hsuffix, List.getLast?_drop, if_neg (by omega)]
    exact hlast

/-- What the catalogue calls recent and complete is: the newest turns of the whole file, without
a damaged or torn line among the newest lines. -/
theorem recent_window {key : FeedKey} {limits : CatalogueLimits} {feed : FeedSnapshot} {scan : FeedScan E}
    (h : scanFeed E key limits feed = .ok scan) (hcomplete : scan.recentCoverage.state = .complete) :
    scan.recentTurns = (wholeTurns E key feed.content).take limits.turnsPerSession ∧
      Windowed (E := E) key limits.turnsPerSession (completeSuffixLines feed.content false).reverse ∧
      (Lines.cut LF feed.content).2 = [] := by
  obtain ⟨st, lines, rest, hscan⟩ := scanFeed_ok h
  rw [hscan.coverage, recentCoverage] at hcomplete
  split at hcomplete
  · cases hcomplete
  next htorn =>
  split at hcomplete
  · cases hcomplete
  next hmalformed =>
  split at hcomplete
  · cases hcomplete
  next hinvalid =>
  split at hcomplete
  · cases hcomplete
  next hlimited =>
  rw [Bool.not_eq_true] at htorn hmalformed hinvalid
  have hturns := hscan.scanned.turns
  -- if the scan has left lines out, the window is full
  have hfull : rest ≠ [] → limits.turnsPerSession ≤ st.turns.length := by
    intro hrest
    have hmid : scan.scanLimited = true := by
      rw [← Bool.not_eq_false]
      exact fun hall => hrest (hscan.all hall)
    rw [hmid, Bool.true_and, decide_eq_true_eq, List.length_take] at hlimited
    omega
  refine ⟨?_, ?_, hscan.tail htorn⟩
  · rw [hscan.recent, wholeTurns, hscan.whole, turnsOn_append, ← hturns]
    by_cases hrest : rest = []
    · rw [hrest]
      simp [turnsOn]
    · rw [List.take_append_of_le_length (hfull hrest)]
  · obtain ⟨newest, older, hlines, hnewest, holder⟩ := hscan.scanned.recent hmalformed hinvalid
    refine ⟨newest, older ++ rest, ?_, hnewest, ?_⟩
    · rw [hscan.whole, hlines, List.append_assoc]
    · intro hmore
      by_cases hnone : older = []
      · rw [hnone, List.nil_append] at hmore
        have hlong := hfull hmore
        rw [hturns, hlines, hnone, List.append_nil, undamaged_iff.2 hnewest] at hlong
        exact hlong
      · exact holder hnone

/-- What the catalogue calls clean is: every turn of the file, and nothing else in it. -/
theorem clean_feed {key : FeedKey} {limits : CatalogueLimits} {feed : FeedSnapshot} {scan : FeedScan E}
    (h : scanFeed E key limits feed = .ok scan) (hclean : scan.clean = true) :
    scan.turns = wholeTurns E key feed.content ∧ Undamaged (E := E) key (completeSuffixLines feed.content false) ∧
      (Lines.cut LF feed.content).2 = [] := by
  obtain ⟨st, lines, rest, hscan⟩ := scanFeed_ok h
  rw [hscan.clean] at hclean
  simp only [Bool.and_eq_true, Bool.not_eq_true', beq_iff_eq] at hclean
  obtain ⟨⟨⟨hall, htorn⟩, hmalformed⟩, hinvalid⟩ := hclean
  have hturns := hscan.scanned.turns
  have hcount := hscan.scanned.count
  have hwhole := hscan.whole
  rw [hscan.all hall, List.append_nil] at hwhole
  refine ⟨?_, ?_, hscan.tail htorn⟩
  · rw [hscan.turns, wholeTurns, hwhole, hturns]
  · have hlines : Undamaged (E := E) key lines := by
      have hlength : (turnsOn E key lines).length = lines.length := by
        rw [← hturns]
        omega
      exact undamaged_iff.1 hlength
    intro line hline
    refine hlines line ?_
    rw [← hwhole]
    exact List.mem_reverse.2 hline

/-- **A bounded scan claims no more than it has seen.** Recent turns that it calls complete are the
newest of the whole file, with no damaged or torn line among its newest lines; and in a feed that it
calls clean it has seen every turn, and there is nothing else in it. -/
theorem feed_scan_sound {key : FeedKey} {limits : CatalogueLimits} {feed : FeedSnapshot} {scan : FeedScan E}
    (h : scanFeed E key limits feed = .ok scan) :
    (scan.recentCoverage.state = .complete →
      scan.recentTurns = (wholeTurns E key feed.content).take limits.turnsPerSession ∧
        Windowed (E := E) key limits.turnsPerSession (completeSuffixLines feed.content false).reverse ∧
        (Lines.cut LF feed.content).2 = []) ∧
    (scan.clean = true →
      scan.turns = wholeTurns E key feed.content ∧ Undamaged (E := E) key (completeSuffixLines feed.content false) ∧
        (Lines.cut LF feed.content).2 = []) :=
  ⟨recent_window h, clean_feed h⟩

/-! ## The workstream's turns -/

/-- What the context's loop takes: the newest turns in the scope, up to the window. -/
theorem newestLoop_ok {path : String} {key : FeedKey} {maximumRecords : ℕ} {limits : ReaderFileLimits}
    {workstreamId : Option JsString} {lines : List Bytes} {st st' : NewestScan E}
    (hroom : st.turns.length ≤ maximumRecords)
    (h : newestLoop E path key maximumRecords limits workstreamId lines st = .ok st') :
    st'.turns = (st.turns ++ (turnsOn E key lines).filter (inScope E workstreamId)).take maximumRecords := by
  induction lines generalizing st with
  | nil =>
    cases h
    have hnone : turnsOn E key [] = [] := rfl
    rw [hnone, List.filter_nil, List.append_nil, List.take_of_length_le hroom]
  | cons line lines ih =>
    rw [newestLoop] at h
    split at h
    · cases h
    rcases hkind : feedLine E key line with _ | _ | turn
    · rw [hkind] at h
      have hcons : turnsOn E key (line :: lines) = turnsOn E key lines := by
        refine List.filterMap_cons_none ?_
        rw [hkind]
        rfl
      rw [hcons]
      have hmore := ih (by exact hroom) h
      exact hmore
    · rw [hkind] at h
      have hcons : turnsOn E key (line :: lines) = turnsOn E key lines := by
        refine List.filterMap_cons_none ?_
        rw [hkind]
        rfl
      rw [hcons]
      have hmore := ih (by exact hroom) h
      exact hmore
    · rw [hkind] at h
      have hcons : turnsOn E key (line :: lines) = turn :: turnsOn E key lines := by
        refine List.filterMap_cons_some ?_
        rw [hkind]
        rfl
      rw [hcons, List.filter_cons]
      dsimp only at h
      by_cases hscope : inScope E workstreamId turn = true
      · rw [hscope, Bool.not_true, if_neg Bool.false_ne_true] at h
        rw [if_pos hscope]
        by_cases hfull : st.turns.length = maximumRecords
        · rw [if_pos hfull] at h
          cases h
          rw [List.take_append_of_le_length (by omega), List.take_of_length_le hroom]
        · rw [if_neg hfull] at h
          have hmore : (st.turns ++ [turn]).length ≤ maximumRecords := by
            rw [List.length_append, List.length_singleton]
            omega
          rw [ih hmore h, List.append_assoc, List.singleton_append]
      · rw [Bool.not_eq_true] at hscope
        rw [hscope, Bool.not_false, if_pos rfl] at h
        rw [hscope, if_neg Bool.false_ne_true]
        exact ih hroom h

theorem readNewestFeedTurns_ok {key : FeedKey} {maximumRecords : ℕ} {limits : ReaderFileLimits}
    {workstreamId : Option JsString} {feed : FeedSnapshot} {result : FeedReadResult E}
    (h : readNewestFeedTurns E key maximumRecords limits workstreamId feed = .ok result)
    (hall : result.scanLimited = false ∨ result.turns.length = maximumRecords) :
    result.turns = ((wholeTurns E key feed.content).filter (inScope E workstreamId)).take maximumRecords := by
  unfold readNewestFeedTurns at h
  rcases hsafe : assertSafeOpenedFile feed.path feed.opened limits.maxFileBytes with e | _
  · rw [hsafe] at h
    cases h
  rw [hsafe] at h
  rcases hread : readFrom feed.read (feed.opened.size - min feed.opened.size limits.maxScanBytes)
    (min feed.opened.size limits.maxScanBytes) with e | suffix
  · simp only [hread, bind, Except.bind] at h
    cases h
  simp only [hread, bind, Except.bind] at h
  obtain ⟨rest, hwhole, hnone⟩ := newest_lines (min_le_left _ _) hread
  set start := feed.opened.size - min feed.opened.size limits.maxScanBytes with hstart
  split at h
  · cases h
  split at h
  · cases h
  rcases hloop : newestLoop E feed.path key maximumRecords limits workstreamId
    (completeSuffixLines suffix (decide (0 < start))).reverse {} with e | st
  · rw [hloop] at h
    cases h
  rw [hloop] at h
  cases h
  have hturns := newestLoop_ok (Nat.zero_le _) hloop
  rw [show ({} : NewestScan E).turns = [] from rfl, List.nil_append] at hturns
  show st.turns = _
  rw [wholeTurns, hwhole, turnsOn_append, List.filter_append]
  rcases hall with hall | hall
  · rw [decide_eq_false_iff_not] at hall
    rw [hnone (by omega), hturns]
    simp [turnsOn]
  · have hlong := hall
    rw [show st.turns.length = _ from congrArg List.length hturns, List.length_take] at hlong
    rw [List.take_append_of_le_length (by omega), hturns]

/-- What is taken before it is filtered is the beginning of what is filtered before it is taken. -/
theorem filter_take {α : Type} (p : α → Bool) (l : List α) (n : ℕ) :
    (l.filter p).take n = (l.take n).filter p ++ ((l.drop n).filter p).take (n - ((l.take n).filter p).length) := by
  have hle : ((l.take n).filter p).length ≤ n :=
    (List.length_filter_le ..).trans (List.length_take_le ..)
  conv_lhs => rw [← List.take_append_drop n l, List.filter_append]
  rw [List.take_append, List.take_of_length_le hle]

/-- They are the same exactly if nothing behind is let through, or everything in front is. -/
theorem filter_take_eq {α : Type} (p : α → Bool) (l : List α) (n : ℕ) :
    (l.take n).filter p = (l.filter p).take n ↔ (∀ x ∈ l.drop n, p x = false) ∨ ∀ x ∈ l.take n, p x = true := by
  rw [filter_take, List.self_eq_append_right, List.take_eq_nil_iff, List.filter_eq_nil_iff]
  simp only [Bool.not_eq_true]
  constructor
  · rintro (hfull | hnone)
    · refine .inr ?_
      have hle : (l.take n).length ≤ n := List.length_take_le ..
      have hlen : ((l.take n).filter p).length = (l.take n).length := by
        have := List.length_filter_le p (l.take n)
        omega
      exact List.length_filter_eq_length_iff.1 hlen
    · exact .inl hnone
  · rintro (hnone | hfront)
    · exact .inr hnone
    · rw [List.filter_eq_self.2 hfront, List.length_take]
      by_cases hlong : n ≤ l.length
      · exact .inl (by omega)
      · refine .inr ?_
        rw [List.drop_of_length_le (by omega)]
        exact fun x hx => (List.not_mem_nil hx).elim

/-- **The turns of a workstream that the catalogue shows are the newest of those the context takes**
with the same window, when neither has left a part out; and all of them exactly if no turn of the
workstream is behind the window of the session, or the window holds no other. -/
theorem shown_selected {key : FeedKey} {limits : CatalogueLimits} {fileLimits : ReaderFileLimits} {feed : FeedSnapshot}
    {workstreamId : JsString} {scan : FeedScan E} {result : FeedReadResult E}
    (hscan : scanFeed E key limits feed = .ok scan) (hcomplete : scan.recentCoverage.state = .complete)
    (hread : readNewestFeedTurns E key limits.turnsPerSession fileLimits (some workstreamId) feed = .ok result)
    (hall : result.scanLimited = false ∨ result.turns.length = limits.turnsPerSession) :
    scan.recentTurns.filter (inScope E (some workstreamId)) <+: result.turns ∧
      (scan.recentTurns.filter (inScope E (some workstreamId)) = result.turns ↔
        (∀ turn ∈ (wholeTurns E key feed.content).drop limits.turnsPerSession,
          inScope E (some workstreamId) turn = false) ∨
        ∀ turn ∈ (wholeTurns E key feed.content).take limits.turnsPerSession,
          inScope E (some workstreamId) turn = true) := by
  have hrecent := (recent_window hscan hcomplete).1
  have hselected := readNewestFeedTurns_ok hread hall
  rw [hrecent, hselected]
  refine ⟨?_, filter_take_eq ..⟩
  rw [filter_take]
  exact List.prefix_append ..

end

/-! ## The feed of a peer -/

def peerKey : FeedKey := ⟨js "codex", sampleId "ses" 2⟩

def peerSnapshot : FeedSnapshot := ⟨"feed", peerFile "hi", peerFile "hi"⟩

def peerLimits : CatalogueLimits := ⟨1, 4096, 4096, 4096, by decide, by decide⟩

/-- The one turn is all that the catalogue has found. -/
theorem peer_scanned : ((scanFeed sampleHost peerKey peerLimits peerSnapshot).toOption.any fun scan =>
    scan.clean && scan.recentCoverage.state == .complete && scan.recentTurns.length == 1) = true := by
  decide +kernel

theorem peer_selected : ((readNewestFeedTurns sampleHost peerKey 1 ⟨4096, 4096, 4096⟩ (some (sampleId "ws" 3))
    peerSnapshot).toOption.any fun result => !result.scanLimited && result.turns.length == 1) = true := by
  decide +kernel

theorem ok_of_any {α : Type} {x : Except Failure α} {p : α → Bool} (h : x.toOption.any p = true) :
    ∃ a, x = .ok a ∧ p a = true := by
  cases x with
  | error e => cases h
  | ok a => exact ⟨a, rfl, h⟩

theorem feed_scan_sound_peer : ∃ scan, scanFeed sampleHost peerKey peerLimits peerSnapshot = .ok scan ∧
    scan.turns = wholeTurns sampleHost peerKey peerSnapshot.content := by
  obtain ⟨scan, hscan, hclean⟩ := ok_of_any peer_scanned
  rw [Bool.and_eq_true, Bool.and_eq_true] at hclean
  exact ⟨scan, hscan, ((feed_scan_sound hscan).2 hclean.1.1).1⟩

theorem shown_selected_peer : ∃ (scan : FeedScan sampleHost) (result : FeedReadResult sampleHost),
    result.turns.length = 1 ∧ scan.recentTurns.filter (inScope sampleHost (some (sampleId "ws" 3))) <+: result.turns := by
  obtain ⟨scan, hscan, hcomplete⟩ := ok_of_any peer_scanned
  obtain ⟨result, hresult, hall⟩ := ok_of_any peer_selected
  rw [Bool.and_eq_true, Bool.and_eq_true] at hcomplete
  rw [Bool.and_eq_true] at hall
  refine ⟨scan, result, by simpa using hall.2, (shown_selected hscan (by simpa using hcomplete.1.2) hresult (.inl ?_)).1⟩
  simpa using hall.1

end Barbaro.Reader
