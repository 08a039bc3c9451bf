import Barbaro.Core.FeedAvailability
import Barbaro.Core.JsonlReader
import Barbaro.Nudge.ReadState

/-!
# Counting unread peer turns

Every hook transaction and every observer counts the same way: `virtualCursor` gives
the cursor of the present membership, `scanUnread` resumes every peer feed at its saved
checkpoint and counts the eligible turns that no delivery has acknowledged, and
`collapseReadCursor` moves each checkpoint over the contiguous prefix that holds no
unread turn.

* `scanLines_spec`: what a scan of the lines of one feed counts and where its prefix ends.
-/

namespace Barbaro

/-! ## Feeds -/

def maxFeedBytes : ℕ := 64 * 1024 * 1024
def maxRecordBytes : ℕ := 8 * 1024 * 1024

structure FeedKey where
  provider : JsString
  sessionId : JsString
  deriving DecidableEq, Repr

/-- The text the feeds are sorted by. -/
def FeedKey.text (k : FeedKey) : JsString := k.provider ++ 47 :: k.sessionId

def NudgeFeedCursor.key (f : NudgeFeedCursor) : FeedKey := ⟨f.provider, f.sessionId⟩

/-- A feed file of the listing, which takes only names that are a provider and a session
id, and what the file system shows of it during one scan: its path when the checkpoint is
resolved, the read from an offset up to an end, and the read of no bytes that takes the
anchor at an offset. -/
structure BarbaroFeedFile where
  provider : JsString
  sessionId : JsString
  provider_ok : isProvider provider = true
  sessionId_ok : isSessionId sessionId = true
  path : Opened
  scan : ℕ → ℕ → JsonlSource
  anchor : ℕ → JsonlSource

def BarbaroFeedFile.key (f : BarbaroFeedFile) : FeedKey := ⟨f.provider, f.sessionId⟩

/-- The key of one version of a record. The source joins the parts with `/`. -/
structure RecordKey where
  provider : JsString
  sessionId : JsString
  turnId : JsString
  recordSha256 : JsString
  deriving DecidableEq, Repr

def coverageRecordKey (e : NudgeReadCoverage) : RecordKey :=
  ⟨e.provider, e.sessionId, e.turnId, e.recordSha256⟩

section
variable {E : Host}

def recordKey (t : Turn E) : RecordKey := ⟨t.provider, t.sessionId, t.turnId, readRecordHash t⟩

/-! ## The cursor of an epoch -/

structure VirtualCursor where
  state : NudgeCursorV3
  reset : Bool
  existed : Bool
  /-- Valid v1 state being conservatively upgraded by a hook transaction. -/
  legacyMarkers : Option NudgeMarkersV1 := none

def migratedCursor (epoch : MembershipEpoch E) (c : NudgeCursorV1) : NudgeCursorV3 where
  provider := c.provider
  sessionId := c.sessionId
  workstreamId := c.workstreamId
  membershipFrom := c.membershipFrom
  cursorRevision := c.cursorRevision
  feedCursors := c.feedCursors
  markers := if c.markers.stop = some c.cursorRevision then { stop := some c.cursorRevision } else {}
  delivery := { highestUnreadCount := 0 }
  claudeTurnGeneration := match epoch.provider with | .claude => some 1 | .codex => none
  reads := emptyNudgeReadState
  updatedAt := c.updatedAt

/-- The cursor of a membership that has none of its own yet. -/
def freshCursor (epoch : MembershipEpoch E) (current : Option NudgeCursor) (revision : ℕ) :
    NudgeCursorV3 where
  provider := epoch.provider.text
  sessionId := epoch.sessionId
  workstreamId := epoch.workstreamId
  membershipFrom := epoch.start
  cursorRevision := revision
  feedCursors := []
  markers := {}
  delivery := { highestUnreadCount := 0 }
  claudeTurnGeneration :=
    match epoch.provider with
    | .claude =>
      match current with
      | some c => c.claudeTurnGeneration
      | none => some 1
    | .codex => none
  reads := emptyNudgeReadState
  updatedAt := epoch.start

/-- The cursor belongs to this membership. -/
def sameMembership (epoch : MembershipEpoch E) (c : NudgeCursor) : Bool :=
  c.workstreamId == epoch.workstreamId && c.membershipFrom == epoch.start

/-- The present cursor as this schema has it, or a new one for another membership. -/
def virtualCursor (epoch : MembershipEpoch E) (current : Option NudgeCursor) :
    Except Failure VirtualCursor :=
  match current.filter (sameMembership epoch) with
  | some (.v3 c) => .ok { state := c, reset := false, existed := true }
  | some (.v2 c) =>
    .ok { state := { c with reads := emptyNudgeReadState }, reset := true, existed := true }
  | some (.v1 c) =>
    .ok {
      state := migratedCursor epoch c, reset := true, existed := true
      legacyMarkers := some c.markers }
  | none =>
    let revision := ((current.map NudgeCursor.cursorRevision).getD 0) + 1
    if revision > maxSafeInteger then .error (.rangeError "nudge cursor revision overflow")
    else .ok {
      state := freshCursor epoch current revision
      reset := current.isSome, existed := current.isSome }

/-! ## Scanning the lines of one feed -/

/-- The turn on a line, if its record is one. -/
def turnOf (E : Host) (line : JsonlLine Json) : Option (Turn E) :=
  match line.kind with
  | .record v => Turn.ofJson E v
  | .malformed _ => none

/-- A turn of this feed, stamped with the workstream, that ended in the membership. -/
def eligible (epoch : MembershipEpoch E) (key : FeedKey) (t : Turn E) : Bool :=
  t.provider == key.provider && t.sessionId == key.sessionId &&
    t.workstreamId == some epoch.workstreamId && t.endedAtMs > epoch.startMs

/-- The local variables of `scanFeed`. -/
structure LineScan (E : Host) where
  unreadCount : ℕ := 0
  latest : Option (Turn E) := none
  unreadRecordKeys : List RecordKey := []
  collapsedRecordKeys : List RecordKey := []
  prefixOpen : Bool := true
  prefixOffset : ℕ
  prefixLine : ℕ
  firstUnread : Option (Turn E) := none

/-- Of two turns, the one that is kept as the newest. -/
def newer (latest : Option (Turn E)) (t : Turn E) : Option (Turn E) :=
  match latest with
  | none => some t
  | some l => if compareTurnRecency t l = .gt then some t else some l

variable (epoch : MembershipEpoch E) (key : FeedKey) (reads : NudgeReadState)
  (targets : Option (List RecordKey))

/-- One turn of `for (;;) { const line = … }`. -/
def scanLine (st : LineScan E) (line : JsonlLine Json) : LineScan E :=
  let turn := turnOf E line
  let isEligible := turn.any (eligible epoch key)
  let acknowledged := isEligible && turn.any (isReadRecordAcknowledged reads)
  let st :=
    if isEligible && !acknowledged then
      { st with
        firstUnread := if st.prefixOpen then turn else st.firstUnread
        prefixOpen := false }
    else st
  let st :=
    if st.prefixOpen then
      { st with
        prefixOffset := line.nextOffset
        prefixLine := line.lineNumber + 1
        collapsedRecordKeys :=
          match turn with
          | some t => if acknowledged then st.collapsedRecordKeys ++ [recordKey t]
            else st.collapsedRecordKeys
          | none => st.collapsedRecordKeys }
    else st
  match turn with
  | none => st
  | some t =>
    if t.provider ≠ key.provider ∨ t.sessionId ≠ key.sessionId then st
    else if t.workstreamId ≠ some epoch.workstreamId ∨ t.endedAtMs ≤ epoch.startMs then st
    else if acknowledged then st
    else
      { st with
        unreadRecordKeys :=
          if targets.any (fun ks => recordKey t ∈ ks) then st.unreadRecordKeys ++ [recordKey t]
          else st.unreadRecordKeys
        unreadCount := st.unreadCount + 1
        latest := newer st.latest t }

/-! ## Scanning one feed -/

structure FeedScan (E : Host) where
  coveredCheckpoint : JsonlCheckpoint
  collapsedRecordKeys : List RecordKey
  firstUnread : Option (Turn E)
  unreadCount : ℕ
  latest : Option (Turn E)
  unreadRecordKeys : List RecordKey

/-- `JSON.parse`; the message of its error is not modelled. -/
def parseJson (E : Host) (raw : JsString) : Except JsonlLineError Json :=
  match Json.parse E.float raw with
  | some v => .ok v
  | none => .error ⟨"SyntaxError", ""⟩

/-- `safeReadOptions` -/
def safeReadOptions : JsonlReadOptions :=
  { requireSingleLink := true, maxFileBytes := some maxFeedBytes }

/-- The summary at the end of the prefix of a scan: the end of the read, or, when a turn on
the way is unread, the place before it. -/
def prefixSummary (file : BarbaroFeedFile) (summary : JsonlReadSummary) (st : LineScan E) :
    Except Failure JsonlReadSummary :=
  if st.prefixOpen then .ok summary
  else
    (iterateJsonlForward (parseJson E) E.toHasher
      { safeReadOptions with
        startOffset := st.prefixOffset
        nextLineNumber := st.prefixLine
        endOffset := some st.prefixOffset } (file.anchor st.prefixOffset)).result

/-- The result of a scan once the lines have been read. -/
def closeScan (file : BarbaroFeedFile) (snapshot : FileSnapshot) (summary : JsonlReadSummary)
    (st : LineScan E) : Except Failure (FeedScan E) :=
  if !fileIdentityEquals summary.fileIdentity snapshot.identity then
    .error (.error "Barbaro feed identity changed during scan")
  else do
    let pre ← prefixSummary file summary st
    if !fileIdentityEquals pre.fileIdentity summary.fileIdentity then
      .error (.error "Barbaro feed identity changed during prefix collapse")
    else do
      let _ ← createJsonlCheckpoint summary.position
      let coveredCheckpoint ← createJsonlCheckpoint pre.position
      return {
        coveredCheckpoint
        collapsedRecordKeys := st.collapsedRecordKeys
        firstUnread := st.firstUnread
        unreadCount := st.unreadCount
        latest := st.latest
        unreadRecordKeys := st.unreadRecordKeys }

def scanFeed (file : BarbaroFeedFile) (checkpoint : Option JsonlCheckpoint) :
    Except Failure (FeedScan E) := do
  let resolution ← resolveJsonlCheckpoint E.toHasher file.path checkpoint
    { requireSingleLink := true, maxFileBytes := some maxFeedBytes }
  match resolution.snapshot with
  | none => .error missingFeedError
  | some snapshot => do
    let read := iterateJsonlForward (parseJson E) E.toHasher
      { safeReadOptions with
        startOffset := resolution.startOffset
        nextLineNumber := resolution.nextLineNumber
        endOffset := some snapshot.size
        maxLineBytes := some maxRecordBytes }
      (file.scan resolution.startOffset snapshot.size)
    let summary ← read.result
    closeScan file snapshot summary
      (read.events.foldl (scanLine epoch key reads targets)
        { prefixOffset := resolution.startOffset, prefixLine := resolution.nextLineNumber })

/-! ## Scanning all feeds -/

structure UnreadPeerTurnsReady (E : Host) where
  provider : ParticipatingProvider
  sessionId : JsString
  workstreamId : JsString
  membershipFrom : JsString
  cursorRevision : ℕ
  unreadCount : ℕ
  /-- Present when the count is only a lower bound because feeds are unavailable. -/
  coverage : Option FeedCoverageTracker
  /-- Remaining gaps after a delivered context or page window. -/
  outsideDeliveredWindow : Bool
  latest : Option (Turn E)

structure ScopedScan (E : Host) where
  ready : UnreadPeerTurnsReady E
  cursor : VirtualCursor
  coveredFeedCursors : List NudgeFeedCursor
  collapsedRecordKeys : List RecordKey
  firstUnread : Option (Turn E)
  unreadRecordKeys : List RecordKey
  unavailableFeedKeys : List FeedKey

/-- The local variables of `scanUnread`. -/
structure UnreadScan (E : Host) where
  covered : List NudgeFeedCursor
  availability : FeedCoverageTracker := {}
  unavailableFeedKeys : List FeedKey := []
  collapsedRecordKeys : List RecordKey := []
  firstUnread : Option (Turn E) := none
  unreadCount : ℕ := 0
  latest : Option (Turn E) := none
  unreadRecordKeys : List RecordKey := []

/-- The older of two turns that are the first unread ones of their feeds. -/
def older (first : Option (Turn E)) : Option (Turn E) → Option (Turn E)
  | none => first
  | some t =>
    match first with
    | none => some t
    | some f => if compareTurnRecency t f = .lt then some t else some f

/-- A feed that cannot be read is noted; any other failure ends the scan. -/
def noteUnavailable (st : UnreadScan E) (key : FeedKey) (failure : Failure) :
    Except Failure (UnreadScan E) :=
  match feedAvailabilityFailure key.provider key.sessionId failure with
  | some f =>
    .ok { st with
      availability := st.availability.noteUnavailable f
      unavailableFeedKeys := st.unavailableFeedKeys ++ [key] }
  | none => .error failure

/-- A saved feed that is not listed any more keeps its position. -/
def noteMissing (st : UnreadScan E) (prior : NudgeFeedCursor) : UnreadScan E :=
  match noteUnavailable st prior.key missingFeedError with
  | .ok st => st
  | .error _ => st

/-- The entry of a scanned feed in the covered positions. -/
def coverFeed (covered : List NudgeFeedCursor) (key : FeedKey) (prior : Option JsonlCheckpoint)
    (checkpoint : JsonlCheckpoint) : List NudgeFeedCursor :=
  let rest := covered.filter (fun f => f.key ≠ key)
  if checkpoint.byteOffset > 0 ∨ prior.map JsonlCheckpoint.byteOffset = some 0 then
    rest ++ [{ provider := key.provider, sessionId := key.sessionId, checkpoint }]
  else rest

/-- `saved.get(feedKey(file))?.checkpoint` -/
def savedCheckpoint (saved : List NudgeFeedCursor) (key : FeedKey) : Option JsonlCheckpoint :=
  (saved.find? (fun f => f.key = key)).map NudgeFeedCursor.checkpoint

/-- What a scanned feed adds. -/
def addScan (st : UnreadScan E) (key : FeedKey) (prior : Option JsonlCheckpoint)
    (scanned : FeedScan E) : UnreadScan E :=
  { st with
    availability := st.availability.noteScanned
    covered := coverFeed st.covered key prior scanned.coveredCheckpoint
    collapsedRecordKeys := st.collapsedRecordKeys ++ scanned.collapsedRecordKeys
    firstUnread := older st.firstUnread scanned.firstUnread
    unreadCount := st.unreadCount + scanned.unreadCount
    unreadRecordKeys := st.unreadRecordKeys ++ scanned.unreadRecordKeys
    latest := match scanned.latest with | some t => newer st.latest t | none => st.latest }

/-- One feed of the loop. -/
def scanOne (saved : List NudgeFeedCursor) (st : UnreadScan E) (file : BarbaroFeedFile) :
    Except Failure (UnreadScan E) :=
  if file.sessionId = epoch.sessionId then .ok st
  else
    match scanFeed epoch file.key reads targets file (savedCheckpoint saved file.key) with
    | .error failure => noteUnavailable st file.key failure
    | .ok scanned => .ok (addScan st file.key (savedCheckpoint saved file.key) scanned)

def compareFeedCursors (a b : NudgeFeedCursor) : Ordering :=
  compareUtf16CodeUnits a.key.text b.key.text

/-- `[...feeds].sort(compareFeedCursors)` -/
def sortFeedCursors (feeds : List NudgeFeedCursor) : List NudgeFeedCursor :=
  feeds.insertionSort (fun a b => compareFeedCursors a b ≠ .gt)

/-- Count the unread turns of all peer feeds from one cursor state. -/
def scanState (cursor : VirtualCursor) (files : List BarbaroFeedFile) :
    Except Failure (ScopedScan E) := do
  let saved := cursor.state.feedCursors
  let start := (saved.filter (fun f => f.key ∉ files.map BarbaroFeedFile.key)).foldl noteMissing
    ({ covered := saved } : UnreadScan E)
  let st ← files.foldlM (scanOne epoch cursor.state.reads targets saved) start
  return {
    ready := {
      provider := epoch.provider
      sessionId := epoch.sessionId
      workstreamId := epoch.workstreamId
      membershipFrom := epoch.start
      cursorRevision := cursor.state.cursorRevision
      unreadCount := st.unreadCount
      coverage := if st.availability.incomplete then some st.availability else none
      outsideDeliveredWindow := st.unreadCount > 0 && cursor.state.reads.outsideWindow
      latest := st.latest }
    cursor
    coveredFeedCursors := sortFeedCursors st.covered
    collapsedRecordKeys := st.collapsedRecordKeys
    firstUnread := st.firstUnread
    unreadRecordKeys := st.unreadRecordKeys
    unavailableFeedKeys := st.unavailableFeedKeys }

def scanUnread (current : Option NudgeCursor) (files : List BarbaroFeedFile) :
    Except Failure (ScopedScan E) := do
  let cursor ← virtualCursor epoch current
  scanState epoch targets cursor files

end

/-- Move only past a proved contiguous prefix; sparse coverage beyond gaps remains. -/
def collapseReadCursor {E : Host} (state : NudgeCursorV3) (scan : ScopedScan E) : NudgeCursorV3 :=
  { state with
    feedCursors := scan.coveredFeedCursors
    reads := { state.reads with
      coverage := state.reads.coverage.filter
        (fun e => coverageRecordKey e ∉ scan.collapsedRecordKeys) } }

end Barbaro
