import Barbaro.Reader.Projection
import Barbaro.Reader.Types
import Barbaro.Reader.UnreadCursor

/-!
# The batch of unread summaries

One call summarises what is unread for many members. The cursor of each is read once, each
feed is scanned once for all of them, and the cursors are read again at the end. Whatever
goes wrong with a cursor or a feed is noted with the members it is about (`noteIssue`), of
which the gravest issue stays; then each member is given a summary (`finishBatch`).

What the file system shows at each step is given.

* `gather`: all that is read, up to the state of each member.
* `readUnreadSummaryBatch`: the whole call.
-/

namespace Barbaro

def NudgeCursor.feedCursors : NudgeCursor → List NudgeFeedCursor
  | .v1 c => c.feedCursors
  | .v2 c => c.feedCursors
  | .v3 c => c.feedCursors

def NudgeCursor.updatedAt : NudgeCursor → JsString
  | .v1 c => c.updatedAt
  | .v2 c => c.updatedAt
  | .v3 c => c.updatedAt

namespace UnreadBatch

/-! ## Members and their state -/

/-- The complete identity of one current workstream membership. -/
structure ReaderUnreadRecipientKey where
  provider : JsString
  sessionId : JsString
  workstreamId : JsString
  membershipFrom : JsString
  deriving DecidableEq, Repr

inductive ReaderUnreadIssue
  | cursorInvalid
  | cursorRebuilt
  | cursorRefused
  | feedInvalid
  | feedPartial
  | feedRebuilt
  | feedRefused
  | feedScanLimited
  | feedSourceLimited
  deriving DecidableEq, Repr

def ReaderUnreadIssue.text : ReaderUnreadIssue → String
  | .cursorInvalid => "cursor_invalid"
  | .cursorRebuilt => "cursor_rebuilt"
  | .cursorRefused => "cursor_refused"
  | .feedInvalid => "feed_invalid"
  | .feedPartial => "feed_partial"
  | .feedRebuilt => "feed_rebuilt"
  | .feedRefused => "feed_refused"
  | .feedScanLimited => "feed_scan_limited"
  | .feedSourceLimited => "feed_source_limited"

structure UnreadLimits where
  maxRecipients : ℕ
  maxSourceEntries : ℕ
  maxCursorBytes : ℕ
  maxFeedBytes : ℕ
  maxRecordBytes : ℕ
  maxScanBytes : ℕ
  turnByteBudget : ℕ
  deriving DecidableEq, Repr

inductive CursorState
  | persisted
  | virtual
  | unknown
  deriving DecidableEq, Repr

inductive CursorSnapshot
  | virtual
  | persisted (cursor : NudgeCursor)
  | rebuilt
  | invalid
  | refused
  deriving DecidableEq

structure MutableRecipient (E : Host) where
  key : ReaderUnreadRecipientKey
  initialCursorSnapshot : CursorSnapshot
  cursorState : CursorState
  cursorRevision : Option ℕ := none
  cursorUpdatedAt : Option JsString := none
  cursor : Option NudgeCursor := none
  issue : Option ReaderUnreadIssue := none
  readState : ReaderReadState := .ok
  coverage : ReaderCoverage := { state := .complete }
  unreadCount : ℕ := 0
  newest : Option (Turn E) := none

/-- A graver issue takes the place of a lighter one. -/
def noteIssue {E : Host} (issue : ReaderUnreadIssue) (coverage : CoverageState) (r : MutableRecipient E) :
    MutableRecipient E :=
  if r.issue.isSome ∧ r.coverage.state.rank ≥ coverage.rank then r
  else
    { r with
      issue := some issue
      readState := if coverage = .refused then .refused else .degraded
      coverage := if coverage = .complete then { state := .complete }
        else { state := coverage, reason := some issue.text } }

/-! ## Files -/

/-- `length` bytes from a position; it is an error if there are not so many. -/
def readExactly (f : FileState) (position length : ℕ) : Except Failure Bytes :=
  if f.size < position + length then .error (.rangeError "source changed during read")
  else .ok ((f.bytes.drop position).take length)

/-- What the file system shows of a cursor: its directory, the file when it is opened, read,
read beyond its end and measured again. -/
structure CursorFile where
  /-- `verifyDirectory`: whether it is there. -/
  parent : Except Failure Bool
  opened : Opened
  read : Except Failure FileState
  extra : Except Failure FileState
  after : Except Failure FileState

section
variable (E : Host)

/-- A cursor file that was opened. -/
def readOpenedCursor (file : CursorFile) (before : FileState) (key : ReaderUnreadRecipientKey)
    (maximumBytes : ℕ) : Except Failure CursorSnapshot :=
  if !before.isFile ∨ before.nlink ≠ 1 then .ok .refused
  else do
    let snapshot ← snapshotFromStats before
    if snapshot.size > maximumBytes then return .refused
    else do
      let bytes ← readExactly (← file.read) 0 snapshot.size
      let extra ← file.extra
      let afterStats ← file.after
      if afterStats.nlink ≠ 1 then return .refused
      else do
        let after ← snapshotFromStats afterStats
        if extra.size > snapshot.size ∨ !fileIdentityEquals snapshot.identity after.identity ∨
            snapshot.size ≠ after.size ∨ snapshot.mtimeNs ≠ after.mtimeNs then return .rebuilt
        else
          match textDecode bytes with
          | none => return .invalid
          | some text =>
            match parseCursor E key.provider key.sessionId text with
            | .ok cursor => return .persisted cursor
            | .error _ => return .invalid

def readCursorSnapshot (file : CursorFile) (key : ReaderUnreadRecipientKey) (maximumBytes : ℕ) :
    CursorSnapshot :=
  match file.parent with
  | .error _ => .refused
  | .ok false => .virtual
  | .ok true =>
    match file.opened with
    | .missing => .virtual
    | .refused _ => .refused
    | .file before =>
      match readOpenedCursor E file before key maximumBytes with
      | .ok snapshot => snapshot
      | .error _ => .refused

/-- A member with its cursor, as it is first read. -/
def recipientOf (key : ReaderUnreadRecipientKey) (snapshot : CursorSnapshot) : MutableRecipient E :=
  let recipient : MutableRecipient E := {
    key, initialCursorSnapshot := snapshot
    cursorState := match snapshot with
      | .virtual => .virtual
      | .refused => .unknown
      | _ => .persisted }
  match snapshot with
  | .virtual => recipient
  | .refused => noteIssue .cursorRefused .refused recipient
  | .invalid => noteIssue .cursorInvalid .complete recipient
  | .rebuilt => noteIssue .cursorRebuilt .limited recipient
  | .persisted cursor =>
    let recipient :=
      { recipient with cursorRevision := some cursor.cursorRevision, cursorUpdatedAt := some cursor.updatedAt }
    if cursor.workstreamId ≠ key.workstreamId ∨ cursor.membershipFrom ≠ key.membershipFrom then
      noteIssue .cursorRebuilt .complete recipient
    else { recipient with cursor := some cursor }

/-- The cursor is read again; files of the same path are the same. -/
def revalidate (file : FeedKey → CursorFile) (maximumBytes : ℕ) (r : MutableRecipient E) : MutableRecipient E :=
  let next := readCursorSnapshot E (file ⟨r.key.provider, r.key.sessionId⟩) r.key maximumBytes
  match r.initialCursorSnapshot with
  | .virtual | .persisted _ =>
    if next = r.initialCursorSnapshot then r
    else if next = .refused then noteIssue .cursorRefused .refused r
    else noteIssue .cursorRebuilt .limited r
  | _ => r

/-! ## The list of feeds -/

/-- What the file system shows of a feed: its directory, the file when it is opened, at the
checks of a checkpoint, when it is read and measured again. -/
structure FeedSource where
  parent : Except Failure Bool
  opened : Opened
  anchor : ℕ → Except Failure FileState
  boundary : ℕ → Except Failure FileState
  read : Except Failure FileState
  after : Except Failure FileState

/-- An entry in the directory of a provider. -/
structure FeedEntry where
  name : JsString
  isFile : Bool
  source : FeedSource

/-- An entry in the directory of the feeds. Its own entries are nothing if it is gone. -/
structure ProviderEntry where
  name : JsString
  isDirectory : Bool
  entries : Except Failure (Option (List FeedEntry))

structure FeedFile where
  provider : JsString
  sessionId : JsString
  source : FeedSource

structure FeedList where
  files : List FeedFile := []
  total : ℕ := 0
  limited : Bool := false

/-- `SESSION_FEED_PATTERN` -/
def feedSession (name : JsString) : Option JsString :=
  let sessionId := name.take 36
  if isSessionId sessionId && name.drop 36 == js ".jsonl" then some sessionId else none

def unsafeStorePath (reason : String) : Failure := .error s!"Unsafe Barbaro store path: {reason}"

/-- The loop over the entries of one provider. -/
def listEntries (provider : JsString) (maximumEntries : ℕ) :
    List FeedEntry → List FeedFile × ℕ → Except Failure (List FeedFile × ℕ)
  | [], list => .ok list
  | entry :: entries, (files, total) =>
    match feedSession entry.name with
    | none => listEntries provider maximumEntries entries (files, total)
    | some sessionId =>
      if !entry.isFile then .error (unsafeStorePath "canonical feed path is not a real file")
      else
        let files := if files.length < maximumEntries then files ++ [⟨provider, sessionId, entry.source⟩] else files
        listEntries provider maximumEntries entries (files, total + 1)

/-- The loop over the providers. -/
def listProviders (maximumEntries : ℕ) :
    List ProviderEntry → List FeedFile × ℕ → Except Failure (List FeedFile × ℕ)
  | [], list => .ok list
  | provider :: providers, list =>
    if !validProvider provider.name then listProviders maximumEntries providers list
    else if !provider.isDirectory then
      .error (unsafeStorePath "feed provider component is not a real directory")
    else do
      match ← provider.entries with
      | none => listProviders maximumEntries providers list
      | some entries =>
        let sorted := entries.mergeSort (fun a b => compareUtf16CodeUnits a.name b.name ≠ .gt)
        let list ← listEntries provider.name maximumEntries sorted list
        listProviders maximumEntries providers list

def listFeedFiles (root : Except Failure (Option (List ProviderEntry))) (maximumEntries : ℕ) :
    Except Failure FeedList := do
  match ← root with
  | none => return {}
  | some providers =>
    let sorted := providers.mergeSort (fun a b => compareUtf16CodeUnits a.name b.name ≠ .gt)
    let (files, total) ← listProviders maximumEntries sorted ([], 0)
    return { files, total, limited := total > files.length }

/-- A checkpoint of the cursor whose feed is gone. -/
def missesFeed (feeds : List FeedFile) (r : MutableRecipient E) : Bool :=
  r.cursor.any fun cursor => cursor.feedCursors.any fun f =>
    !(f.provider == r.key.provider && f.sessionId == r.key.sessionId) &&
      !feeds.any (fun feed => feed.provider == f.provider && feed.sessionId == f.sessionId)

def noteMissingCheckpointFeeds (feeds : List FeedFile) (r : MutableRecipient E) : MutableRecipient E :=
  if missesFeed E feeds r then noteIssue .feedRebuilt .complete r else r

/-! ## Scanning one feed -/

/-- A member beside a feed, whether or not it needs it. -/
structure FeedNeed where
  recipient : MutableRecipient E
  needed : Bool
  checkpoint : Option JsonlCheckpoint
  start : Option ℕ := none
  readable : Bool := false

/-- A member needs all feeds but its own. -/
def needOf (feed : FeedFile) (r : MutableRecipient E) : FeedNeed E where
  recipient := r
  needed := !(r.key.provider == feed.provider && r.key.sessionId == feed.sessionId)
  checkpoint := r.cursor.bind fun cursor => (cursor.feedCursors.find? (fun f =>
    f.provider == feed.provider && f.sessionId == feed.sessionId)).map (·.checkpoint)

variable {E} in
def FeedNeed.note (issue : ReaderUnreadIssue) (coverage : CoverageState) (need : FeedNeed E) : FeedNeed E :=
  { need with recipient := noteIssue issue coverage need.recipient }

variable {E} in
/-- `markNeeds`, for those of the members that a test picks. -/
def markNeeds (picks : FeedNeed E → Bool) (issue : ReaderUnreadIssue) (coverage : CoverageState)
    (needs : List (FeedNeed E)) : List (FeedNeed E) :=
  needs.map (fun need => if picks need then need.note issue coverage else need)

variable {E} in
/-- The feed is refused to all that need it. -/
def refuseFeed (needs : List (FeedNeed E)) : List (FeedNeed E) :=
  markNeeds (·.needed) .feedRefused .refused needs

/-- The checkpoint still stands where it was set. -/
def checkpointHolds (source : FeedSource) (checkpoint : JsonlCheckpoint) : Except Failure Bool := do
  let anchor ← readCheckpointAnchor E.toHasher (← source.anchor checkpoint.byteOffset) checkpoint.byteOffset
  if anchor.byteLength ≠ checkpoint.anchor.byteLength ∨ anchor.sha256 ≠ checkpoint.anchor.sha256 then return false
  else if checkpoint.byteOffset = 0 then return true
  else do
    let file ← source.boundary checkpoint.byteOffset
    return file.bytes[checkpoint.byteOffset - 1]? == some LF

/-- Where the scan of a member begins. -/
def resolveStart (source : FeedSource) (pinned : FileSnapshot) (need : FeedNeed E) : FeedNeed E :=
  if !need.needed then need
  else
    match need.checkpoint with
    | none => { need with start := some 0 }
    | some checkpoint =>
      if !fileIdentityEquals pinned.identity checkpoint.fileIdentity ∨ pinned.size < checkpoint.byteOffset ∨
          pinned.size < checkpoint.observedSize then
        need.note .feedRebuilt .complete
      else
        match checkpointHolds E source checkpoint with
        | .ok true => { need with start := some checkpoint.byteOffset }
        | _ => need.note .feedRebuilt .complete

variable {E} in
def markReadable (need : FeedNeed E) : FeedNeed E :=
  { need with readable := need.start.isSome && need.recipient.issue.isNone }

variable {E} in
/-- The member reads the feed from this position, or from before it. -/
def readsFrom (position : ℕ) (need : FeedNeed E) : Bool := need.readable && need.start.any (· ≤ position)

/-- `isReadRecordAcknowledged`: the record is stringified if some entry is about it. -/
def recordAcknowledged (cursor : Option NudgeCursor) (turn : Turn E) : Except Failure Bool :=
  match cursor with
  | some (.v3 c) =>
    if (c.reads.coverage.filter (isCandidate turn)).isEmpty then .ok false
    else if hasInfinite turn.json then .error (.typeError "Non-finite number")
    else .ok (isReadRecordAcknowledged c.reads turn)
  | _ => .ok false

/-- A turn, for one member. -/
def countTurn (turn : Turn E) (r : MutableRecipient E) : Except Failure (MutableRecipient E) :=
  if r.issue.isSome ∨ turn.workstreamId ≠ some r.key.workstreamId ∨
      (E.dateParse r.key.membershipFrom).any (fun start => turn.endedAtMs ≤ start) then .ok r
  else do
    if ← recordAcknowledged E r.cursor turn then return r
    else return { r with unreadCount := r.unreadCount + 1, newest := newer r.newest turn }

/-- The loop over the members; those before an exception keep what they were given. -/
def countTurns (turn : Turn E) (position : ℕ) : List (FeedNeed E) → List (FeedNeed E) × Except Failure Unit
  | [] => ([], .ok ())
  | need :: needs =>
    if readsFrom position need then
      match countTurn E turn need.recipient with
      | .error f => (need :: needs, .error f)
      | .ok recipient =>
        let rest := countTurns turn position needs
        ({ need with recipient } :: rest.1, rest.2)
    else
      let rest := countTurns turn position needs
      (need :: rest.1, rest.2)

/-- The turn on a line of the feed. -/
def feedTurn (feed : FeedFile) (line : Bytes) : Option (Turn E) := do
  let text ← textDecode line
  let value ← Json.parse E.float text
  let turn ← Turn.ofJson E value
  if validProvider turn.provider && validTimestamp E (textAt "started_at" turn.json) &&
      validTimestamp E turn.endedAt && turn.provider == feed.provider && turn.sessionId == feed.sessionId then
    some turn
  else none

/-- `consumeFeedLine`, for a line that some member reads. -/
def consumeFeedLine (feed : FeedFile) (line : Bytes) (position : ℕ) (needs : List (FeedNeed E)) :
    List (FeedNeed E) × Except Failure Unit :=
  match feedTurn E feed line with
  | none => (markNeeds (readsFrom position) .feedInvalid .complete needs, .ok ())
  | some turn => countTurns E turn position needs

/-- A line without the carriage return before its end. -/
def lineContent (line : Bytes) : Bytes := if line.getLast? = some 13 then line.dropLast else line

/-- The loop over the complete lines. -/
def consumeLines (feed : FeedFile) (maximumRecordBytes : ℕ) :
    List Bytes → ℕ → List (FeedNeed E) → List (FeedNeed E) × Except Failure Unit
  | [], _, needs => (needs, .ok ())
  | line :: lines, position, needs =>
    let consumed :=
      if !needs.any (readsFrom position) then (needs, .ok ())
      else if (lineContent line).length > maximumRecordBytes then
        (markNeeds (readsFrom position) .feedRefused .refused needs, .ok ())
      else consumeFeedLine E feed (lineContent line) position needs
    match consumed with
    | (needs, .error f) => (needs, .error f)
    | (needs, .ok ()) => consumeLines feed maximumRecordBytes lines (position + line.length + 1) needs

/-- `consumeFeedBytes`: the complete lines, and what follows the last of them. -/
def consumeFeedBytes (feed : FeedFile) (maximumRecordBytes : ℕ) (bytes : Bytes) (absoluteStart : ℕ)
    (needs : List (FeedNeed E)) : List (FeedNeed E) × Except Failure Unit :=
  let cut := Lines.cut LF bytes
  match consumeLines E feed maximumRecordBytes cut.1 absoluteStart needs with
  | (needs, .error f) => (needs, .error f)
  | (needs, .ok ()) =>
    if cut.2 = [] then (needs, .ok ())
    else
      let partialStart := absoluteStart + (Lines.join LF cut.1).length
      (markNeeds (readsFrom partialStart) .feedPartial .limited needs, .ok ())

/-- The bytes of the range, and the file after they were read. -/
def readFeedRange (source : FeedSource) (start length : ℕ) : Except Failure (Bytes × ℕ × FileSnapshot) := do
  let bytes ← readExactly (← source.read) start length
  let afterStats ← source.after
  let after ← snapshotFromStats afterStats
  return (bytes, afterStats.nlink, after)

/-- What became of a feed, and whether it was pinned and scanned. -/
structure FeedScanned where
  needs : List (FeedNeed E)
  pinned : Bool := false
  scanned : Bool := false

/-- A feed that was pinned: the range from the earliest start is read for all. -/
def scanRange (feed : FeedFile) (limits : UnreadLimits) (pinned : FileSnapshot) (needs : List (FeedNeed E)) :
    FeedScanned E :=
  if !needs.any (·.readable) then { needs, pinned := true }
  else
    let starts := needs.filterMap (fun need => if need.readable then need.start else none)
    let earliest := starts.foldl min pinned.size
    let scanBytes := pinned.size - earliest
    if scanBytes > limits.maxScanBytes then
      { needs := markNeeds (fun need => need.readable && need.start.any (· < pinned.size))
          .feedScanLimited .limited needs
        pinned := true }
    else if scanBytes = 0 then { needs, pinned := true }
    else
      match readFeedRange feed.source earliest scanBytes with
      | .error _ => { needs := refuseFeed needs, pinned := true, scanned := true }
      | .ok (bytes, nlink, after) =>
        if nlink ≠ 1 ∨ !fileIdentityEquals pinned.identity after.identity ∨ after.size < pinned.size then
          { needs := markNeeds (·.readable) .feedRebuilt .limited needs, pinned := true, scanned := true }
        else
          match consumeFeedBytes E feed limits.maxRecordBytes bytes earliest needs with
          | (needs, .ok ()) => { needs, pinned := true, scanned := true }
          | (needs, .error _) => { needs := refuseFeed needs, pinned := true, scanned := true }

/-- The feed when it is opened, if its directory is there. -/
def openFeed (source : FeedSource) : Option FileState :=
  match source.parent, source.opened with
  | .ok true, .file f => some f
  | _, _ => none

def scanNeeds (feed : FeedFile) (limits : UnreadLimits) (needs : List (FeedNeed E)) : FeedScanned E :=
  match openFeed feed.source with
  | none => { needs := refuseFeed needs }
  | some before =>
    if !before.isFile ∨ before.nlink ≠ 1 then { needs := refuseFeed needs }
    else
      match snapshotFromStats before with
      | .error _ => { needs := refuseFeed needs }
      | .ok pinned =>
        if pinned.size > limits.maxFeedBytes then { needs := refuseFeed needs, pinned := true }
        else
          scanRange E feed limits pinned
            ((needs.map (resolveStart E feed.source pinned)).map markReadable)

structure ReaderUnreadBatchDiagnostics where
  cursorSnapshots : ℕ := 0
  feedFiles : ℕ := 0
  pinnedFeedFiles : ℕ := 0
  scannedFeedFiles : ℕ := 0
  deriving DecidableEq, Repr

/-- The members between two steps of the batch. -/
structure BatchState where
  recipients : List (MutableRecipient E)
  diagnostics : ReaderUnreadBatchDiagnostics

def scanPinnedFeed (limits : UnreadLimits) (state : BatchState E) (feed : FeedFile) : BatchState E :=
  let needs := state.recipients.map (needOf E feed)
  if !needs.any (·.needed) then state
  else
    let scanned := scanNeeds E feed limits needs
    { recipients := scanned.needs.map (·.recipient)
      diagnostics := { state.diagnostics with
        pinnedFeedFiles := state.diagnostics.pinnedFeedFiles + scanned.pinned.toNat
        scannedFeedFiles := state.diagnostics.scannedFeedFiles + scanned.scanned.toNat } }

/-! ## The batch -/

/-- The store, as the file system shows it during one call. -/
structure UnreadStore where
  cursors : FeedKey → CursorFile
  feeds : Except Failure (Option (List ProviderEntry))
  /-- The cursors, when they are read again. -/
  cursorsAfter : FeedKey → CursorFile

def readCursorSnapshots (store : UnreadStore) (keys : List ReaderUnreadRecipientKey) (limits : UnreadLimits) :
    BatchState E where
  recipients := keys.map (fun key => recipientOf E key
    (readCursorSnapshot E (store.cursors ⟨key.provider, key.sessionId⟩) key limits.maxCursorBytes))
  diagnostics := { cursorSnapshots :=
    ((keys.map (fun key => (key.provider, key.sessionId))).dedup).length }

def mapRecipients (f : MutableRecipient E → MutableRecipient E) (state : BatchState E) : BatchState E :=
  { state with recipients := state.recipients.map f }

/-- What the feeds give. -/
def readFeeds (store : UnreadStore) (limits : UnreadLimits) (state : BatchState E) : BatchState E :=
  match listFeedFiles store.feeds limits.maxSourceEntries with
  | .error _ => mapRecipients E (noteIssue .feedRefused .refused) state
  | .ok feedList =>
    let state := { state with diagnostics := { state.diagnostics with feedFiles := feedList.total } }
    if feedList.limited then mapRecipients E (noteIssue .feedSourceLimited .limited) state
    else
      feedList.files.foldl (scanPinnedFeed E limits)
        (mapRecipients E (noteMissingCheckpointFeeds E feedList.files) state)

/-- The state of the members that are shown, before they are given their summaries. -/
def gather (store : UnreadStore) (keys : List ReaderUnreadRecipientKey) (limits : UnreadLimits) : BatchState E :=
  mapRecipients E (revalidate E store.cursorsAfter limits.maxCursorBytes)
    (readFeeds E store limits (readCursorSnapshots E store keys limits))

end

structure ReaderUnreadTurn where
  provider : JsString
  sessionId : JsString
  turn : ReaderProjection Json

inductive ReaderUnreadStatus
  | ready (unreadCount : ℕ) (newest : Option ReaderUnreadTurn)
  | unknown (issue : ReaderUnreadIssue)

structure ReaderUnreadSummary where
  key : ReaderUnreadRecipientKey
  cursorState : CursorState
  cursorRevision : Option ℕ
  cursorUpdatedAt : Option JsString
  readState : ReaderReadState
  coverage : ReaderCoverage
  status : ReaderUnreadStatus

structure ReaderUnreadBatch where
  shown : ℕ
  total : ℕ
  hidden : ℕ
  items : List ReaderUnreadSummary
  readState : ReaderReadState
  coverage : ReaderCoverage
  diagnostics : ReaderUnreadBatchDiagnostics

section
variable {E : Host}

def projectUnreadTurn (turn : Turn E) (byteBudget : ℕ) : Except Failure ReaderUnreadTurn :=
  match projectTurn turn.json { byteBudget } with
  | .ok projection => .ok { provider := turn.provider, sessionId := turn.sessionId, turn := projection }
  | .error e => .error e.failure

def finishStatus (r : MutableRecipient E) (turnByteBudget : ℕ) : Except Failure ReaderUnreadStatus :=
  match r.issue with
  | some issue => .ok (.unknown issue)
  | none =>
    match r.newest with
    | none => .ok (.ready r.unreadCount none)
    | some turn => do
      let newest ← projectUnreadTurn turn turnByteBudget
      return .ready r.unreadCount (some newest)

def finishRecipient (turnByteBudget : ℕ) (r : MutableRecipient E) : Except Failure ReaderUnreadSummary := do
  let status ← finishStatus r turnByteBudget
  return {
    key := r.key, cursorState := r.cursorState, cursorRevision := r.cursorRevision
    cursorUpdatedAt := r.cursorUpdatedAt, readState := r.readState, coverage := r.coverage, status }

def finishBatch (state : BatchState E) (total hidden turnByteBudget : ℕ) : Except Failure ReaderUnreadBatch := do
  let items ← state.recipients.mapM (finishRecipient turnByteBudget)
  let refused := items.any (fun item => item.readState = .refused)
  let degraded := items.any (fun item => item.readState = .degraded)
  let limited := hidden > 0 || items.any (fun item => item.coverage.state = .limited)
  return {
    shown := items.length, total, hidden, items
    readState := if refused then .refused else if degraded || hidden > 0 then .degraded else .ok
    coverage :=
      if refused then { state := .refused, reason := some "unread_source_refused" }
      else if limited then
        { state := .limited, reason := some (if hidden > 0 then "recipient_limit" else "unread_source_limited") }
      else { state := .complete }
    diagnostics := state.diagnostics }

end

/-! ## Options -/

structure ReaderUnreadBatchOptions where
  projectRoot : JsString
  recipients : List ReaderUnreadRecipientKey
  maxRecipients : ℤ := 256
  maxSourceEntries : ℤ := 4096
  maxCursorBytes : ℤ := 1024 * 1024
  maxFeedBytes : ℤ := 64 * 1024 * 1024
  maxRecordBytes : ℤ := 8 * 1024 * 1024
  maxScanBytesPerFeed : ℤ := 16 * 1024 * 1024
  turnByteBudget : ℤ := 4 * 1024

def positiveInteger (value : ℤ) (name : String) : Except Failure ℕ :=
  if value ≤ 0 ∨ (maxSafeInteger : ℤ) < value then
    .error (.typeError s!"{name} must be a positive safe integer")
  else .ok value.toNat

def recipientKey (key : ReaderUnreadRecipientKey) : JsString :=
  key.provider ++ 0 :: (key.sessionId ++ 0 :: (key.workstreamId ++ 0 :: key.membershipFrom))

section
variable (E : Host)

def validateRecipientKey (key : ReaderUnreadRecipientKey) : Except Failure Unit :=
  if validProvider key.provider && isSessionId key.sessionId && isWorkstreamId key.workstreamId &&
      validTimestamp E key.membershipFrom then .ok ()
  else .error (.typeError "invalid unread recipient key")

def validateOptions (options : ReaderUnreadBatchOptions) : Except Failure UnreadLimits := do
  if options.projectRoot = [] then .error (.typeError "projectRoot must not be empty")
  else do
    options.recipients.forM (validateRecipientKey E)
    return {
      maxRecipients := ← positiveInteger options.maxRecipients "maxRecipients"
      maxSourceEntries := ← positiveInteger options.maxSourceEntries "maxSourceEntries"
      maxCursorBytes := ← positiveInteger options.maxCursorBytes "maxCursorBytes"
      maxFeedBytes := ← positiveInteger options.maxFeedBytes "maxFeedBytes"
      maxRecordBytes := ← positiveInteger options.maxRecordBytes "maxRecordBytes"
      maxScanBytes := ← positiveInteger options.maxScanBytesPerFeed "maxScanBytesPerFeed"
      turnByteBudget := ← positiveInteger options.turnByteBudget "turnByteBudget" }

/-- The members in the order of their keys. -/
def sortedRecipients (options : ReaderUnreadBatchOptions) : List ReaderUnreadRecipientKey :=
  options.recipients.mergeSort (fun a b => compareUtf16CodeUnits (recipientKey a) (recipientKey b) ≠ .gt)

def assertUniqueRecipients : List ReaderUnreadRecipientKey → Except Failure Unit
  | a :: b :: keys =>
    if recipientKey a = recipientKey b then .error (.typeError "duplicate unread recipient key")
    else assertUniqueRecipients (b :: keys)
  | _ => .ok ()

/-- The summaries of the first members in the order of their keys; the others are counted. -/
def readUnreadSummaryBatch (store : UnreadStore) (options : ReaderUnreadBatchOptions) :
    Except Failure ReaderUnreadBatch := do
  let limits ← validateOptions E options
  let sorted := sortedRecipients options
  assertUniqueRecipients sorted
  let shownKeys := sorted.take limits.maxRecipients
  finishBatch (gather E store shownKeys limits) sorted.length (sorted.length - shownKeys.length)
    limits.turnByteBudget

end

end UnreadBatch

end Barbaro
