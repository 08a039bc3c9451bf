import Barbaro.Core.FeedAvailability
import Barbaro.Core.JsonlReader
import Barbaro.Nudge.Unread
import Barbaro.Output.JsonlStore
import Barbaro.Reader.RecordCursor

/-!
# Finding a record

A record page is made from one line of a canonical file. The first page looks for the line
(`findTurn`, `findEvidence`); a continuation reads the byte range its cursor has pinned, so
that the file may have grown meanwhile (`pinnedTurn`, `pinnedEvidence`).

* `isEvidenceV1`: the structural check of `barbaro.evidence.v1`.
-/

namespace Barbaro.RecordPage

structure RecordFileLimits where
  maxFileBytes : ℕ
  maxRecordBytes : ℕ
  deriving DecidableEq, Repr

/-- `stableStringify` throws for a number JSON cannot express. -/
def nonFiniteError : Failure := .typeError "Non-finite number"

def unsafePath (path reason : String) : Failure := .error s!"Unsafe Barbaro store path {path}: {reason}"

/-! ## Reading a whole file -/

/-- A canonical file at the moments one whole read looks at it. -/
structure RegularFileSource where
  path : String
  /-- The path when it is opened and first measured. -/
  opened : Opened
  read : FileState
  middle : FileState
  digest : FileState
  final : FileState

def assertSafeOpenedFile (path : String) (f : FileState) (maximumBytes : ℕ) : Except Failure Unit :=
  if !f.isFile then .error (unsafePath path "opened object is not a regular file")
  else if f.nlink ≠ 1 then .error (unsafePath path "final file has multiple hard links")
  else if f.size > maximumBytes then
    .error (.inputLimit s!"Barbaro store file {path} exceeds {maximumBytes} bytes" .file maximumBytes none)
  else .ok ()

def assertSameOpenedIdentity (path : String) (before after : FileState) : Except Failure Unit :=
  if before.dev ≠ after.dev ∨ before.ino ≠ after.ino then
    .error (unsafePath path "opened file identity changed while reading")
  else .ok ()

def changedWhileRead : Failure := .rangeError "Barbaro canonical file changed while being read"

/-- The first `length` bytes; it is an error if there are not so many. -/
def readExactly (f : FileState) (length : ℕ) : Except Failure Bytes :=
  if f.size < length then .error changedWhileRead else .ok (f.bytes.take length)

/-- What `open` refuses: a symbolic link is unsafe, anything else is the system's. -/
def openError (path code : String) : Failure :=
  if code = "ELOOP" then unsafePath path "final file is a symbolic link" else .system code

variable (E : Host)

/-- The bytes of a whole file, nothing if it is missing. They are read, and digested once
more, within the size the file had when it was opened. -/
def readPinnedRegularFile (src : RegularFileSource) (maximumBytes : ℕ) : Except Failure (Option Bytes) :=
  match src.opened with
  | .missing => .ok none
  | .refused code => .error (openError src.path code)
  | .file before => do
    assertSafeOpenedFile src.path before maximumBytes
    let bytes ← readExactly src.read before.size
    assertSafeOpenedFile src.path src.middle maximumBytes
    assertSameOpenedIdentity src.path before src.middle
    if src.middle.size < before.size then .error changedWhileRead
    else do
      let verification ← readExactly src.digest before.size
      assertSafeOpenedFile src.path src.final maximumBytes
      assertSameOpenedIdentity src.path before src.final
      if src.final.size < before.size ∨ E.sha256 verification ≠ E.sha256 bytes then .error changedWhileRead
      else return some bytes

/-! ## Lines -/

/-- The lines of a file in order, each with its offset, up to one that is too large. -/
structure RecordLines where
  lines : List (ℕ × Bytes)
  tooLarge : Bool
  deriving DecidableEq, Repr

/-- The loop over the complete lines from an offset; the unfinished line is measured last. -/
def completeLinesFrom (maximumRecordBytes : ℕ) (tail : Bytes) : ℕ → List Bytes → RecordLines
  | _, [] => ⟨[], tail.length > maximumRecordBytes⟩
  | start, l :: ls =>
    if (contentBytes l).length > maximumRecordBytes then ⟨[], true⟩
    else
      let rest := completeLinesFrom maximumRecordBytes tail (start + l.length + 1) ls
      if contentBytes l = [] then rest else { rest with lines := (start, contentBytes l) :: rest.lines }

def completeJsonlLines (bytes : Bytes) (maximumRecordBytes : ℕ) : RecordLines :=
  completeLinesFrom maximumRecordBytes (Lines.cut LF bytes).2 0 (Lines.cut LF bytes).1

/-- `parseJson`: nothing for what is no UTF-8 or no JSON. -/
def recordOf (line : Bytes) : Option Json := (textDecode line).bind (Json.parse E.float)

/-- A record and where its line stands. -/
structure FoundRecord where
  value : Json
  location : RecordLocation

def lineLocation (key : FeedKey) (line : ℕ × Bytes) : RecordLocation :=
  ⟨key.provider, key.sessionId, line.1, line.1 + line.2.length⟩

/-- The value names the session of the file it is in. -/
def storedUnder (key : FeedKey) (value : Json) : Bool :=
  equalsText key.provider (value.get (js "provider")) && equalsText key.sessionId (value.get (js "session_id"))

/-- What a search looks for in the lines of one file, and its two complaints. -/
structure RecordTarget where
  wanted : Json → Bool
  mismatch : Failure
  conflict : Failure

/-- One line: a wanted record must belong here, and agree with one found before. -/
def noteLine (target : RecordTarget) (key : FeedKey) (found : Option FoundRecord) (line : ℕ × Bytes) :
    Except Failure (Option FoundRecord) :=
  match recordOf E line.2 with
  | none => .ok found
  | some value =>
    if !target.wanted value then .ok found
    else if !storedUnder key value then .error target.mismatch
    else if hasInfinite value then .error nonFiniteError
    else if found.any (fun f => stableStringify f.value ≠ stableStringify value) then .error target.conflict
    else .ok (some ⟨value, lineLocation key line⟩)

def findInLines (target : RecordTarget) (key : FeedKey) (lines : List (ℕ × Bytes)) :
    Except Failure (Option FoundRecord) :=
  lines.foldlM (noteLine E target key) none

/-! ## Turns -/

/-- A file of the listing; a name of the file system has at most 255 bytes. -/
structure RecordFile where
  key : FeedKey
  provider_ok : isProvider key.provider = true ∧ key.provider.length ≤ 255
  sessionId_ok : isSessionId key.sessionId = true
  source : RegularFileSource

def wantedTurn (turnId : JsString) (value : Json) : Bool :=
  isTurnV1 E value && equalsText turnId (value.get (js "turn_id"))

def conflictingTurn (turnId : JsString) : Failure :=
  .error s!"Conflicting canonical turn ID: {messageText turnId}"

def turnTarget (turnId : JsString) : RecordTarget where
  wanted := wantedTurn E turnId
  mismatch := .error "Turn identity does not match its storage path"
  conflict := conflictingTurn turnId

/-- The state of a search over the feeds. -/
structure TurnSearch where
  found : Option FoundRecord := none
  skippedOversizedFeedFiles : ℕ := 0
  unavailable : ℕ := 0

structure FoundTurn where
  turn : Option FoundRecord
  skippedOversizedFeedFiles : ℕ
  unavailableFeedFiles : Option ℕ

/-- The count of the unavailable feeds is left out when there is none. -/
def TurnSearch.result (st : TurnSearch) : FoundTurn where
  turn := st.found
  skippedOversizedFeedFiles := st.skippedOversizedFeedFiles
  unavailableFeedFiles := if st.unavailable > 0 then some st.unavailable else none

/-- The lines of one feed. A feed is either wholly inside the limits or wholly skipped. -/
def searchBytes (turnId : JsString) (limits : RecordFileLimits) (st : TurnSearch) (key : FeedKey)
    (bytes : Bytes) : Except Failure TurnSearch := do
  let lines := completeJsonlLines bytes limits.maxRecordBytes
  let found ← findInLines E (turnTarget E turnId) key lines.lines
  if lines.tooLarge then
    return { st with skippedOversizedFeedFiles := st.skippedOversizedFeedFiles + 1 }
  else
    match found with
    | none => return st
    | some record =>
      if st.found.any (fun f => stableStringify f.value ≠ stableStringify record.value) then
        .error (conflictingTurn turnId)
      else return { st with found := some record }

def searchFeed (turnId : JsString) (limits : RecordFileLimits) (st : TurnSearch) (file : RecordFile) :
    Except Failure TurnSearch :=
  match readPinnedRegularFile E file.source limits.maxFileBytes with
  | .error failure =>
    match feedAvailabilityFailure file.key.provider file.key.sessionId failure with
    | none => .error failure
    | some f =>
      if f.reason = .fileTooLarge ∨ f.reason = .recordTooLarge then
        .ok { st with skippedOversizedFeedFiles := st.skippedOversizedFeedFiles + 1 }
      else .ok { st with unavailable := st.unavailable + 1 }
  | .ok none => .ok { st with unavailable := st.unavailable + 1 }
  | .ok (some bytes) => searchBytes E turnId limits st file.key bytes

def findTurn (files : List RecordFile) (turnId : JsString) (limits : RecordFileLimits) :
    Except Failure FoundTurn :=
  (files.foldlM (searchFeed E turnId limits) {}).map TurnSearch.result

/-! ## Evidence -/

def isSubagentEvidenceContent (v : Json) : Bool :=
  isNonEmptyString (v.get (js "role")) && isSafePositiveInteger (v.get (js "sequence")) &&
    isTurnOutcome (v.get (js "outcome")) && isDateTime E (v.get (js "started_at")) &&
    isDateTime E (v.get (js "ended_at")) && isContent (v.get (js "request")) &&
    isOptional isContent (v.get (js "response")) && isArrayOf isAction (v.get (js "actions"))

def isParentLink (value : Option Json) : Bool :=
  match value with
  | some (.obj fs) =>
    isOneOf ["native", "joined", "unresolved"] ((Json.obj fs).get (js "method")) &&
      isOptional isString ((Json.obj fs).get (js "native_key"))
  | _ => false

def evidenceKinds : List String :=
  ["prompt", "response", "command", "tool_call", "tool_result", "failure_excerpt", "usage",
    "attachment_metadata", "subagent_turn", "provider_event"]

def isSubagentEvidence (v : Json) : Bool := equalsText (js "subagent_turn") (v.get (js "kind"))

/-- The structural check of an evidence record. -/
def isEvidenceV1 (v : Json) : Bool :=
  isObject (some v) &&
    equalsText (js "barbaro.evidence.v1") (v.get (js "schema")) &&
    isPattern isEvidenceId (v.get (js "evidence_id")) &&
    isOneOf evidenceKinds (v.get (js "kind")) &&
    isPattern isTurnId (v.get (js "turn_id")) &&
    isPattern isProvider (v.get (js "provider")) &&
    isPattern isSessionId (v.get (js "session_id")) &&
    isOptional (isPattern isWorkstreamId) (v.get (js "workstream_id")) &&
    isNonEmptyString (v.get (js "agent_id")) &&
    isOptional (isPattern isTurnId) (v.get (js "parent_turn_id")) &&
    isDateTime E (v.get (js "occurred_at")) &&
    isArrayOf isSourceRef (v.get (js "source_refs")) &&
    isObject (v.get (js "content")) &&
    (!isSubagentEvidence v ||
      (isParentLink (v.get (js "parent_link")) &&
        isSubagentEvidenceContent E ((v.get (js "content")).getD .null)))

def wantedEvidence (evidenceId : JsString) (value : Json) : Bool :=
  isEvidenceV1 E value && equalsText evidenceId (value.get (js "evidence_id"))

def evidenceTarget (evidenceId : JsString) : RecordTarget where
  wanted := wantedEvidence E evidenceId
  mismatch := .error "Evidence identity does not match its storage path"
  conflict := .error s!"Conflicting canonical evidence ID: {messageText evidenceId}"

/-- The one evidence file of a session; here a line that is too large is an error. -/
def findEvidence (file : RegularFileSource) (key : FeedKey) (evidenceId : JsString)
    (limits : RecordFileLimits) : Except Failure (Option FoundRecord) := do
  let bytes ← readPinnedRegularFile E file limits.maxFileBytes
  match bytes with
  | none => return none
  | some bytes => do
    let lines := completeJsonlLines bytes limits.maxRecordBytes
    let found ← findInLines E (evidenceTarget E evidenceId) key lines.lines
    if lines.tooLarge then
      .error (.inputLimit s!"Barbaro JSONL record in {file.path} exceeds {limits.maxRecordBytes} bytes"
        .record limits.maxRecordBytes none)
    else return found

/-! ## Pinned ranges -/

/-- A canonical file at the moments a read of a pinned range looks at it. -/
structure RangeSource where
  path : String
  opened : Opened
  range : FileState
  preceding : FileState
  following : FileState
  final : FileState

def notAvailable : Failure := cursorError "target record is no longer available"
def framingChanged : Failure := cursorError "pinned record framing changed"

def assertPinnedDescriptor (path : String) (f : FileState) (location : RecordLocation) :
    Except Failure Unit :=
  if !f.isFile then .error (unsafePath path "opened object is not a regular file")
  else if f.nlink ≠ 1 then .error (unsafePath path "final file has multiple hard links")
  else if f.size < location.stop then .error notAvailable
  else .ok ()

/-- Up to `length` bytes at `position`; fewer only at the end of the file. -/
def readAt (f : FileState) (position length : ℕ) : Bytes := (f.bytes.drop position).take length

/-- A line ends here: with LF, or with CR and LF. -/
def isTerminated : Bytes → Bool
  | [] => false
  | [a] => a == LF
  | a :: b :: _ => a == LF || (a == CR && b == LF)

/-- Read exactly the pinned byte range of one record; it must still be one whole line. -/
def readPinnedRecordRange (src : RangeSource) (location : RecordLocation) (limits : RecordFileLimits) :
    Except Failure Bytes :=
  if location.stop > limits.maxFileBytes ∨ location.stop - location.start > limits.maxRecordBytes then
    .error (cursorError "pinned record is outside the reader limits")
  else
    match src.opened with
    | .missing => .error notAvailable
    | .refused code => .error (openError src.path code)
    | .file before => do
      assertPinnedDescriptor src.path before location
      let bytes := readAt src.range location.start (location.stop - location.start)
      if bytes.length ≠ location.stop - location.start then .error notAvailable
      else if location.start > 0 ∧ (readAt src.preceding (location.start - 1) 1).head? ≠ some LF then
        .error framingChanged
      else if !isTerminated (readAt src.following location.stop 2) then .error framingChanged
      else do
        assertPinnedDescriptor src.path src.final location
        assertSameOpenedIdentity src.path before src.final
        return bytes

/-- Resume from the byte range a cursor pinned: the record must still be there, and be the
same. -/
def pinnedRecord (wanted : Json → Bool) (src : RangeSource) (body : CursorBody)
    (limits : RecordFileLimits) : Except Failure FoundRecord := do
  let location := cursorLocation body
  let bytes ← readPinnedRecordRange src location limits
  match recordOf E bytes with
  | none => .error notAvailable
  | some value =>
    if !(wanted value && storedUnder ⟨location.provider, location.sessionId⟩ value) then .error notAvailable
    else if hasInfinite value then .error nonFiniteError
    else if readContentHash E (stableStringify value) ≠ body.h then
      .error (cursorError "cursor target changed since the prior page")
    else return ⟨value, location⟩

/-- Resume a turn page. The diagnostics are the ones the cursor has pinned. -/
def pinnedTurn (src : FeedKey → RangeSource) (body : CursorBody) (turnId : JsString)
    (limits : RecordFileLimits) : Except Failure FoundTurn := do
  let location := cursorLocation body
  let record ← pinnedRecord E (wantedTurn E turnId) (src ⟨location.provider, location.sessionId⟩) body limits
  return {
    turn := some record
    skippedOversizedFeedFiles := body.x
    unavailableFeedFiles := body.u }

/-- Resume an evidence page: the cursor must be one for this session. -/
def pinnedEvidence (src : RangeSource) (body : CursorBody) (key : FeedKey) (evidenceId : JsString)
    (limits : RecordFileLimits) : Except Failure FoundRecord :=
  let location := cursorLocation body
  if location.provider ≠ key.provider ∨ location.sessionId ≠ key.sessionId then
    .error (cursorError "cursor does not match this query")
  else pinnedRecord E (wantedEvidence E evidenceId) src body limits

end Barbaro.RecordPage
