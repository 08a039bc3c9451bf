import Barbaro.Lib.Utf8Cuts
import Barbaro.Reader.Budget
import Barbaro.Reader.RecordStore

/-!
# Pages of one record

A field of a turn or of an evidence record is paged through as UTF-8. A page shows as much
as fits the budget, and unless it is the last it hands out the cursor of the next one.

* `pageSelectedText`: the page of a text at a cursor.
* `readTurnRecordPageSnapshot`, `readEvidenceRecordPage`: the two readers.
-/

namespace Barbaro.RecordPage

/-! ## The selected text -/

inductive TurnField
  | record
  | request
  | response
  | actions
  deriving DecidableEq, Repr

inductive EvidenceField
  | record
  | content
  | request
  | response
  | actions
  deriving DecidableEq, Repr

def TurnField.text : TurnField → JsString
  | .record => js "record"
  | .request => js "request"
  | .response => js "response"
  | .actions => js "actions"

def EvidenceField.text : EvidenceField → JsString
  | .record => js "record"
  | .content => js "content"
  | .request => js "request"
  | .response => js "response"
  | .actions => js "actions"

/-- The value at a key the check has found to be there. -/
def memberAt (key : String) (v : Json) : Json := (v.get (js key)).getD .null

/-- A content that may be missing. -/
def selectOptionalContent (content : Option Json) : SelectedText :=
  match content with
  | none => { present := false, text := [] }
  | some v => selectDirectText (textAt "text" v)

def selectTurnText (turn : Json) : TurnField → SelectedText
  | .record => { present := true, text := stableStringify turn }
  | .request => selectDirectText (textAt "text" (memberAt "request" turn))
  | .response => selectOptionalContent (turn.get (js "response"))
  | .actions => { present := true, text := stableStringify (memberAt "actions" turn) }

/-- The text of the content of a prompt or of a response. -/
def nestedContentText (evidence : Json) (requiredKind : String) : Option JsString :=
  if equalsText (js requiredKind) (evidence.get (js "kind")) = false then none
  else textAt? "text" (memberAt "text" (memberAt "content" evidence))

def selectOptionalText (text : Option JsString) : SelectedText :=
  match text with
  | none => { present := false, text := [] }
  | some text => selectDirectText text

def selectEvidenceText (evidence : Json) : EvidenceField → SelectedText
  | .record => { present := true, text := stableStringify evidence }
  | .content => { present := true, text := stableStringify (memberAt "content" evidence) }
  | .request =>
    if isSubagentEvidence evidence then
      selectDirectText (textAt "text" (memberAt "request" (memberAt "content" evidence)))
    else selectOptionalText (nestedContentText evidence "prompt")
  | .response =>
    if isSubagentEvidence evidence then
      selectOptionalContent ((memberAt "content" evidence).get (js "response"))
    else selectOptionalText (nestedContentText evidence "response")
  | .actions =>
    if isSubagentEvidence evidence then
      { present := true, text := stableStringify (memberAt "actions" (memberAt "content" evidence)) }
    else { present := false, text := [] }

def cursorFieldBinding (field : JsString) (selected : SelectedText) : JsString :=
  if selected.representation = some "json-string" then field ++ jsonStringCursorSuffix else field

/-! ## A page of it -/

structure PageSlice where
  start : ℕ
  /-- The source's `end`. -/
  stop : ℕ
  text : JsString
  complete : Bool
  nextCursor : Option JsString
  deriving DecidableEq, Repr

/-- The end of the code point at an offset. -/
def nextCodePointEnd (bytes : Bytes) (start : ℕ) : Except Failure ℕ :=
  if bytes.length ≤ start ∨ Utf8.isBoundary bytes start = false then
    .error (cursorError "offset is not a UTF-8 boundary")
  else .ok (Utf8.nextEnd bytes start)

def previousCodePointBoundary (bytes : Bytes) (candidate minimum : ℕ) : ℕ :=
  Utf8.lastBoundary bytes minimum (max candidate minimum)

/-- The bytes of a text. A buffer has no more than `buffer.constants.MAX_LENGTH` bytes. -/
def bufferFrom (text : JsString) : Except Failure Bytes :=
  if byteLength text > maxSafeInteger then .error (.rangeError "Array buffer allocation failed")
  else .ok (utf8 text)

section
variable (E : Host) {P : Type}

def decodeCursor (cursor : JsString) (expected : CursorBinding) (fieldBytes : Bytes) : Except Failure ℕ := do
  let body ← parseCursor E cursor
  assertCursorQuery body expected.toCursorQueryBinding
  if body.h ≠ expected.recordSha256 then
    .error (cursorError "cursor target changed since the prior page")
  else if fieldBytes.length ≤ body.o then .error (cursorError "offset is outside the selected field")
  else if Utf8.isBoundary fieldBytes body.o = false then
    .error (cursorError "offset is not a UTF-8 boundary")
  else return body.o

/-- The slice of a text between two offsets; the last one hands out no cursor. -/
def sliceAt (binding : CursorBinding) (bytes : Bytes) (start stop : ℕ) (text : JsString) : PageSlice where
  start := start
  stop := stop
  text := text
  complete := stop = bytes.length
  nextCursor := if stop = bytes.length then none else some (encodeCursor E binding stop)

/-- The loop of the binary search for the largest end whose page fits: `low` and `past` are
its bounds, of which the second is not within reach. A page that does not fit moves it. -/
def searchPages (pageAt : ℕ → Except ProjectionFailure P) (endAt : ℕ → ℕ) :
    ℕ → ℕ → ℕ → Option P → Except ProjectionFailure (Option P)
  | 0, _, _, best => .ok best
  | rounds + 1, low, past, best =>
    if low < past then
      let middle := low + (past - 1 - low) / 2
      match pageAt (endAt middle) with
      | .ok page => searchPages pageAt endAt rounds (middle + 1) past (some page)
      | .error (.budgetTooSmall _ _) => searchPages pageAt endAt rounds low middle best
      | .error (.other failure) => .error (.other failure)
    else .ok best

/-- The page up to an end. -/
def pageUpTo (json : PageSlice → Json) (binding : CursorBinding) (byteBudget : ℕ) (bytes : Bytes)
    (start stop : ℕ) : Except ProjectionFailure (ReaderProjection PageSlice) :=
  match textDecode ((bytes.drop start).take (stop - start)) with
  | none => .error (.other (.typeError "The encoded data was not valid for encoding utf-8"))
  | some text => wrapReaderProjection json (sliceAt E binding bytes start stop text) byteBudget

/-- The longest page that is not the last; a valid page advances by at least one code point. -/
def partialPage (json : PageSlice → Json) (binding : CursorBinding) (byteBudget : ℕ) (bytes : Bytes)
    (start : ℕ) : Except ProjectionFailure (ReaderProjection PageSlice) :=
  match nextCodePointEnd bytes start with
  | .error failure => .error (.other failure)
  | .ok minimumEnd => do
    let pageAt := pageUpTo E json binding byteBudget bytes start
    let best ← searchPages pageAt (previousCodePointBoundary bytes · minimumEnd) bytes.length minimumEnd
      bytes.length none
    match best with
    | some page => return page
    | none => pageAt minimumEnd

/-- The page of bytes from an offset. The last page is tried first, for without a cursor it
may be the smaller one. -/
def pageFrom (json : PageSlice → Json) (binding : CursorBinding) (byteBudget : ℕ) (bytes : Bytes)
    (start : ℕ) : Except ProjectionFailure (ReaderProjection PageSlice) :=
  match pageUpTo E json binding byteBudget bytes start bytes.length with
  | .error (.budgetTooSmall _ _) => partialPage E json binding byteBudget bytes start
  | result => result

def startOffset (cursor : Option JsString) (binding : CursorBinding) (bytes : Bytes) : Except Failure ℕ :=
  match cursor with
  | none => .ok 0
  | some cursor => decodeCursor E cursor binding bytes

/-- The bytes of the selected text, and where its page starts. -/
def pageStart (selected : SelectedText) (binding : CursorBinding) (byteBudget : ℕ) (cursor : Option JsString) :
    Except Failure (Bytes × ℕ) := do
  assertReaderByteBudget byteBudget
  let bytes ← bufferFrom selected.text
  let start ← startOffset E cursor binding bytes
  if bytes = [] ∧ cursor ≠ none then .error (cursorError "cursor cannot address an empty field")
  else return (bytes, start)

def pageSelectedText (json : PageSlice → Json) (selected : SelectedText) (binding : CursorBinding)
    (byteBudget : ℕ) (cursor : Option JsString) :
    Except ProjectionFailure (ReaderProjection PageSlice) :=
  match pageStart E selected binding byteBudget cursor with
  | .error failure => .error (.other failure)
  | .ok (bytes, start) =>
    if bytes = [] then wrapReaderProjection json ⟨0, 0, [], true, none⟩ byteBudget
    else pageFrom E json binding byteBudget bytes start

end

/-! ## Requests -/

structure RecordPageOptions where
  byteBudget : ℕ
  cursor : Option JsString := none
  workstreamId : Option JsString := none
  maxFileBytes : ℕ := 64 * 1024 * 1024
  maxRecordBytes : ℕ := 8 * 1024 * 1024
  deriving Repr

structure TurnRecordPageOptions extends RecordPageOptions where
  turnId : JsString
  field : JsString := js "record"
  deriving Repr

structure EvidenceRecordPageOptions extends RecordPageOptions where
  provider : JsString
  sessionId : JsString
  evidenceId : JsString
  field : JsString := js "record"
  deriving Repr

def assertPattern (value : JsString) (pattern : JsString → Bool) (name : String) : Except Failure Unit :=
  if pattern value then .ok ()
  else .error (.typeError s!"Invalid {name}: {messageText (Json.quote value)}")

def turnFieldOf (field : JsString) : Except Failure TurnField :=
  match [TurnField.record, .request, .response, .actions].find? (fun f => f.text == field) with
  | some f => .ok f
  | none => .error (.typeError s!"Invalid turn record field: {messageText (Json.quote field)}")

def evidenceFieldOf (field : JsString) : Except Failure EvidenceField :=
  match [EvidenceField.record, .content, .request, .response, .actions].find? (fun f => f.text == field) with
  | some f => .ok f
  | none => .error (.typeError s!"Invalid evidence record field: {messageText (Json.quote field)}")

def validateProjectRoot (projectRoot : JsString) : Except Failure Unit :=
  if projectRoot = [] then .error (.typeError "projectRoot must not be empty") else .ok ()

def validateCommonOptions (options : RecordPageOptions) : Except Failure Unit := do
  assertReaderByteBudget options.byteBudget
  match options.workstreamId with
  | none => return ()
  | some id => assertPattern id isWorkstreamId "workstreamId"

def recordFileLimits (options : RecordPageOptions) : Except Failure RecordFileLimits := do
  assertReaderPositiveInteger options.maxFileBytes "maxFileBytes"
  assertReaderPositiveInteger options.maxRecordBytes "maxRecordBytes"
  return ⟨options.maxFileBytes, options.maxRecordBytes⟩

def scopeKey (workstreamId : Option JsString) : JsString := workstreamId.getD (js "*")

/-- The project root as the file system knows it. -/
structure ProjectIdentity where
  path : JsString
  isDirectory : Bool
  device : ℕ
  inode : ℕ
  birthtimeNs : ℕ

/-- The canonical files of a project while they are read. Files of the store are named after
their sessions, and a name of the file system has at most 255 bytes; a listing is an array. -/
structure RecordStore where
  projectRoot : JsString
  project : Except Failure ProjectIdentity
  feeds : Except Failure (List RecordFile)
  feeds_length : ∀ files, feeds = .ok files → files.length < 2 ^ 32
  turnRange : FeedKey → RangeSource
  turnRange_named : ∀ key f, (turnRange key).opened = .file f → key.provider.length ≤ 255
  evidence : FeedKey → RegularFileSource
  evidence_named : ∀ key f, (evidence key).opened = .file f → key.provider.length ≤ 255
  evidenceRange : FeedKey → RangeSource
  evidenceRange_named : ∀ key f, (evidenceRange key).opened = .file f → key.provider.length ≤ 255

section
variable (E : Host)

def projectFingerprint (project : Except Failure ProjectIdentity) : Except Failure JsString := do
  let identity ← project
  if identity.isDirectory = false then .error (.typeError "projectRoot must identify a directory")
  else return readContentHash E (stableStringify (.obj [(js "path", .str identity.path),
    (js "device", .str (Json.decDigits identity.device)), (js "inode", .str (Json.decDigits identity.inode)),
    (js "birthtime_ns", .str (Json.decDigits identity.birthtimeNs))]))

def limitsFingerprint (limits : RecordFileLimits) : JsString :=
  readContentHash E (stableStringify (.obj [(js "max_file_bytes", natJson limits.maxFileBytes),
    (js "max_record_bytes", natJson limits.maxRecordBytes)]))

/-! ## The two readers -/

/-- The members of a page that every record has. -/
def pageMembers (field : JsString) (selected : SelectedText) (page : PageSlice) : List (JsString × Json) :=
  [(js "field", .str field), (js "present", .bool selected.present), (js "encoding", .str (js "utf-8"))] ++
    optionalMember "representation" (selected.representation.map fun r => .str (js r)) ++
    [(js "text", .str page.text), (js "total_utf8_bytes", natJson (byteLength selected.text)),
      (js "range", .obj [(js "start", natJson page.start), (js "end", natJson page.stop)]),
      (js "sha256", .str (readContentHash E selected.text)), (js "complete", .bool page.complete)] ++
    optionalMember "next_cursor" (page.nextCursor.map .str)

def turnPageJson (turn : Json) (found : FoundTurn) (field : JsString) (selected : SelectedText)
    (page : PageSlice) : Json :=
  .obj ([(js "schema", .str (js "barbaro.reader.turn.v1")), (js "turn_id", memberAt "turn_id" turn),
    (js "provider", memberAt "provider" turn), (js "session_id", memberAt "session_id" turn)] ++
    optionalMember "workstream_id" (turn.get (js "workstream_id")) ++
    [(js "diagnostics", .obj ([(js "skipped_oversized_feed_files", natJson found.skippedOversizedFeedFiles)] ++
      optionalMember "unavailable_feed_files" (found.unavailableFeedFiles.map natJson)))] ++
    pageMembers E field selected page)

def evidencePageJson (evidence : Json) (field : JsString) (selected : SelectedText) (page : PageSlice) :
    Json :=
  .obj ([(js "schema", .str (js "barbaro.reader.evidence-record.v1")),
    (js "evidence_id", memberAt "evidence_id" evidence), (js "evidence_kind", memberAt "kind" evidence),
    (js "turn_id", memberAt "turn_id" evidence), (js "provider", memberAt "provider" evidence),
    (js "session_id", memberAt "session_id" evidence)] ++
    optionalMember "workstream_id" (evidence.get (js "workstream_id")) ++ pageMembers E field selected page)

/-- `workstreamId` is asked for and the record is not of it. -/
def outOfScope (workstreamId : Option JsString) (record : Json) : Bool :=
  workstreamId.any fun id => !equalsText id (record.get (js "workstream_id"))

def turnNotFound (turnId : JsString) : Failure :=
  .error s!"Barbaro turn record not found: {messageText turnId}"

def evidenceNotFound (evidenceId : JsString) : Failure :=
  .error s!"Barbaro evidence record not found: {messageText evidenceId}"

/-- `ReaderTurnSearchIncompleteError` -/
def searchIncomplete (turnId : JsString) (found : FoundTurn) : Failure :=
  let unavailable := found.unavailableFeedFiles.getD 0
  let skipped := found.skippedOversizedFeedFiles
  .error (if unavailable > 0 then
    s!"Barbaro turn search incomplete for {messageText turnId}: {unavailable} feed file(s) unavailable and {skipped} over input limits; absence is unproven; restore feed access and retry"
  else
    s!"Barbaro turn search incomplete for {messageText turnId}: {skipped} feed file(s) exceeded the reader limits and were skipped, so absence is unproven; raise --max-file-bytes or --max-record-bytes to include them")

/-- What a request asks for, before the record is known, and its limits. -/
structure RecordRequest where
  query : CursorQueryBinding
  limits : RecordFileLimits

variable (S : RecordStore)

def turnRequest (options : TurnRecordPageOptions) : Except Failure (TurnField × RecordRequest) := do
  validateProjectRoot S.projectRoot
  assertPattern options.turnId isTurnId "turnId"
  let field ← turnFieldOf options.field
  validateCommonOptions options.toRecordPageOptions
  let limits ← recordFileLimits options.toRecordPageOptions
  let project ← projectFingerprint E S.project
  return (field, {
    query := {
      project
      scope := scopeKey options.workstreamId
      recordKind := .turn
      identity := options.turnId
      field := field.text
      query := limitsFingerprint E limits }
    limits })

/-- The turn, searched for or read from where the cursor has pinned it. -/
def lookUpTurn (options : TurnRecordPageOptions) (request : RecordRequest) : Except Failure FoundTurn :=
  match options.cursor with
  | some cursor => do
    let body ← parseCursor E cursor
    assertCursorQueryBeforeSelection body request.query
    pinnedTurn E S.turnRange body options.turnId request.limits
  | none => do
    let files ← S.feeds
    findTurn E files options.turnId request.limits

/-- The turn a request selects; its absence is only told where it is proven. -/
def selectTurn (options : TurnRecordPageOptions) (request : RecordRequest) :
    Except Failure (FoundTurn × FoundRecord) := do
  let found ← lookUpTurn E S options request
  match found.turn with
  | none =>
    if options.cursor ≠ none then .error notAvailable
    else if found.skippedOversizedFeedFiles > 0 ∨ found.unavailableFeedFiles.getD 0 > 0 then
      .error (searchIncomplete options.turnId found)
    else .error (turnNotFound options.turnId)
  | some turn =>
    if outOfScope options.workstreamId turn.value then
      if options.cursor ≠ none then .error (cursorError "cursor does not match this scope")
      else .error (turnNotFound options.turnId)
    else return (found, turn)

def turnBinding (field : TurnField) (request : RecordRequest) (found : FoundTurn) (turn : FoundRecord) :
    CursorBinding where
  toCursorQueryBinding := { request.query with
    field := cursorFieldBinding field.text (selectTurnText turn.value field) }
  recordSha256 := readContentHash E (stableStringify turn.value)
  location := turn.location
  skippedOversizedFeedFiles := found.skippedOversizedFeedFiles
  unavailableFeedFiles := found.unavailableFeedFiles

/-- A page, what it was made from, and what its cursor is bound to. -/
structure PageRead where
  record : Json
  selected : SelectedText
  binding : CursorBinding
  projection : ReaderProjection PageSlice

def readTurnRecordPageSnapshot (options : TurnRecordPageOptions) : Except ProjectionFailure PageRead :=
  match turnRequest E S options with
  | .error failure => .error (.other failure)
  | .ok (field, request) =>
    match selectTurn E S options request with
    | .error failure => .error (.other failure)
    | .ok (found, turn) => do
      let selected := selectTurnText turn.value field
      let binding := turnBinding E field request found turn
      let projection ← pageSelectedText E (turnPageJson E turn.value found field.text selected) selected binding
        options.byteBudget options.cursor
      return ⟨turn.value, selected, binding, projection⟩

def evidenceRequest (options : EvidenceRecordPageOptions) : Except Failure (EvidenceField × RecordRequest) := do
  validateProjectRoot S.projectRoot
  assertPattern options.provider isProvider "provider"
  assertPattern options.sessionId isSessionId "sessionId"
  assertPattern options.evidenceId isEvidenceId "evidenceId"
  let field ← evidenceFieldOf options.field
  validateCommonOptions options.toRecordPageOptions
  let limits ← recordFileLimits options.toRecordPageOptions
  let project ← projectFingerprint E S.project
  return (field, {
    query := {
      project
      scope := scopeKey options.workstreamId
      recordKind := .evidence
      identity := options.provider ++ 0 :: (options.sessionId ++ 0 :: options.evidenceId)
      field := field.text
      query := limitsFingerprint E limits }
    limits })

def lookUpEvidence (options : EvidenceRecordPageOptions) (request : RecordRequest) :
    Except Failure (Option FoundRecord) :=
  let key : FeedKey := ⟨options.provider, options.sessionId⟩
  match options.cursor with
  | some cursor => do
    let body ← parseCursor E cursor
    assertCursorQueryBeforeSelection body request.query
    let record ← pinnedEvidence E (S.evidenceRange key) body key options.evidenceId request.limits
    return some record
  | none => findEvidence E (S.evidence key) key options.evidenceId request.limits

def selectEvidence (options : EvidenceRecordPageOptions) (request : RecordRequest) :
    Except Failure FoundRecord := do
  let found ← lookUpEvidence E S options request
  match found with
  | none =>
    if options.cursor ≠ none then .error notAvailable else .error (evidenceNotFound options.evidenceId)
  | some evidence =>
    if outOfScope options.workstreamId evidence.value then
      if options.cursor ≠ none then .error (cursorError "cursor does not match this scope")
      else .error (evidenceNotFound options.evidenceId)
    else return evidence

def evidenceBinding (field : EvidenceField) (request : RecordRequest) (evidence : FoundRecord) :
    CursorBinding where
  toCursorQueryBinding := { request.query with
    field := cursorFieldBinding field.text (selectEvidenceText evidence.value field) }
  recordSha256 := readContentHash E (stableStringify evidence.value)
  location := evidence.location
  skippedOversizedFeedFiles := 0
  unavailableFeedFiles := none

def readEvidenceRecordPage (options : EvidenceRecordPageOptions) : Except ProjectionFailure PageRead :=
  match evidenceRequest E S options with
  | .error failure => .error (.other failure)
  | .ok (field, request) =>
    match selectEvidence E S options request with
    | .error failure => .error (.other failure)
    | .ok evidence => do
      let selected := selectEvidenceText evidence.value field
      let binding := evidenceBinding E field request evidence
      let projection ← pageSelectedText E (evidencePageJson E evidence.value field.text selected) selected binding
        options.byteBudget options.cursor
      return ⟨evidence.value, selected, binding, projection⟩

end

end Barbaro.RecordPage
