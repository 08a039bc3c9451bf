import Barbaro.Nudge.ReadInvocation

/-!
# Committing a delivered read

A terminal hook stages the output of a reserved read; once the provider has proved that
the model saw that very text, `commitHookReadOutput` merges its coverage into the cursor.
Only coverage of records that are unread at that moment counts. A commit that adds to it
opens a new revision, and with it a new round of announcements.

Whether the delivered text agrees with the records it names (`verifyDeliveredCoverage`) is
a parameter: nothing here depends on what it accepts.
-/

namespace Barbaro

section
variable {E : Host}

/-! ## Envelopes -/

structure DeliveredEnvelope where
  text : JsString
  body : Json
  coverage : List NudgeReadCoverage

def readDeliverySchema : JsString := js "barbaro.read-delivery.v1"

/-- The value is an object with exactly these keys. -/
def exactKeys (keys : List String) : Json → Bool
  | .obj fs => fs.length == keys.length && fs.all (fun f => keys.any (fun k => js k == f.1))
  | _ => false

/-- `text.endsWith("\n") ? text.slice(0, -1) : text` -/
def dropNewline (text : JsString) : JsString :=
  if text.getLast? = some 10 then text.dropLast else text

/-- `value.key === true` -/
def isTrue (v : Option Json) : Bool :=
  match v with
  | some (.bool b) => b
  | _ => false

/-- `stableStringify(delivery.recipient) === stableStringify(query.recipient)` -/
def sameRecipient (v : Option Json) (recipient : ReadRecipient) : Bool :=
  match v with
  | some r => stableStringify r == stableStringify recipient.toJson
  | none => false

/-- The receipt in an envelope is one for this query and this nonce, over this body. -/
def deliveryMatches (E : Host) (query : ReadQuery) (recipient : ReadRecipient) (nonce : JsString)
    (body delivery : Json) : Bool :=
  exactKeys ["schema", "eligible", "query_sha256", "projection_sha256", "recipient", "nonce",
      "coverage"] delivery &&
    equalsText readDeliverySchema (delivery.get (js "schema")) &&
    isTrue (delivery.get (js "eligible")) &&
    equalsText nonce (delivery.get (js "nonce")) &&
    equalsText (readQueryHash E query) (delivery.get (js "query_sha256")) &&
    sameRecipient (delivery.get (js "recipient")) recipient &&
    equalsText (readContentHash E (stableStringify body)) (delivery.get (js "projection_sha256"))

/-- The envelope is canonical and measures itself right. -/
def envelopeOk (query : ReadQuery) (normalized : JsString) (output : Json) : Bool :=
  exactKeys ["byte_budget", "utf8_bytes", "value"] output && stableStringify output == normalized &&
    natAt? "byte_budget" output == some query.byteBudget &&
    natAt? "utf8_bytes" output == some (byteLength normalized) &&
    byteLength normalized + 1 ≤ query.byteBudget

/-- The coverage a receipt lists, read like the coverage of a cursor. -/
def deliveredCoverage (E : Host) (provider : ParticipatingProvider) (delivery : Json) :
    Option (List NudgeReadCoverage) :=
  let value := Json.obj [(js "pending", .arr []),
    (js "coverage", (delivery.get (js "coverage")).getD .null), (js "outside_window", .bool false)]
  match parseNudgeReadState E provider none (some value) with
  | .ok state => if state.coverage = [] then none else some state.coverage
  | .error _ => none

/-- Parse only an entire canonical envelope, allowing its one transport newline. -/
def parseDeliveredEnvelope (E : Host) (text : JsString) (query : ReadQuery)
    (recipient : ReadRecipient) (nonce : JsString) : Option DeliveredEnvelope :=
  let normalized := dropNewline text
  if byteLength normalized + 1 > readOutputCeilingBytes then none
  else
    match Json.parse E.float normalized with
    | none => none
    | some output =>
      if !envelopeOk query normalized output then none
      else
        match output.get (js "value") with
        | some (.obj fields) =>
          let body := withoutMember (js "delivery") (.obj fields)
          match (Json.obj fields).get (js "delivery") with
          | some delivery =>
            if !isObject (some delivery) || !deliveryMatches E query recipient nonce body delivery then
              none
            else (deliveredCoverage E recipient.provider delivery).map
              (fun coverage => { text := normalized, body, coverage })
          | none => none
        | _ => none

/-! ## The pending read of an invocation -/

def matchesInvocation (invocation : HookReadInvocation) (now : ℤ) (turn : NudgeDeliveryTurn)
    (p : NudgePendingRead) : Bool :=
  p.toolUseId == invocation.toolUseId && p.command == invocation.command &&
    p.toolInputSha256 == invocation.toolInputHash &&
    p.querySha256 == readQueryHash E invocation.query &&
    p.projectRoot == invocation.query.projectRoot && isNotAfter E p.createdAt now &&
    isAfter E p.expiresAt now && p.turn == turn

def matchingPending (state : NudgeCursorV3) (invocation : HookReadInvocation)
    (options : HookReadOptions E) : Except Failure (Option NudgePendingRead) :=
  let recipient := invocation.recipient
  if state.provider ≠ recipient.provider.text ∨ state.sessionId ≠ recipient.sessionId ∨
      state.workstreamId ≠ recipient.workstreamId ∨
      state.membershipFrom ≠ recipient.membershipFrom then .ok none
  else do
    let turn ← currentDeliveryTurn state options.turn
    return state.reads.pending.find? (matchesInvocation (E := E) invocation options.now turn)

/-! ## Staging -/

/-- Give the pending read of a nonce its output. -/
def withOutput (nonce output : JsString) (pending : List NudgePendingRead) : List NudgePendingRead :=
  pending.map (fun p => if p.nonce = nonce then { p with output := some output } else p)

def withoutNonce (nonce : JsString) (pending : List NudgePendingRead) : List NudgePendingRead :=
  pending.filter (fun p => p.nonce ≠ nonce)

def NudgeCursorV3.withPending (state : NudgeCursorV3) (pending : List NudgePendingRead) :
    NudgeCursorV3 :=
  { state with reads := { state.reads with pending } }

def stageScan (invocation : HookReadInvocation) (options : HookReadOptions E) (stdout : JsString)
    (scan : ScopedScan E) : Except Failure (HookCursorUpdate Bool) := do
  let state := scan.cursor.state
  let found ← matchingPending state invocation options
  match found with
  | none => return { result := false }
  | some pending =>
    match parseDeliveredEnvelope E stdout invocation.query invocation.recipient pending.nonce with
    | none => return { result := false }
    | some output =>
      match pending.output with
      | some staged => return { result := staged == output.text }
      | none => do
        let updatedAt ← isoTimestamp E options.now
        let next := { state.withPending (withOutput pending.nonce output.text state.reads.pending) with
          updatedAt }
        if nudgeCursorFits next then return { state := some next, result := true }
        else return { result := false }

/-- A terminal hook stages candidate output; the provider must still prove success and
model delivery. -/
def stageHookReadOutput (epoch : MembershipEpoch E) (files : List BarbaroFeedFile)
    (current : Option NudgeCursor) (invocation : HookReadInvocation) (options : HookReadOptions E)
    (stdout : JsString) : Except Failure (HookCursorUpdate Bool) :=
  withHookCursor epoch files current (stageScan invocation options stdout)

/-! ## The preview of a commit -/

structure ReadCoveragePreview where
  state : NudgeCursorV3
  advanced : Bool
  unreadCount : ℕ
  coverageIncomplete : Bool
  selectedFeedUnavailable : Bool
  recovery : Bool

def coverageFeedKey (e : NudgeReadCoverage) : FeedKey := ⟨e.provider, e.sessionId⟩

/-- Recount a proposed coverage state while the actor lock is held. -/
def rescanHookReadCursor (epoch : MembershipEpoch E) (files : List BarbaroFeedFile)
    (state : NudgeCursorV3) (targets : Option (List RecordKey)) : Except Failure (ScopedScan E) :=
  scanUnread epoch targets (some (.v3 state)) files

/-- Delivered coverage of records that a scan has found unread. -/
def unreadEntries (before : ScopedScan E) (delivered : List NudgeReadCoverage) :
    List NudgeReadCoverage :=
  delivered.filter (fun e => coverageRecordKey e ∈ before.unreadRecordKeys)

/-- The scan after a merge; without a change it is the one before. -/
def scanAfter (epoch : MembershipEpoch E) (filesAfter : List BarbaroFeedFile) (before : ScopedScan E)
    (next : NudgeCursorV3) (advanced : Bool) : Except Failure (ScopedScan E) :=
  if advanced then rescanHookReadCursor epoch filesAfter next none else .ok before

/-- Pure preview shared by the CLI's capacity report and the commit. The two scans see the
feeds at different moments. -/
def previewReadCoverage (epoch : MembershipEpoch E) (filesBefore filesAfter : List BarbaroFeedFile)
    (current : NudgeCursorV3) (delivered : List NudgeReadCoverage) :
    Except Failure ReadCoveragePreview := do
  let before ← rescanHookReadCursor epoch filesBefore current (some (delivered.map coverageRecordKey))
  let base := collapseReadCursor current before
  let added := unreadEntries before delivered
  let (merged, advanced) ← mergeReadCoverageForScan base.reads added
  let next := { base with reads := merged }
  let after ← scanAfter epoch filesAfter before next advanced
  let recoveryKey := before.firstUnread.map recordKey
  return {
    state := collapseReadCursor next after
    advanced
    unreadCount := after.ready.unreadCount
    coverageIncomplete := before.ready.coverage.isSome || after.ready.coverage.isSome
    selectedFeedUnavailable := delivered.any (fun e =>
      coverageFeedKey e ∈ before.unavailableFeedKeys || coverageFeedKey e ∈ after.unavailableFeedKeys)
    recovery := added ≠ [] && added.all (fun e => some (coverageRecordKey e) == recoveryKey) }

def readCursorHeadroomBytes : ℕ := 64 * 1024
def readRecoveryAllowanceBytes : ℕ := 24 * 1024

/-- The size of a cursor without its pending reads. -/
def durableBytes (state : NudgeCursorV3) : ℕ := nudgeCursorBytes (state.withPending [])

/-- No unread gaps are evicted to fit; oldest-gap reads have reserved working room. -/
def readCoverageFits (next previous : NudgeCursorV3) (recovery : Bool) : Bool :=
  let recordBudget := maxReadCoverageRecords - (if recovery then 0 else 2)
  let budget := maxNudgeCursorBytes - readCursorHeadroomBytes +
    (if recovery then readRecoveryAllowanceBytes else 0)
  next.reads.coverage.length ≤ maxReadCoverageRecords && nudgeCursorFits next &&
    (next.reads.coverage.length ≤ recordBudget ||
      next.reads.coverage.length ≤ previous.reads.coverage.length) &&
    (durableBytes next ≤ budget || durableBytes next ≤ durableBytes previous)

/-! ## Commits -/

inductive CommitReason
  | coverageCapacity
  | feedUnavailable
  deriving DecidableEq, Repr

structure HookReadCommit where
  committed : Bool
  advanced : Bool
  unreadCount : Option ℕ := none
  coverageIncomplete : Bool := false
  reason : Option CommitReason := none
  deriving DecidableEq, Repr

/-- Nothing was committed. -/
def notCommitted : HookCursorUpdate HookReadCommit :=
  { result := { committed := false, advanced := false } }

/-- A commit refused for want of room drops its pending read and nothing else. -/
def refused (state : NudgeCursorV3) (nonce : JsString) : HookCursorUpdate HookReadCommit where
  state := some (state.withPending (withoutNonce nonce state.reads.pending))
  result := { committed := false, advanced := false, reason := some .coverageCapacity }

/-- The state of an advancing commit: a new revision without announcements. -/
def advancedState (invocation : HookReadInvocation) (state : NudgeCursorV3)
    (preview : ReadCoveragePreview) (nonce : JsString) (turn : NudgeDeliveryTurn)
    (updatedAt : JsString) : NudgeCursorV3 :=
  { preview.state with
    reads := { preview.state.reads with
      pending := withoutNonce nonce preview.state.reads.pending
      outsideWindow := (preview.unreadCount > 0 || preview.coverageIncomplete) &&
        (invocation.query.kind = .context || state.reads.outsideWindow)
      informedTurn := some turn }
    cursorRevision := state.cursorRevision + 1
    markers := {}
    delivery := { highestUnreadCount := 0 }
    updatedAt }

/-- What follows a preview. -/
def applyPreview (invocation : HookReadInvocation) (options : HookReadOptions E)
    (state : NudgeCursorV3) (nonce : JsString) (preview : ReadCoveragePreview) :
    Except Failure (HookCursorUpdate HookReadCommit) :=
  if preview.selectedFeedUnavailable then
    .ok { result := { committed := false, advanced := false, reason := some .feedUnavailable } }
  else if !preview.advanced then
    .ok {
      state := some
        (preview.state.withPending (withoutNonce nonce preview.state.reads.pending))
      result := {
        committed := true, advanced := false, unreadCount := some preview.unreadCount
        coverageIncomplete := preview.coverageIncomplete } }
  else if state.cursorRevision + 1 > maxSafeInteger then
    .error (.rangeError "nudge cursor revision overflow")
  else do
    let turn ← currentDeliveryTurn state options.turn
    let updatedAt ← isoTimestamp E options.now
    let next := advancedState invocation state preview nonce turn updatedAt
    if !readCoverageFits next state preview.recovery then return refused state nonce
    else return {
      state := some next
      result := {
        committed := true, advanced := true, unreadCount := some preview.unreadCount
        coverageIncomplete := preview.coverageIncomplete } }

/-- The envelope of a commit: the text is the one that was staged. -/
def committedEnvelope (invocation : HookReadInvocation) (modelText : JsString)
    (pending : NudgePendingRead) : Option DeliveredEnvelope :=
  (parseDeliveredEnvelope E modelText invocation.query invocation.recipient pending.nonce).filter
    (fun envelope => pending.output = some envelope.text)

variable (verifyDeliveredCoverage : ReadQuery → DeliveredEnvelope → Except Failure Bool)

def commitScan (epoch : MembershipEpoch E) (filesBefore filesAfter : List BarbaroFeedFile)
    (invocation : HookReadInvocation) (options : HookReadOptions E) (modelText : JsString)
    (scan : ScopedScan E) : Except Failure (HookCursorUpdate HookReadCommit) := do
  let state := scan.cursor.state
  let found ← matchingPending state invocation options
  match found with
  | none => return notCommitted
  | some pending =>
    match committedEnvelope (E := E) invocation modelText pending with
    | none => return notCommitted
    | some envelope => do
      let verified ← verifyDeliveredCoverage invocation.query envelope
      if !verified then return notCommitted
      else
        match previewReadCoverage epoch filesBefore filesAfter state envelope.coverage with
        | .ok preview => applyPreview invocation options state pending.nonce preview
        | .error (.coverageCapacity _) => return refused state pending.nonce
        | .error failure => .error failure

/-- Called only after the provider proves successful completion and supplies its
model-facing text. A matching staged terminal result is additionally required. -/
def commitHookReadOutput (epoch : MembershipEpoch E)
    (files filesBefore filesAfter : List BarbaroFeedFile) (current : Option NudgeCursor)
    (invocation : HookReadInvocation) (options : HookReadOptions E) (modelText : JsString) :
    Except Failure (HookCursorUpdate HookReadCommit) :=
  withHookCursor epoch files current
    (commitScan verifyDeliveredCoverage epoch filesBefore filesAfter invocation options modelText)

/-- Remove only this failed native invocation; failure never changes delivery history. -/
def discardHookRead (epoch : MembershipEpoch E) (files : List BarbaroFeedFile)
    (current : Option NudgeCursor) (toolUseId : JsString) (options : HookReadOptions E) :
    Except Failure (HookCursorUpdate Unit) :=
  withHookCursor epoch files current (fun scan => do
    let state := scan.cursor.state
    let turn ← currentDeliveryTurn state options.turn
    let pending := state.reads.pending.filter (fun p => p.toolUseId ≠ toolUseId || p.turn ≠ turn)
    if pending.length = state.reads.pending.length then return { result := () }
    else return { state := some (state.withPending pending), result := () })

end

end Barbaro
