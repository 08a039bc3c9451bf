import Barbaro.Active.Conflicts
import Barbaro.Core.FeedAvailability
import Barbaro.Reader.SubagentPages

/-!
# Projections of leases and of the context

The context of a reader is a bounded view of the leases, the write claims and the turns of a
project. Its lists are filled one after the other, each item as large as there is room for it,
until one does not fit.

* `projectActiveLease`: a lease that is not idle.
* `projectContext`: the view.
-/

namespace Barbaro

open Active

/-- Items that were projected one by one, of so many. -/
def shownItems (items : List Json) (total : ℕ) : Json :=
  objectOf [("shown", some (natJson items.length)), ("total", some (natJson total)), ("items", some (.arr items))]

/-! ## Leases -/

/-- What is shown of a lease besides what is always shown. -/
structure LeaseCut where
  intentBytes : ℕ := 0
  commandBytes : ℕ := 0
  claimCount : ℕ := 0

def projectCurrentAction (action : Json) (commandBytes : ℕ) : Json :=
  objectOf [copied "kind" action, copied "tool_name" action, copied "path" action,
    ("command", (action.get (js "command")).map (projectReaderContent · commandBytes)),
    copied "started_at" action]

/-- `build` -/
def buildActiveLease (lease : Json) (c : LeaseCut) : Json :=
  objectOf [copied "lease_id" lease, copied "provider" lease, copied "session_id" lease,
    copied "workstream_id" lease, copied "turn_id" lease, copied "agent_id" lease, copied "state" lease,
    ("intent", (lease.get (js "intent")).map (projectReaderContent · c.intentBytes)),
    ("current_action", (lease.get (js "current_action")).map (projectCurrentAction · c.commandBytes)),
    ("claims", some (boundedItems (itemsOf "claims" lease) c.claimCount)),
    copied "unknown_write_scope" lease, copied "revision" lease, copied "updated_at" lease,
    copied "expires_at" lease, ("source_refs", some (natJson (itemsOf "source_refs" lease).length))]

/-- A text that is there grows as far as there is room. -/
def growBytes {ε : Type} (present : Bool) (maximum : ℕ) (accepts : ℕ → Except ε Bool) : Except ε ℕ :=
  if present then do
    let best ← maximizeReaderBudget maximum accepts
    return best.getD 0
  else .ok 0

def hasCommand (lease : Json) : Bool :=
  (lease.get (js "current_action")).any fun action => (action.get (js "command")).isSome

/-- All that is let in, in this order. -/
def growLease {ε : Type} (fits : LeaseCut → Except ε Bool) (lease : Json) (options : ReaderProjectionOptions) :
    Except ε LeaseCut := do
  let intentBytes ← growBytes (lease.get (js "intent")).isSome options.requestExcerptBytes
    (fun n => fits { intentBytes := n })
  let commandBytes ← growBytes (hasCommand lease) options.actionExcerptBytes
    (fun n => fits { intentBytes, commandBytes := n })
  let claimCount ← appendWhileFits (fun n => fits { intentBytes, commandBytes, claimCount := n })
    (itemsOf "claims" lease).length 0
  return { intentBytes, commandBytes, claimCount }

def projectActiveLease (lease : Json) (options : ReaderProjectionOptions) :
    Except ProjectionFailure (ReaderProjection Json) :=
  if equalsText (js "idle") (lease.get (js "state")) then
    .error (.other (.typeError "Idle tombstones are not peer-visible active leases"))
  else
    match projectionLimits options with
    | .error failure => .error (.other failure)
    | .ok () => do
      let _ ← wrapReaderJson (buildActiveLease lease {}) options.byteBudget
      let c ← growLease (fun c => readerProjectionFits (buildActiveLease lease c) options.byteBudget) lease options
      wrapReaderJson (buildActiveLease lease c) options.byteBudget

/-! ## What a context is made of -/

def claimConfidenceText : ClaimConfidence → JsString
  | .exact => js "exact"
  | .inferred => js "inferred"
  | .unknown => js "unknown"

def writeClaimJson (claim : ProjectWriteClaim) : Json :=
  objectOf [("lease_id", some (.str claim.leaseId)), ("provider", some (.str claim.provider)),
    ("session_id", some (.str claim.sessionId)), ("agent_id", some (.str claim.agentId)),
    ("workstream_id", some (textOrNull claim.workstreamId)), ("path", some (textOrNull claim.path)),
    ("confidence", some (.str (claimConfidenceText claim.confidence))),
    ("unknown_write_scope", some (.bool claim.unknownWriteScope)), ("expires_at", some (.str claim.expiresAt))]

def claimOverlapJson (overlap : ProjectClaimOverlap) : Json :=
  objectOf [("local", some (writeClaimJson overlap.localClaim)), ("foreign", some (writeClaimJson overlap.foreignClaim)),
    ("advisory", some (.bool overlap.advisory)), ("confidence", some (.str (claimConfidenceText overlap.confidence)))]

def availabilityReasonText : FeedAvailabilityReason → JsString
  | .fileTooLarge => js "file_too_large"
  | .recordTooLarge => js "record_too_large"
  | .missing => js "missing"
  | .permissionDenied => js "permission_denied"
  | .ioUnavailable => js "io_unavailable"

def availabilityFailureJson (failure : FeedAvailabilityFailure) : Json :=
  objectOf [("provider", some (.str failure.provider)), ("session_id", some (.str failure.sessionId)),
    ("reason", some (.str (availabilityReasonText failure.reason))),
    ("code", failure.code.map (fun code => .str (js code))), ("maximum_bytes", failure.maximumBytes.map natJson)]

structure ReaderDiagnostics where
  /-- Present when feed availability prevents an exhaustive scan. -/
  feedCoverage : Option FeedCoverageTracker
  feedFiles : ℕ
  malformedFeedRecords : ℕ
  invalidFeedRecords : ℕ
  partialFeedFiles : ℕ
  scanLimitedFeedFiles : ℕ
  invalidActiveRecords : ℕ

/-- The feeds that were unavailable, as far as they were kept. -/
def ReaderDiagnostics.unavailable (d : ReaderDiagnostics) : List FeedAvailabilityFailure :=
  (d.feedCoverage.map (·.items)).getD []

def unavailableJson (coverage : FeedCoverageTracker) (unavailableShown : ℕ) : Json :=
  objectOf [("items", some (.arr ((coverage.items.map availabilityFailureJson).take unavailableShown))),
    ("shown", some (natJson unavailableShown)), ("total", some (natJson coverage.unavailable))]

def feedCoverageJson (coverage : FeedCoverageTracker) (unavailableShown : ℕ) : Json :=
  objectOf [("state", some (.str (if coverage.incomplete then js "incomplete" else js "complete"))),
    ("scanned_feed_files", some (natJson coverage.scanned)),
    ("unavailable", some (unavailableJson coverage unavailableShown))]

def ReaderDiagnostics.toJson (d : ReaderDiagnostics) (unavailableShown : ℕ) : Json :=
  objectOf [("feed_coverage", d.feedCoverage.map (feedCoverageJson · unavailableShown)),
    ("feed_files", some (natJson d.feedFiles)), ("malformed_feed_records", some (natJson d.malformedFeedRecords)),
    ("invalid_feed_records", some (natJson d.invalidFeedRecords)),
    ("partial_feed_files", some (natJson d.partialFeedFiles)),
    ("scan_limited_feed_files", some (natJson d.scanLimitedFeedFiles)),
    ("invalid_active_records", some (natJson d.invalidActiveRecords))]

inductive HistoryState
  | complete
  | limited
  | unknown
  deriving DecidableEq, Repr

def HistoryState.text : HistoryState → JsString
  | .complete => js "complete"
  | .limited => js "limited"
  | .unknown => js "unknown"

inductive HistoryReason
  | historyWindow
  | scanLimit
  | partialFeed
  | invalidRecords
  | unavailableFeed
  | historyNotSupplied
  deriving DecidableEq, Repr

def HistoryReason.text : HistoryReason → JsString
  | .historyWindow => js "history_window"
  | .scanLimit => js "scan_limit"
  | .partialFeed => js "partial_feed"
  | .invalidRecords => js "invalid_records"
  | .unavailableFeed => js "unavailable_feed"
  | .historyNotSupplied => js "history_not_supplied"

/-- A rendered window never establishes exhaustive canonical history. -/
structure ReaderContextHistoryCoverage where
  state : HistoryState := .unknown
  reasons : List HistoryReason := [.historyNotSupplied]

structure ContextOptions extends ReaderProjectionOptions where
  workstreamId : Option JsString := none
  turnsPerSession : Option ℕ := none
  windowLimitedFeedFiles : ℕ := 0
  historyCoverage : ReaderContextHistoryCoverage := {}
  preferTurns : Bool := false
  projectClaims : Option (List ProjectWriteClaim) := none

def turnRetrievalHint : JsString :=
  js ("Run `barbaro turn list` in the same project and workstream, then `barbaro read turn show <turn_id> " ++
    "--field response`; follow every next_cursor.")

/-- What a context was made from. -/
structure ContextSource where
  active : List Json
  turns : List Json
  diagnostics : ReaderDiagnostics
  options : ContextOptions

def ContextSource.claims (s : ContextSource) : List ProjectWriteClaim := s.options.projectClaims.getD []

def ContextSource.overlaps (s : ContextSource) : List ProjectClaimOverlap :=
  projectClaimOverlaps s.options.workstreamId s.claims

/-- What is shown of a context besides what is always shown. -/
structure ContextCut where
  activeItems : List Json := []
  turnItems : List Json := []
  unavailableShown : ℕ := 0
  claimsShown : ℕ := 0
  overlapsShown : ℕ := 0

/-- The text that says most about a turn was cut. -/
def attentionTruncated (item : Json) : Bool :=
  match (item.get (js "response")).or (item.get (js "request")) with
  | some content => Active.isTrue ((content.get (js "truncated")).bind (·.get (js "projection")))
  | none => false

def attentionTruncatedCount (turnItems : List Json) : ℕ := (turnItems.filter attentionTruncated).length

/-- The leases whose scope of writes is not known. -/
def unknownActors (claims : List ProjectWriteClaim) : ℕ :=
  ((claims.filter (·.unknownWriteScope)).map (·.leaseId)).dedup.length

def projectClaimsJson (s : ContextSource) (c : ContextCut) : Json :=
  objectOf [("scope", some (.str (js "project"))), ("advisory", some (.bool true)),
    ("claims", some (boundedItems (s.claims.map writeClaimJson) c.claimsShown)),
    ("overlaps", some (boundedItems (s.overlaps.map claimOverlapJson) c.overlapsShown)),
    ("coverage", some (objectOf [
      ("state", some (.str (if s.diagnostics.invalidActiveRecords > 0 ∨ c.claimsShown < s.claims.length ∨
        c.overlapsShown < s.overlaps.length then js "limited" else js "complete"))),
      ("invalid_active_records", some (natJson s.diagnostics.invalidActiveRecords)),
      ("unknown_scope_actors", some (natJson (unknownActors s.claims)))]))]

def contextCoverageJson (s : ContextSource) (c : ContextCut) : Json :=
  objectOf [
    ("history", some (objectOf [("state", some (.str s.options.historyCoverage.state.text)),
      ("reasons", some (.arr (s.options.historyCoverage.reasons.map fun r => .str r.text)))])),
    ("selection", s.options.turnsPerSession.map fun n => objectOf [
      ("policy", some (.str (js "newest_within_scope_per_session"))), ("turns_per_session", some (natJson n))]),
    ("window_limited_feed_files", some (natJson s.options.windowLimitedFeedFiles)),
    ("projection_omitted_turns", some (natJson (s.turns.length - c.turnItems.length))),
    ("attention_truncated_turns", some (natJson (attentionTruncatedCount c.turnItems)))]

/-- `build` -/
def buildContext (s : ContextSource) (c : ContextCut) : Json :=
  objectOf [("schema", some (.str (js "barbaro.reader.context.v1"))),
    ("workstream_id", s.options.workstreamId.map .str),
    ("active", some (shownItems c.activeItems s.active.length)),
    ("project_claims", s.options.projectClaims.map fun _ => projectClaimsJson s c),
    ("turns", some (shownItems c.turnItems s.turns.length)),
    ("coverage", some (contextCoverageJson s c)),
    ("turn_retrieval_hint",
      if s.options.historyCoverage.state ≠ .complete ∨ c.turnItems.length < s.turns.length ∨
        attentionTruncatedCount c.turnItems > 0 then some (.str turnRetrievalHint) else none),
    ("diagnostics", some (s.diagnostics.toJson c.unavailableShown))]

/-! ## Filling a context -/

section
variable (s : ContextSource)

end

end Barbaro
