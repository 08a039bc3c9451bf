import Barbaro.Core.Checkpoint
import Barbaro.Lib.Ranges
import Barbaro.Reader.Turn

/-!
# The nudge cursor

One recipient session has one cursor, which only its provider's hooks write: how far
each peer feed is acknowledged (`feedCursors`), what has been announced at the present
revision (`markers`, `delivery`), and the reads in flight with the text already
delivered beyond those positions (`reads`). Three schemas of it are on disk.
-/

namespace Barbaro

inductive NudgeMarkerKind
  | userPrompt
  | toolBoundary
  | stop
  deriving DecidableEq, Repr

/-- `codex` or `claude`, the providers whose sessions can take part. -/
inductive ParticipatingProvider
  | codex
  | claude
  deriving DecidableEq, Repr

def ParticipatingProvider.text : ParticipatingProvider → JsString
  | .codex => js "codex"
  | .claude => js "claude"

/-- The exact hook turn that last received a model-visible delivery. -/
inductive NudgeDeliveryTurn
  | codex (turnId : JsString)
  | claude (generation : ℕ)
  deriving DecidableEq, Repr

/-! ## Reads -/

/-- `end` is exclusive; it is called `stop` here. -/
abbrev NudgeReadRange := Ranges.Range

/-- Delivered bytes of one text of one version of one record. -/
structure NudgeReadCoverage where
  provider : JsString
  sessionId : JsString
  turnId : JsString
  recordSha256 : JsString
  field : ReadField
  fieldSha256 : JsString
  totalBytes : ℕ
  ranges : List NudgeReadRange
  deriving DecidableEq, Repr

structure NudgePendingRead where
  nonce : JsString
  toolUseId : JsString
  turn : NudgeDeliveryTurn
  projectRoot : JsString
  command : JsString
  querySha256 : JsString
  toolInputSha256 : JsString
  createdAt : JsString
  expiresAt : JsString
  /-- Terminal hook output awaiting independent model-facing success evidence. -/
  output : Option JsString := none
  deriving DecidableEq, Repr

structure NudgeReadState where
  pending : List NudgePendingRead
  coverage : List NudgeReadCoverage
  /-- A delivered context reported history outside its selected window. -/
  outsideWindow : Bool
  /-- Successful coverage delivered to this turn suppresses an immediate Stop. -/
  informedTurn : Option NudgeDeliveryTurn := none
  deriving DecidableEq, Repr

def emptyNudgeReadState : NudgeReadState :=
  { pending := [], coverage := [], outsideWindow := false }

/-! ## Cursors -/

structure NudgeFeedCursor where
  provider : JsString
  sessionId : JsString
  /-- First byte beyond the acknowledged contiguous prefix of this feed. -/
  checkpoint : JsonlCheckpoint
  deriving DecidableEq, Repr

structure NudgeMarkersV1 where
  userPrompt : Option ℕ := none
  toolBoundary : Option ℕ := none
  stop : Option ℕ := none
  deriving DecidableEq, Repr

/-- Only the once-per-revision Stop latch is left in later schemas. -/
structure NudgeMarkersV2 where
  stop : Option ℕ := none
  deriving DecidableEq, Repr

structure NudgeDelivery where
  /-- Highest unread count announced by any channel at this revision. -/
  highestUnreadCount : ℕ
  lastTurn : Option NudgeDeliveryTurn := none
  deriving DecidableEq, Repr

structure NudgeCursorV1 where
  provider : JsString
  sessionId : JsString
  workstreamId : JsString
  membershipFrom : JsString
  cursorRevision : ℕ
  feedCursors : List NudgeFeedCursor
  markers : NudgeMarkersV1
  updatedAt : JsString
  deriving DecidableEq, Repr

structure NudgeCursorV2 where
  provider : JsString
  sessionId : JsString
  workstreamId : JsString
  membershipFrom : JsString
  cursorRevision : ℕ
  feedCursors : List NudgeFeedCursor
  markers : NudgeMarkersV2
  delivery : NudgeDelivery
  /-- The logical turn of Claude, which exposes no provider turn id. -/
  claudeTurnGeneration : Option ℕ
  updatedAt : JsString
  deriving DecidableEq, Repr

structure NudgeCursorV3 extends NudgeCursorV2 where
  reads : NudgeReadState
  deriving DecidableEq, Repr

inductive NudgeCursor
  | v1 (c : NudgeCursorV1)
  | v2 (c : NudgeCursorV2)
  | v3 (c : NudgeCursorV3)
  deriving DecidableEq, Repr

def NudgeCursor.workstreamId : NudgeCursor → JsString
  | .v1 c => c.workstreamId
  | .v2 c => c.workstreamId
  | .v3 c => c.workstreamId

def NudgeCursor.membershipFrom : NudgeCursor → JsString
  | .v1 c => c.membershipFrom
  | .v2 c => c.membershipFrom
  | .v3 c => c.membershipFrom

def NudgeCursor.cursorRevision : NudgeCursor → ℕ
  | .v1 c => c.cursorRevision
  | .v2 c => c.cursorRevision
  | .v3 c => c.cursorRevision

/-- The Claude generation of a cursor that has one. -/
def NudgeCursor.claudeTurnGeneration : NudgeCursor → Option ℕ
  | .v1 _ => some 1
  | .v2 c => c.claudeTurnGeneration
  | .v3 c => c.claudeTurnGeneration

/-! ## Boundaries -/

/-- Provider turn evidence supplied by the admitted main-agent hook. -/
inductive HookNudgeTurn
  | codex (turnId : JsString)
  | claudeBegin
  | claudeCurrent
  /-- Actor-locked evidence; valid only in this exact membership epoch. -/
  | claudeQueued (workstreamId membershipFrom : JsString)
  deriving DecidableEq, Repr

/-- In-lock receipt used only to undo a Stop claim whose lease write failed. -/
structure HookStopClaimRollback where
  provider : ParticipatingProvider
  sessionId : JsString
  workstreamId : JsString
  membershipFrom : JsString
  cursorRevision : ℕ
  before : NudgeDelivery
  claimed : NudgeDelivery
  deriving DecidableEq, Repr

/-- The membership a recipient is in: its last one, whose `from` the participation
store has checked to be a date. -/
structure MembershipEpoch (E : Host) where
  provider : ParticipatingProvider
  sessionId : JsString
  workstreamId : JsString
  start : JsString
  sessionId_ok : isSessionId sessionId = true
  workstreamId_ok : isWorkstreamId workstreamId = true
  start_ok : (E.dateParse start).isSome = true

/-- `Date.parse(epoch.from)` -/
def MembershipEpoch.startMs {E : Host} (epoch : MembershipEpoch E) : ℤ :=
  (E.dateParse epoch.start).getD 0

end Barbaro
