import Barbaro.Nudge.Claim

/-!
# Reserving a read

Before an admitted read command runs, `reserveHookRead` puts a pending read into the
cursor: a nonce, the exact invocation, and five minutes to live. Its output is staged and
committed later (`Nudge.ReadCommit`). No unread coverage is advanced here.
-/

namespace Barbaro

/-! ## Queries -/

structure ReadRecipient where
  provider : ParticipatingProvider
  sessionId : JsString
  workstreamId : JsString
  membershipFrom : JsString
  deriving DecidableEq, Repr

inductive ReadQueryKind
  | context
  | turn
  deriving DecidableEq, Repr

structure ReadQuery where
  kind : ReadQueryKind
  projectRoot : JsString
  projectSha256 : JsString
  byteBudget : ℕ
  maxFileBytes : ℕ
  maxRecordBytes : ℕ
  workstreamId : Option JsString := none
  recipient : Option ReadRecipient := none
  turnsPerSession : Option ℕ := none
  turnId : Option JsString := none
  field : Option ReadQueryField := none
  cursor : Option JsString := none
  /-- Explicit all-workstream reads never carry acknowledgment authority. -/
  allWorkstreams : Bool
  deriving DecidableEq, Repr

def ReadRecipient.toJson (r : ReadRecipient) : Json :=
  .obj [(js "membership_from", .str r.membershipFrom), (js "provider", .str r.provider.text),
    (js "session_id", .str r.sessionId), (js "workstream_id", .str r.workstreamId)]

def ReadQueryKind.text : ReadQueryKind → JsString
  | .context => js "context"
  | .turn => js "turn"

def ReadQuery.toJson (q : ReadQuery) : Json :=
  .obj ([(js "all_workstreams", .bool q.allWorkstreams), (js "byte_budget", natJson q.byteBudget)] ++
    optionalMember "cursor" (q.cursor.map Json.str) ++
    optionalMember "field" (q.field.map (fun f => .str f.text)) ++
    [(js "kind", .str q.kind.text), (js "max_file_bytes", natJson q.maxFileBytes),
      (js "max_record_bytes", natJson q.maxRecordBytes), (js "project_root", .str q.projectRoot),
      (js "project_sha256", .str q.projectSha256)] ++
    optionalMember "recipient" (q.recipient.map ReadRecipient.toJson) ++
    optionalMember "turn_id" (q.turnId.map Json.str) ++
    optionalMember "turns_per_session" (q.turnsPerSession.map natJson) ++
    optionalMember "workstream_id" (q.workstreamId.map Json.str))

section
variable {E : Host}

def readQueryHash (E : Host) (q : ReadQuery) : JsString := readContentHash E (stableStringify q.toJson)

/-- One admitted foreground call, as `resolveHookRead` resolves it: the project root is a
real path of the file system, the command and the tool id are bounded, and the query is
one of the recipient in its own workstream. -/
structure HookReadInvocation where
  query : ReadQuery
  recipient : ReadRecipient
  command : JsString
  toolUseId : JsString
  toolInputHash : JsString
  recipient_eq : query.recipient = some recipient
  command_ok : bounded 8192 command = true
  toolUseId_ok : bounded 512 toolUseId = true
  toolInputHash_ok : isSha256Hex toolInputHash = true
  projectRoot_ok : bounded 4096 query.projectRoot = true ∧ query.projectRoot.head? = some 47

/-- What the hook supplies with a call. -/
structure HookReadOptions (E : Host) where
  provider : ParticipatingProvider
  turn : HookNudgeTurn
  now : ℤ
  /-- The hooks pass a turn they have derived or checked themselves. -/
  turn_ok : validateHookTurn E provider turn = .ok ()

/-! ## Reservations -/

inductive ReservationReason
  | unrecognized
  | scopeChanged
  | pendingCapacity
  | replayedToolId
  deriving DecidableEq, Repr

structure HookReadReservation where
  reserved : Bool
  reason : Option ReservationReason := none
  deriving DecidableEq, Repr

/-- `toISOString()` of a time that may be out of range. -/
def isoTimestamp (E : Host) (t : ℤ) : Except Failure JsString :=
  match E.isoString t with
  | some s => .ok s
  | none => .error (.rangeError "Invalid time value")

/-- `Date.parse(text) > now`, false when the text is no date. -/
def isAfter (E : Host) (text : JsString) (now : ℤ) : Bool :=
  match E.dateParse text with
  | some t => t > now
  | none => false

/-- `Date.parse(text) <= now`, false when the text is no date. -/
def isNotAfter (E : Host) (text : JsString) (now : ℤ) : Bool :=
  match E.dateParse text with
  | some t => t ≤ now
  | none => false

/-- Pending reads that have not run out. -/
def livePending (E : Host) (now : ℤ) (pending : List NudgePendingRead) : List NudgePendingRead :=
  pending.filter (fun p => isAfter E p.expiresAt now)

def pendingEntry (E : Host) (invocation : HookReadInvocation) (nonce : JsString)
    (turn : NudgeDeliveryTurn) (createdAt expiresAt : JsString) : NudgePendingRead where
  nonce
  toolUseId := invocation.toolUseId
  turn
  projectRoot := invocation.query.projectRoot
  command := invocation.command
  querySha256 := readQueryHash E invocation.query
  toolInputSha256 := invocation.toolInputHash
  createdAt
  expiresAt

/-- The operation of `reserveHookRead` on a scan; the nonce is 16 random bytes in hex. -/
def reserveScan (invocation : HookReadInvocation) (options : HookReadOptions E) (nonce : JsString)
    (scan : ScopedScan E) : Except Failure (HookCursorUpdate HookReadReservation) :=
  if invocation.recipient.sessionId ≠ scan.ready.sessionId ∨
      invocation.recipient.workstreamId ≠ scan.ready.workstreamId ∨
      invocation.recipient.membershipFrom ≠ scan.ready.membershipFrom then
    .ok { result := { reserved := false, reason := some .scopeChanged } }
  else do
    let state := scan.cursor.state
    let turn ← currentDeliveryTurn state options.turn
    let pending := livePending E options.now state.reads.pending
    if pending.any (fun p => p.toolUseId == invocation.toolUseId) then
      return { result := { reserved := false, reason := some .replayedToolId } }
    else if pending.length ≥ maxPendingReads then
      return { result := { reserved := false, reason := some .pendingCapacity } }
    else do
      let createdAt ← isoTimestamp E options.now
      let expiresAt ← isoTimestamp E (options.now + readInvocationTtlMs)
      let entry := pendingEntry E invocation nonce turn createdAt expiresAt
      let next := { state with
        reads := { state.reads with pending := pending ++ [entry] }
        updatedAt := createdAt }
      if !nudgeCursorFits next then
        return { result := { reserved := false, reason := some .pendingCapacity } }
      else return { state := some next, result := { reserved := true } }

/-- Reserve one hook-owned nonce before execution. -/
def reserveHookRead (epoch : MembershipEpoch E) (files : List BarbaroFeedFile)
    (current : Option NudgeCursor) (invocation : HookReadInvocation) (options : HookReadOptions E)
    (nonce : JsString) : Except Failure (HookCursorUpdate HookReadReservation) :=
  withHookCursor epoch files current (reserveScan invocation options nonce)

end

end Barbaro
