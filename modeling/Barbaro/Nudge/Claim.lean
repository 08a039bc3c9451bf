import Barbaro.Nudge.Store

/-!
# Claiming an announcement

`claimHookNudge` decides, at one hook boundary, whether the unread count is announced to
the recipient. An informational boundary (a user prompt, a tool boundary) announces a
count above the highest one of this revision; a Stop blocks once per revision.
`rollbackHookStopClaim` takes a Stop claim back.
-/

namespace Barbaro

/-! ## Transactions -/

section
variable {E : Host}

/-- Hook-only transaction: scan, decide. The cursor lock, and the two reads of the
membership around the scan, are what keeps `current` and `epoch` fixed meanwhile. -/
def withHookCursor {α : Type} (epoch : MembershipEpoch E) (files : List BarbaroFeedFile)
    (current : Option NudgeCursor) (operation : ScopedScan E → Except Failure (HookCursorUpdate α)) :
    Except Failure (HookCursorUpdate α) := do
  let scan ← scanUnread epoch none current files
  operation scan

/-! ## Turns -/

/-- `now.toISOString()` of a valid date. -/
def checkedTimestamp (E : Host) (now : ℤ) : Except Failure JsString :=
  match E.isoString now with
  | some s => .ok s
  | none => .error (.typeError "now must be valid")

def HookNudgeTurn.kind : HookNudgeTurn → ParticipatingProvider
  | .codex _ => .codex
  | _ => .claude

def validateHookTurn (E : Host) (provider : ParticipatingProvider) (turn : HookNudgeTurn) :
    Except Failure Unit :=
  if provider ≠ turn.kind then .error (.typeError "nudge turn identity does not match its provider")
  else
    match turn with
    | .codex turnId =>
      if !isTurnId turnId then .error (.typeError "Codex nudge turn id is invalid") else .ok ()
    | .claudeQueued workstreamId membershipFrom =>
      if !isWorkstreamId workstreamId || (E.dateParse membershipFrom).isNone then
        .error (.typeError "Claude queued input membership is invalid")
      else .ok ()
    | .claudeBegin => .ok ()
    | .claudeCurrent => .ok ()

def deliveryTurnsEqual (left : Option NudgeDeliveryTurn) (right : NudgeDeliveryTurn) : Bool :=
  left == some right

/-- The generation of a Claude cursor. -/
def claudeGeneration (state : NudgeCursorV3) : Except Failure ℕ :=
  match state.claudeTurnGeneration with
  | some g => .ok g
  | none => .error (.typeError "Claude nudge cursor generation is missing")

/-- Suppression of the present turn carries over to the next only for queued input of the
same membership. -/
def carries (cursor : VirtualCursor) : HookNudgeTurn → Bool
  | .claudeQueued workstreamId membershipFrom =>
    !cursor.reset && workstreamId == cursor.state.workstreamId &&
      membershipFrom == cursor.state.membershipFrom
  | _ => false

/-- A new prompt of Claude, or queued input, opens the next generation. -/
def nextGeneration (cursor : VirtualCursor) (turn : HookNudgeTurn) (generation : ℕ) : NudgeCursorV3 :=
  let state := cursor.state
  let currentTurn := NudgeDeliveryTurn.claude generation
  let nextTurn := NudgeDeliveryTurn.claude (generation + 1)
  let carry := carries cursor turn
  { state with
    claudeTurnGeneration := some (generation + 1)
    reads :=
      if carry && deliveryTurnsEqual state.reads.informedTurn currentTurn then
        { state.reads with informedTurn := some nextTurn }
      else state.reads
    delivery :=
      if carry && deliveryTurnsEqual state.delivery.lastTurn currentTurn then
        { state.delivery with lastTurn := some nextTurn }
      else state.delivery }

def establishClaimTurn (cursor : VirtualCursor) (turn : HookNudgeTurn) :
    Except Failure NudgeCursorV3 :=
  match turn with
  | .codex _ => .ok cursor.state
  | turn => do
    let generation ← claudeGeneration cursor.state
    if turn = .claudeCurrent ∨ !cursor.existed then .ok cursor.state
    else if generation + 1 > maxSafeInteger then
      .error (.rangeError "Claude nudge cursor generation overflow")
    else .ok (nextGeneration cursor turn generation)

def currentDeliveryTurn (state : NudgeCursorV3) (turn : HookNudgeTurn) :
    Except Failure NudgeDeliveryTurn :=
  match turn with
  | .codex turnId => .ok (.codex turnId)
  | _ => do
    let generation ← claudeGeneration state
    return .claude generation

/-! ## Claims -/

structure HookNudgeClaimOptions where
  marker : NudgeMarkerKind
  turn : HookNudgeTurn
  /-- Claude's reentrant Stop settles suppression but must never block again. -/
  stopContinuation : Bool := false
  now : ℤ

structure HookNudgeClaimReady (E : Host) where
  ready : UnreadPeerTurnsReady E
  marker : NudgeMarkerKind
  claimed : Bool
  stopRollback : Option HookStopClaimRollback

inductive HookNudgeClaim (E : Host)
  | alreadyClaimed (cursorRevision : ℕ) (marker : NudgeMarkerKind)
  | ready (claim : HookNudgeClaimReady E)

/-- Did the claim announce the count? -/
def HookNudgeClaim.claimed : HookNudgeClaim E → Bool
  | .alreadyClaimed _ _ => false
  | .ready claim => claim.claimed

def NudgeMarkersV1.any (m : NudgeMarkersV1) : Bool :=
  m.userPrompt.isSome || m.toolBoundary.isSome || m.stop.isSome

/-- Schema v1 recorded no counts: a marker of it stands for the present count. -/
def legacyDelivery (markers : NudgeMarkersV1) (unreadCount : ℕ) (marker : NudgeMarkerKind)
    (currentTurn : NudgeDeliveryTurn) : NudgeDelivery where
  highestUnreadCount := if markers.any then unreadCount else 0
  lastTurn :=
    if markers.any && unreadCount > 0 && marker ≠ .userPrompt then some currentTurn else none

/-- The state a claim starts from: the turn is established and legacy markers are read. -/
def claimState (scan : ScopedScan E) (options : HookNudgeClaimOptions) :
    Except Failure (NudgeCursorV3 × NudgeDeliveryTurn) := do
  let next ← establishClaimTurn scan.cursor options.turn
  let currentTurn ← currentDeliveryTurn next options.turn
  match scan.cursor.legacyMarkers with
  | some markers =>
    return ({ next with
      delivery := legacyDelivery markers scan.ready.unreadCount options.marker currentTurn },
      currentTurn)
  | none => return (next, currentTurn)

/-- This turn has been told already: by a claim, or by a read it made. -/
def sameTurnDelivery (state : NudgeCursorV3) (currentTurn : NudgeDeliveryTurn) : Bool :=
  deliveryTurnsEqual state.delivery.lastTurn currentTurn ||
    deliveryTurnsEqual state.reads.informedTurn currentTurn

/-- Suppression by this turn ends at its terminal boundary. -/
def retireSuppression (options : HookNudgeClaimOptions) (state : NudgeCursorV3)
    (sameTurn : Bool) : NudgeCursorV3 :=
  if options.marker = .stop ∧ options.turn.kind = .claude ∧ sameTurn then
    { state with
      reads := { state.reads with informedTurn := none }
      delivery := { state.delivery with lastTurn := none } }
  else state

/-- Is the count announced at this boundary? -/
def isClaimed (options : HookNudgeClaimOptions) (unreadCount : ℕ) (state : NudgeCursorV3)
    (sameTurn : Bool) : Bool :=
  unreadCount > 0 &&
    (if options.marker ≠ .stop then unreadCount > state.delivery.highestUnreadCount
     else !sameTurn && !options.stopContinuation)

/-- The state after the decision. -/
def settleClaim (options : HookNudgeClaimOptions) (scan : ScopedScan E) (state : NudgeCursorV3)
    (currentTurn : NudgeDeliveryTurn) (claimed : Bool) : NudgeCursorV3 :=
  let next := collapseReadCursor state scan
  if scan.ready.unreadCount = 0 ∧ scan.ready.coverage = none then
    { next with reads := { next.reads with outsideWindow := false } }
  else if claimed then
    { next with
      markers :=
        if options.marker = .stop then { stop := some scan.cursor.state.cursorRevision }
        else next.markers
      delivery := {
        highestUnreadCount := max next.delivery.highestUnreadCount scan.ready.unreadCount
        lastTurn := some currentTurn } }
  else next

/-- The cursors are the same but for their time. `stableStringify` tells any two cursors
apart. -/
def sameCursorPayload (left right : NudgeCursorV3) : Bool :=
  left == { right with updatedAt := left.updatedAt }

/-- The state is written unless nothing changed. -/
def writeIfChanged (scan : ScopedScan E) (next : NudgeCursorV3) (timestamp : JsString) :
    Option NudgeCursorV3 :=
  if scan.cursor.reset || !scan.cursor.existed || !sameCursorPayload scan.cursor.state next then
    some { next with updatedAt := timestamp }
  else none

/-- The operation of `claimHookNudge` on a scan. -/
def claimScan (provider : ParticipatingProvider) (options : HookNudgeClaimOptions)
    (timestamp : JsString) (scan : ScopedScan E) :
    Except Failure (HookCursorUpdate (HookNudgeClaim E)) := do
  let revision := scan.cursor.state.cursorRevision
  let (start, currentTurn) ← claimState scan options
  let sameTurn := sameTurnDelivery start currentTurn
  let state := retireSuppression options start sameTurn
  if options.marker = .stop ∧ state.markers.stop = some revision then
    return {
      state := writeIfChanged scan state timestamp
      result := .alreadyClaimed revision options.marker }
  else
    let claimed := isClaimed options scan.ready.unreadCount state sameTurn
    let next := settleClaim options scan state currentTurn claimed
    return {
      state := writeIfChanged scan next timestamp
      result := .ready {
        ready := scan.ready
        marker := options.marker
        claimed
        stopRollback :=
          if options.marker = .stop ∧ claimed then
            some {
              provider
              sessionId := scan.ready.sessionId
              workstreamId := scan.ready.workstreamId
              membershipFrom := scan.ready.membershipFrom
              cursorRevision := revision
              before := start.delivery
              claimed := next.delivery }
          else none } }

/-- Atomically decide one provider delivery without consuming unread turns. -/
def claimHookNudge (epoch : MembershipEpoch E) (files : List BarbaroFeedFile)
    (current : Option NudgeCursor) (options : HookNudgeClaimOptions) :
    Except Failure (HookCursorUpdate (HookNudgeClaim E)) := do
  validateHookTurn E epoch.provider options.turn
  if options.stopContinuation ∧ (epoch.provider ≠ .claude ∨ options.marker ≠ .stop) then
    .error (.typeError "Stop continuation requires a Claude Stop boundary")
  else do
    let timestamp ← checkedTimestamp E options.now
    withHookCursor epoch files current (claimScan epoch.provider options timestamp)

/-! ## Rollback -/

def checkReceipt (E : Host) (receipt : HookStopClaimRollback) : Except Failure Unit :=
  if !isSessionId receipt.sessionId || !isWorkstreamId receipt.workstreamId ||
      (E.dateParse receipt.membershipFrom).isNone || receipt.cursorRevision > maxSafeInteger ||
      receipt.cursorRevision = 0 then
    .error (.typeError "Stop rollback receipt is invalid")
  else .ok ()

/-- The cursor the receipt was given for, with its Stop latch still set. -/
def rollbackApplies (receipt : HookStopClaimRollback) (c : NudgeCursorV3) : Bool :=
  c.workstreamId == receipt.workstreamId && c.membershipFrom == receipt.membershipFrom &&
    c.cursorRevision == receipt.cursorRevision && c.markers.stop == some receipt.cursorRevision

/-- Undo a Stop latch whose active continuation failed before it was persisted. A newer
revision wins; a concurrent informational announcement keeps its ledger. -/
def rollbackHookStopClaim (E : Host) (current : Option NudgeCursor)
    (receipt : HookStopClaimRollback) (now : ℤ) : Except Failure (HookCursorUpdate Bool) := do
  checkReceipt E receipt
  let timestamp ← checkedTimestamp E now
  match current with
  | some (.v3 c) =>
    if rollbackApplies receipt c then
      return {
        state := some { c with
          markers := {}
          delivery := if c.delivery = receipt.claimed then receipt.before else c.delivery
          updatedAt := timestamp }
        result := true }
    else return { result := false }
  | _ => return { result := false }

end

end Barbaro
