import Barbaro.Core.Id
import Barbaro.Hooks.CodexScope
import Barbaro.Runner.CodexTrace

/-!
# The activity hook of Codex

Hooks of Codex come late and out of order, and the turn that the lease names is what tells a late
one. A goal that goes on and a child that is used again begin turns without a prompt: then the trace
has to name the turn of the event as the one that started last.

* `staleToolTurnDecision`, `staleMainTurnDecision`, `staleUserPromptIgnore`,
  `staleSubagentStartIgnore`: which events are too late.
* `beginStop`, `continueStop`: a Stop, and the continuation that it may turn into.
* `handleCodexHook`: what an event does to the leases, and what it returns.

What other hooks do between the two changes of a Stop is given to it, as is what an event meets
besides the leases and the traces.
-/

namespace Barbaro.Active

section
variable (E : Host)

def isActiveLeaseVisible (lease : ActiveLeaseV1 E) (now : ℤ) : Bool :=
  lease.state != js "idle" && (E.dateParse lease.expiresAt).any (now < ·)

def readActive (call : StoreCall) (actor : ActiveActorKey) (files : ActiveFiles) :
    Except ActiveFailure (Option (ActiveLeaseV1 E)) := do
  match ← readSnapshot E call actor files with
  | none => return none
  | some lease =>
    match call.now with
    | none => .error (.failure (.typeError "now must be a valid date-time"))
    | some now => return if isActiveLeaseVisible E lease now then some lease else none

end

/-- What a failure of the store is where a decision meets it. -/
def ActiveFailure.thrown : ActiveFailure → Failure
  | .failure f => f
  | .invalidLease issues => .typeError ("Invalid barbaro.active.v1 lease: " ++
      "; ".intercalate (issues.map fun issue => messageText issue.path ++ " " ++ issue.message))
  | .revisionConflict _ _ => .error "Active lease revision conflict"
  | .lockRelease f => f
  | .aggregate e _ => e.thrown

end Barbaro.Active

namespace Barbaro.Hooks

open Active Codex

/-! ## What an event says, and what it meets -/

structure CodexHookInput where
  event : JsString
  nativeSessionId : JsString
  projectRoot : List JsString
  tracePath : Option JsString
  agentTracePath : Option JsString
  nativeTurnId : Option JsString
  nativeAgentId : Option JsString
  agentId : JsString
  deriving DecidableEq, Repr

/-- What one event meets. -/
structure CodexHookCall (E : Host) where
  directory : List JsString
  /-- `codexMembershipEffectiveAt` and `admitHookSession` -/
  admission : Except Failure (HookSessionAdmission E)
  reapNow : Option ℤ := none
  reapListing : Except ActiveFailure (List ActivePath) := .ok []
  reapCalls : ActivePath → StoreCall := fun _ => { now := none }
  store : StoreCall
  /-- The read of the lease of the root. -/
  root : StoreCall := { now := none }
  /-- The second change a Stop makes, and what became of the leases since the first. -/
  again : StoreCall := { now := none }
  meanwhile : ActiveFiles → ActiveFiles := id
  /-- What is found at the path of a trace. -/
  traces : JsString → JsonlSource
  /-- `new Date().toISOString()` -/
  startedAt : JsString := []
  /-- `handleCodexReadDelivery` -/
  delivery : Except Failure Unit := .ok ()
  /-- `claimHookNudgeDelivery`, and whether it has something to announce. -/
  nudge : Except Failure Bool := .ok false
  /-- `rollbackHookStopClaim` -/
  rollback : Except Failure Unit := .ok ()

structure CodexHookResult where
  event : JsString
  activeRevision : Option ℕ := none
  ignored : Option JsString := none
  message : Option JsString := none
  nudge : Bool := false
  stopReason : Bool := false
  deriving DecidableEq, Repr

def codexUpdateResult (event : JsString) : ActiveLeaseUpdateResult → CodexHookResult
  | .lease lease => { event, activeRevision := some (leaseRevision lease) }
  | .ignored reason => { event, ignored := some reason }

/-! ## Turns -/

def staleTurn : JsString := js "stale turn event ignored"

def turnIdsDiffer (current event : Option JsString) : Bool := current.isSome && event.isSome && current != event

def staleTurnDecision (previous : Option Json) (eventTurnId : Option JsString) : Option JsString :=
  if turnIdsDiffer (previous.bind (textAt? "turn_id")) eventTurnId then some staleTurn else none

def assertCodexTraceIdentity (directory : List JsString) (identity : Option CodexTraceIdentity)
    (nativeSessionId : JsString) (projectRoot : List JsString) : Except Failure Unit :=
  match identity with
  | none => .error (.error "Codex hook transcript has no bounded valid session_meta")
  | some identity =>
    if identity.nativeSessionId ≠ nativeSessionId then
      .error (.error "Codex hook session_id does not match transcript session_meta.session_id")
    else if identity.workspaceRoot.any (fun workspaceRoot => resolvePath directory workspaceRoot ≠ projectRoot) then
      .error (.error "Codex hook cwd does not match transcript session_meta.cwd")
    else .ok ()

/-- What reading a trace throws, where a missing one is told by its path. -/
def missingTrace (path : JsString) : Failure → Failure
  | .system code =>
    if code = "ENOENT" then .error ("Codex trace does not exist: " ++ messageText path) else .system code
  | f => f

def readTrace {α : Type} (path : JsString) (read : Except Failure α) : Except Failure α := read.mapError (missingTrace path)

section
variable (E : Host) (c : CodexHookCall E) (h : CodexHookInput) (a : CodexIdentity)

/-- A turn that the trace names as the one that started last takes over. -/
def attestCodexTurnRollover (tracePath : Option JsString) (stale : JsString) : Except Failure (Option JsString) :=
  match h.nativeTurnId, tracePath with
  | some nativeTurnId, some path => do
    let attestation ← readTrace path (readCodexTurnAttestation E (c.traces path))
    assertCodexTraceIdentity c.directory attestation.identity h.nativeSessionId h.projectRoot
    if h.agentId ≠ js "main" ∧ attestation.identity.map (·.nativeThreadId) ≠ some h.agentId then
      .error (.error "Codex hook agent_id does not match transcript session_meta.id")
    else if 0 < attestation.malformedLines ∨ attestation.partialFinalLine = true then return some stale
    else return if attestation.latestStartedTurnId = some nativeTurnId then none else some stale
  | _, _ => .ok (some stale)

/-- A child that is seen first can exist only while its root is visibly live. -/
def staleFirstSeenChildIgnore (files : ActiveFiles) (previous : Option Json) : Except Failure (Option JsString) :=
  if a.agentId = js "main" ∨ previous.isSome = true then .ok none
  else
    match readActive E c.root ⟨js "codex", a.sessionId, js "main"⟩ files with
    | .error e => .error e.thrown
    | .ok root => .ok (if root.isNone then some staleTurn else none)

def staleToolTurnDecision (files : ActiveFiles) (previous : Option Json) : Except Failure (Option JsString) := do
  match ← staleFirstSeenChildIgnore E c a files previous with
  | some unseenChild => return some unseenChild
  | none =>
    let stale := staleTurnDecision previous a.turnId
    if h.agentId ≠ js "main" then
      match stale with
      | some stale => attestCodexTurnRollover E c h h.tracePath stale
      | none => return if previous.any isIdle then some staleTurn else none
    else if !previous.any isIdle then return stale
    else if a.turnId = none ∨ previous.bind (textAt? "turn_id") = a.turnId then return some (stale.getD staleTurn)
    else attestCodexTurnRollover E c h h.tracePath (stale.getD staleTurn)

def staleMainTurnDecision (previous : Option Json) : Except Failure (Option JsString) :=
  match staleTurnDecision previous a.turnId with
  | none => .ok none
  | some stale => if !previous.any isIdle then .ok (some stale) else attestCodexTurnRollover E c h h.tracePath stale

def staleSubagentStop (previous : Option Json) : Except Failure (Option JsString) :=
  match staleTurnDecision previous a.turnId with
  | none => .ok none
  | some own => attestCodexTurnRollover E c h h.agentTracePath own

def isFalse : Option Json → Bool
  | some (.bool false) => true
  | _ => false

/-- Nothing has happened to the actor since it was started. -/
def isPristine (lease : Json) : Bool :=
  equalsText (js "working") (lease.get (js "state")) && (lease.get (js "intent")).isNone &&
    (lease.get (js "current_action")).isNone && (claimsOf lease).isEmpty &&
    isFalse (lease.get (js "unknown_write_scope")) && (lease.get (js "extensions")).isNone

def staleUserPromptIgnore (files : ActiveFiles) (previous : Option Json) : Except Failure (Option JsString) :=
  if a.agentId = js "main" then .ok none
  else
    match staleTurnDecision previous a.turnId with
    | some own => .ok (some own)
    | none =>
      match previous with
      | none => staleFirstSeenChildIgnore E c a files none
      | some lease => .ok (if isPristine lease then none else some staleTurn)

def staleSubagentStartIgnore (files : ActiveFiles) (previous : Option Json) : Except Failure (Option JsString) :=
  match staleTurnDecision previous a.turnId with
  | some own => .ok (some own)
  | none => if previous.isSome then .ok (some staleTurn) else staleFirstSeenChildIgnore E c a files none

/-! ## Leases -/

/-- A lease of the actor in a state. -/
def codexLease (state : String) (intent extensions currentAction : Option Json) : JsonInput E :=
  .ofJson E (.obj (a.fields ++ [(js "state", .str (js state))] ++ optionalField "intent" intent ++
    optionalField "extensions" extensions ++ optionalField "current_action" currentAction ++
    [(js "claims", .arr []), (js "unknown_write_scope", .bool false)]))

/-- A member of the stored lease, if that is of the turn of the event. -/
def sameTurnUpdate (key : String) (previous : Option Json) : Option Json :=
  if a.sameTurn previous then previous.bind (Json.get (js key)) else none

def stopContinuationExtensions (turnId : JsString) : Json :=
  .obj [(js "codex", .obj [(js "barbaro_stop_continuation",
    .obj [(js "active", .bool true), (js "turn_id", .str turnId)])])]

/-- The tombstone of the actor. -/
def codexIdle : JsonInput E :=
  idleLeaseUpdate { leaseId := a.leaseId, actor := a.key, workstreamId := a.workstreamId, turnId := a.turnId }

/-- A decision that writes unless the event is too late. -/
def unlessStale (stale : StaleTurn) (write : Option Json → JsonInput E) (previous : Option Json) :
    Except Failure (ActiveLeaseDecision E) := do
  match ← stale previous with
  | some reason => return .ignore reason
  | none => return .write (write previous)

/-- What a compaction writes: the intent stays, of whatever turn it is. -/
def compactLease (currentAction : Option Json) (previous : Option Json) : JsonInput E :=
  codexLease E a "working" (intentOf previous) (sameTurnUpdate a "extensions" previous) currentAction

def compactAction (startedAt : JsString) : Json :=
  .obj [(js "kind", .str (js "other")), (js "tool_name", .str (js "compact")), (js "started_at", .str startedAt)]

/-- The continuation of a Stop that is to be blocked, unless something came in between. -/
def codexContinueDecision (turnId : JsString) (intent : Option Json) (stoppedRevision : ℕ) (current : Option Json) :
    Except Failure (ActiveLeaseDecision E) :=
  if current.any (fun lease => isIdle lease && leaseRevision lease == stoppedRevision) then do
    let announced ← c.nudge
    if announced then return .write (codexLease E a "working" intent (some (stopContinuationExtensions turnId)) none)
    else return .ignore (js "no Stop nudge required")
  else .ok (.ignore (js "newer activity superseded Stop continuation"))

/-! ## Events -/

/-- The delivery of a read, at a boundary of the main agent. -/
def readBoundary : Except ActiveFailure Unit :=
  if a.agentId ≠ js "main" ∨ a.turnId = none then .ok () else failed c.delivery

/-- What follows a change of the lease at a boundary. -/
def boundary (settled : ActiveFiles × Except ActiveFailure ActiveLeaseUpdateResult) (event : JsString) :
    ActiveFiles × Except ActiveFailure CodexHookResult :=
  (settled.1, do
    let result := codexUpdateResult event (← settled.2)
    if result.activeRevision.isSome then
      readBoundary E c a
    return result)

/-- At a prompt and around a tool there may also be something to announce. -/
def announcing (settled : ActiveFiles × Except ActiveFailure ActiveLeaseUpdateResult) (event : JsString) :
    ActiveFiles × Except ActiveFailure CodexHookResult :=
  let bounded := boundary E c a settled event
  (bounded.1, do
    let result ← bounded.2
    if a.agentId = js "main" ∧ result.activeRevision.isSome = true ∧ a.turnId.isSome = true then
      let nudge ← failed c.nudge
      return { result with nudge }
    else return result)

/-- The update an event asks for, unless it is too late. -/
def settle (stale : StaleTurn) (write : Option Json → JsonInput E) (files : ActiveFiles) :
    ActiveFiles × Except ActiveFailure ActiveLeaseUpdateResult :=
  update E c.store a.key (unlessStale E stale write) {} files

/-- A Stop that may turn into a continuation. -/
structure StopContinuation where
  turnId : JsString
  priorIntent : Option Json
  stoppedRevision : ℕ
  stoppedResult : CodexHookResult

/-- The lease that a change of this event was shown. -/
def shownLease (files : ActiveFiles) : Option Json :=
  (readSnapshot E c.store a.key files).toOption.join.map fun lease => cloneLease E lease.json

/-- The first change of a Stop: the actor is idle. -/
def beginStop (input : Json) (files : ActiveFiles) :
    ActiveFiles × Except ActiveFailure (CodexHookResult × Option StopContinuation) :=
  let previous := shownLease E c a files
  let stopped := settle E c a (staleMainTurnDecision E c h a) (fun _ => codexIdle E a) files
  (stopped.1, do
    let settled ← stopped.2
    let stoppedResult := codexUpdateResult h.event settled
    match stoppedResult.activeRevision with
    | none => return (stoppedResult, none)
    | some stoppedRevision =>
      readBoundary E c a
      match a.turnId with
      | none => return (stoppedResult, none)
      | some turnId =>
        if a.agentId ≠ js "main" ∨ Active.isTrue (input.get (js "stop_hook_active")) = true then return (stoppedResult, none)
        else
          -- a turn that no prompt began has no intent of its own
          let priorIntent := if previous.isSome && previous.bind (textAt? "turn_id") == a.turnId then intentOf previous
            else none
          return (stoppedResult, some { turnId, priorIntent, stoppedRevision, stoppedResult }))

/-- The second change of a Stop: it goes on if there is something to announce. -/
def continueStop (stop : StopContinuation) (files : ActiveFiles) :
    ActiveFiles × Except ActiveFailure CodexHookResult :=
  let continued := update E c.again a.key
    (codexContinueDecision E c a stop.turnId stop.priorIntent stop.stoppedRevision)
    { onWriteFailure := some fun _ => c.rollback, onLockReleaseFailure := true } files
  (continued.1, do
    match ← continued.2 with
    | .ignored _ => return stop.stoppedResult
    | .lease lease => return { codexUpdateResult h.event (.lease lease) with stopReason := true })

def codexStop (input : Json) (files : ActiveFiles) : ActiveFiles × Except ActiveFailure CodexHookResult :=
  let begun := beginStop E c h a input files
  match begun.2 with
  | .error e => (begun.1, .error e)
  | .ok (result, none) => (begun.1, .ok result)
  | .ok (_, some stop) => continueStop E c h a stop (c.meanwhile begun.1)

/-- An event that sets the actor idle, whatever its turn. -/
def codexWriteIdle (files : ActiveFiles) : ActiveFiles × Except ActiveFailure CodexHookResult :=
  let written := writeIdle E c.store
    { leaseId := a.leaseId, actor := a.key, workstreamId := a.workstreamId, turnId := a.turnId } {} files
  (written.1, written.2.map fun lease => { event := h.event, activeRevision := some (leaseRevision lease) })

/-- The events of an actor. -/
def dispatch (input : Json) (message : Option JsString) (files : ActiveFiles) :
    ActiveFiles × Except ActiveFailure CodexHookResult :=
  let tool := staleToolTurnDecision E c h a files
  let working := fun previous =>
    codexLease E a "working" (sameTurnUpdate a "intent" previous) (sameTurnUpdate a "extensions" previous) none
  if isEvent ["SessionStart", "SessionEnd"] h.event then codexWriteIdle E c h a files
  else if h.event = js "SubagentStart" then
    let settled := settle E c a (staleSubagentStartIgnore E c a files) (fun _ => codexLease E a "working" none none none)
      files
    (settled.1, settled.2.map (codexUpdateResult h.event))
  else if h.event = js "SubagentStop" then
    let settled := settle E c a (staleSubagentStop E c h a) (fun _ => codexIdle E a) files
    (settled.1, settled.2.map (codexUpdateResult h.event))
  else if h.event = js "UserPromptSubmit" then
    let prompt := (stringValue (input.get (js "prompt"))).getD []
    let announced := announcing E c a (settle E c a (staleUserPromptIgnore E c a files)
      (fun _ => codexLease E a "working" (some (boundedContent prompt activeIntentBytes)) none none) files) h.event
    (announced.1, announced.2.map fun result => { result with message })
  else if h.event = js "PreToolUse" then
    let activity := classifyToolActivity E input h.projectRoot c.startedAt
    announcing E c a (update E c.store a.key (codexPreTool E a activity tool) (codexOptions activity) files) h.event
  else if h.event = js "PermissionRequest" then
    let activity := classifyToolActivity E input h.projectRoot c.startedAt
    boundary E c a (update E c.store a.key (codexPermission E a activity tool) (codexOptions activity) files) h.event
  else if h.event = js "PostToolUse" then announcing E c a (settle E c a tool working files) h.event
  else if h.event = js "PreCompact" then
    boundary E c a (settle E c a tool (compactLease E a (some (compactAction c.startedAt))) files) h.event
  else if h.event = js "PostCompact" then boundary E c a (settle E c a tool (compactLease E a none) files) h.event
  else if h.event = js "Stop" then codexStop E c h a input files
  else (files, .ok { event := h.event, ignored := some (js "unsupported hook event") })

end

section
variable (E : Host)

/-- `leaseIdentity` of an event. -/
def codexIdentity (h : CodexHookInput) (workstreamId : Option JsString) : CodexIdentity where
  leaseId := createLeaseId E.toHasher (js "codex") h.nativeSessionId h.agentId
  sessionId := createSessionId E.toHasher (js "codex") h.nativeSessionId
  agentId := h.agentId
  workstreamId
  turnId := h.nativeTurnId.map (createTurnId E.toHasher (js "codex") h.nativeSessionId h.agentId)

/-- What an event of a session that has not joined returns. -/
def notJoined (event : JsString) (admission : HookSessionAdmission E) : CodexHookResult where
  event
  ignored := some (match admission.pending, admission.refused with
    | none, none => js "session has not joined Barbaro"
    | some _, _ => js "workstream selection pending"
    | none, some reason => reason)
  message := match admission.pending, admission.refused with
    | none, none => none
    | _, _ => admission.message

end

end Barbaro.Hooks
