import Barbaro.Active.Revisions
import Barbaro.Hooks.Admission
import Barbaro.Hooks.ClaudeScope
import Barbaro.Lib.JsonKeys

/-!
# The activity hook of Claude

Every event of an actor becomes at most one change of its lease: a prompt, the end of a
batch of tools or a terminal event sets the lease afresh, a tool that is about to run adds
to the claims of those that run beside it, and the end of one tool changes nothing. What an
event meets besides the store of leases is given to it: what the admission made of the
session, and whether there is something to announce.

* `handleClaudeHook`: what an event does to the leases, and what it returns.
-/

namespace Barbaro.Active

/-- A value as an update. A lease and what a hook adds to it hold no doubles. -/
def JsonInput.ofJson (E : Host) (v : Json) : JsonInput E :=
  if h : v.isPlain = true then ⟨v, Json.isPlain_wellFormed h⟩ else ⟨.null, trivial⟩

/-- `readSnapshot` -/
def readSnapshot (E : Host) (call : StoreCall) (actor : ActiveActorKey) (files : ActiveFiles) :
    Except ActiveFailure (Option (ActiveLeaseV1 E)) := do
  let p ← actorPath E actor
  let lease ← readPath E call files p
  if lease.any (fun lease => lease.actor ≠ actor) then
    .error (.failure (.error s!"Active lease at {p.text} does not match its actor path"))
  else return lease

end Barbaro.Active

namespace Barbaro.Hooks

open Active

def activeIntentBytes : ℕ := 4096

/-- The actor an event is of: the main agent of a session or one of its subagents. -/
structure ClaudeActor where
  leaseId : JsString
  sessionId : JsString
  agentId : JsString
  deriving DecidableEq, Repr

def ClaudeActor.key (a : ClaudeActor) : ActiveActorKey := ⟨js "claude", a.sessionId, a.agentId⟩

def ClaudeActor.isMain (a : ClaudeActor) : Bool := a.agentId == js "main"

/-- What one event meets. -/
structure ClaudeHookCall (E : Host) where
  admission : HookSessionAdmission E
  /-- The reap: its clock, the directories and the calls of the store. -/
  reapNow : Option ℤ := none
  reapListing : Except ActiveFailure (List ActivePath) := .ok []
  reapCalls : ActivePath → StoreCall := fun _ => { now := none }
  store : StoreCall
  /-- The second change a Stop makes. -/
  again : StoreCall := { now := none }
  /-- `handleClaudeReadDelivery` -/
  delivery : Except Failure Unit := .ok ()
  /-- `claimHookNudgeDelivery`, and whether it has something to announce. -/
  nudge : Except Failure Bool := .ok false
  /-- `rollbackHookStopClaim` -/
  rollback : Except Failure Unit := .ok ()

structure ClaudeHookResult where
  event : JsString
  activeRevision : Option ℕ := none
  ignored : Option JsString := none
  nudge : Bool := false
  stopReason : Bool := false
  deriving DecidableEq, Repr

/-- `updateHookResult` -/
def updateHookResult (event : JsString) : ActiveLeaseUpdateResult → ClaudeHookResult
  | .lease lease => { event, activeRevision := some (leaseRevision lease) }
  | .ignored reason => { event, ignored := some reason }

section
variable (E : Host)

/-! ## Updates -/

/-- `identity` -/
def identityFields (a : ClaudeActor) (workstreamId : Option JsString) : List (JsString × Json) :=
  [(js "lease_id", .str a.leaseId), (js "provider", .str (js "claude")),
    (js "session_id", .str a.sessionId), (js "agent_id", .str a.agentId)] ++
    optionalField "workstream_id" (workstreamId.map .str)

/-- The tombstone of the actor. -/
def idleIdentity (a : ClaudeActor) (workstreamId : Option JsString) : ActiveLeaseIdentity E where
  leaseId := a.leaseId
  actor := a.key
  workstreamId := workstreamId

/-- A lease of the actor in a state. -/
def activityJson (a : ClaudeActor) (workstreamId : Option JsString) (state : String)
    (intent currentAction : Option Json) (claims : List ActiveWriteClaim) (unknownWriteScope : Bool) : Json :=
  .obj (identityFields a workstreamId ++ [(js "state", .str (js state))] ++
    optionalField "intent" intent ++ optionalField "current_action" currentAction ++
    [(js "claims", .arr (claims.map ActiveWriteClaim.toJson)),
      (js "unknown_write_scope", .bool unknownWriteScope)])

def activity (a : ClaudeActor) (workstreamId : Option JsString) (state : String)
    (intent currentAction : Option Json) (claims : List ActiveWriteClaim) (unknownWriteScope : Bool) :
    JsonInput E :=
  .ofJson E (activityJson a workstreamId state intent currentAction claims unknownWriteScope)

/-- `previous?.intent` -/
def intentOf (previous : Option Json) : Option Json := previous.bind (Json.get (js "intent"))

def isIdle (lease : Json) : Bool := equalsText (js "idle") (lease.get (js "state"))

/-- The end of a batch of tools: nothing is in flight any more. -/
def batchDecision (a : ClaudeActor) (workstreamId : Option JsString) (previous : Option Json) :
    ActiveLeaseDecision E :=
  match previous with
  | none => .ignore (js "no lease to clean up")
  | some lease =>
    if isIdle lease then .ignore (js "stale event after idle")
    else .write (activity E a workstreamId "working" (intentOf previous) none [] false)

/-- A tool that is about to run. -/
def preToolDecision (a : ClaudeActor) (workstreamId : Option JsString) (scope : ToolScope)
    (previous : Option Json) : ActiveLeaseDecision E :=
  if previous.any isIdle then .ignore (js "stale event after idle")
  else
    match scope.awaitCommand with
    | some _ => .write (activity E a workstreamId "waiting" (intentOf previous) scope.action [] false)
    | none =>
      .write (activity E a workstreamId "working" (intentOf previous) scope.action
        (mergeClaims ((previous.map claimsOf).getD []) scope.claims)
        (previous.any (fun lease => isTrue (lease.get (js "unknown_write_scope"))) ||
          scope.unknownWriteScope))

/-- The continuation of a Stop that is to be blocked, unless something came in between. -/
def continueDecision (a : ClaudeActor) (workstreamId : Option JsString) (intent : Option Json)
    (stoppedRevision : ℕ) (nudge : Except Failure Bool) (current : Option Json) :
    Except Failure (ActiveLeaseDecision E) :=
  if current.any (fun lease => isIdle lease && leaseRevision lease == stoppedRevision) then do
    let announced ← nudge
    if announced then return .write (activity E a workstreamId "working" intent none [] false)
    else return .ignore (js "no Stop nudge required")
  else .ok (.ignore (js "newer activity superseded Stop continuation"))

/-! ## Events -/

variable (a : ClaudeActor) (c : ClaudeHookCall E)

/-- `admission.participation?.workstream_id` -/
def admittedWorkstream : Option JsString := c.admission.participation.bind (·.workstreamId)

def failed {α : Type} (x : Except Failure α) : Except ActiveFailure α :=
  match x with
  | .ok v => .ok v
  | .error f => .error (.failure f)

/-- What follows a change of the lease of the main agent: the delivery of a read, and the
announcement at a tool boundary. -/
def toolBoundary (result : ClaudeHookResult) : Except ActiveFailure ClaudeHookResult :=
  if !a.isMain || result.activeRevision.isNone then .ok result
  else do
    failed c.delivery
    let nudge ← failed c.nudge
    return { result with nudge }

/-- A terminal event that does not continue. -/
def settleIdle (event : JsString) (files : ActiveFiles) : ActiveFiles × Except ActiveFailure ClaudeHookResult :=
  let written := writeIdle E c.store (idleIdentity E a (admittedWorkstream E c)) {} files
  (written.1, written.2.map (fun lease => { event, activeRevision := some (leaseRevision lease) }))

/-- A Stop: the actor is idle, and then goes on if there is something to announce. -/
def stop (event : JsString) (files : ActiveFiles) : ActiveFiles × Except ActiveFailure ClaudeHookResult :=
  let previous := (readSnapshot E c.store a.key files).toOption.join
  let stopped := update E c.store a.key
    (fun _ => .ok (.write (idleLeaseUpdate (idleIdentity E a (admittedWorkstream E c))))) {} files
  match stopped.2 with
  | .error e => (stopped.1, .error e)
  | .ok (.ignored reason) => (stopped.1, .ok (updateHookResult event (.ignored reason)))
  | .ok (.lease lease) =>
    let stoppedResult := updateHookResult event (.lease lease)
    if !a.isMain then (stopped.1, .ok stoppedResult)
    else
      let continued := update E c.again a.key
        (continueDecision E a (admittedWorkstream E c) (intentOf (previous.map (·.json))) (leaseRevision lease) c.nudge)
        { onWriteFailure := some fun _ => c.rollback, onLockReleaseFailure := true } stopped.1
      match continued.2 with
      | .error e => (continued.1, .error e)
      | .ok (.ignored _) => (continued.1, .ok stoppedResult)
      | .ok (.lease lease) =>
        (continued.1, .ok { updateHookResult event (.lease lease) with stopReason := true })

/-- A subagent gets its own actor file. -/
def subagentStart (event : JsString) (files : ActiveFiles) :
    ActiveFiles × Except ActiveFailure ClaudeHookResult :=
  let written := write E c.store (activity E a (admittedWorkstream E c) "working" none none [] true) {} files
  (written.1, written.2.map (fun lease => { event, activeRevision := some (leaseRevision lease) }))

/-- Parallel tools have independent ends, so the end of one is informational only. -/
def postToolUse (event : JsString) (files : ActiveFiles) : Except ActiveFailure ClaudeHookResult := do
  match ← readSnapshot E c.store a.key files with
  | none => return { event, ignored := some (js "no lease to clean up") }
  | some lease =>
    if isIdle lease.json then return { event, ignored := some (js "stale event after idle") }
    else if !a.isMain then return { event, ignored := some (js "claim retained until PostToolBatch") }
    else do
      failed c.delivery
      let nudge ← failed c.nudge
      return { event, ignored := some (js "claim retained until PostToolBatch"), nudge }

def postToolBatch (event : JsString) (files : ActiveFiles) :
    ActiveFiles × Except ActiveFailure ClaudeHookResult :=
  let settled := update E c.store a.key (fun previous => .ok (batchDecision E a (admittedWorkstream E c) previous))
    {} files
  (settled.1, settled.2.bind (fun result => toolBoundary E a c (updateHookResult event result)))

/-- A prompt begins a turn: its text is the intent. -/
def prompt (event : JsString) (text : JsString) (files : ActiveFiles) :
    ActiveFiles × Except ActiveFailure ClaudeHookResult :=
  let announces := event == js "UserPromptSubmit" && a.isMain
  let settled := update E c.store a.key
    (fun _ => .ok (.write (activity E a (admittedWorkstream E c) "working"
      (some (excerptContent text activeIntentBytes)) none [] false)))
    { afterCommit := some (fun _ => if announces then c.nudge.map (fun _ => ()) else .ok ())
      onLockReleaseFailure := true } files
  (settled.1, settled.2.map (fun result =>
    { updateHookResult event result with nudge := announces && c.nudge.toOption.getD false }))

/-- The lease lives as long as the wait it is of. -/
def preToolOptions (scope : ToolScope) : UpdateOptions :=
  match scope.awaitCommand with
  | none => {}
  | some await => { ttlMs := await.leaseTtlMs }

/-- The change of the lease by a tool that is about to run. -/
def settlePreTool (scope : ToolScope) (files : ActiveFiles) :
    ActiveFiles × Except ActiveFailure ActiveLeaseUpdateResult :=
  update E c.store a.key (fun previous => .ok (preToolDecision E a (admittedWorkstream E c) scope previous))
    (preToolOptions scope) files

def preToolUse (root : List JsString) (event : JsString) (input : Json) (files : ActiveFiles) :
    ActiveFiles × Except ActiveFailure ClaudeHookResult :=
  match stringValue (input.get (js "tool_name")) with
  | none => (files, .ok { event, ignored := some (js "missing tool_name") })
  | some toolName =>
    let toolInput := (input.get (js "tool_input")).filter (fun v => isObject (some v))
    match describeToolScope E root toolName (toolInput.getD (.obj [])) with
    | none => (files, .ok { event, ignored := some (js "generated barbaro output") })
    | some scope =>
      let settled := settlePreTool E a c scope files
      (settled.1, settled.2.bind (fun result => toolBoundary E a c (updateHookResult event result)))

/-- The name of the event. -/
def eventOf (input : Json) : JsString := (stringValue (input.get (js "hook_event_name"))).getD []

def isEvent (names : List String) (event : JsString) : Bool := names.any (fun name => js name == event)

/-- Long-dead tombstones are deleted once per session. A failure must not fail the event. -/
def reap (event : JsString) (files : ActiveFiles) : ActiveFiles :=
  if c.admission.initiated || event == js "SessionStart" then
    (reapExpiredIdle E c.reapNow c.reapListing c.reapCalls files).1
  else files

/-- What an event of the actor does to the leases, and what the hook returns. -/
def handleClaudeHook (root : List JsString) (input : Json) (files : ActiveFiles) :
    ActiveFiles × Except ActiveFailure ClaudeHookResult :=
  let event := eventOf input
  if !c.admission.joined then
    (files, .ok { event, ignored := some (match c.admission.pending with
      | some _ => js "workstream selection pending"
      | none => c.admission.refused.getD (js "session has not joined Barbaro")) })
  else
    let files := reap E c event files
    if isEvent ["SessionStart", "SessionEnd", "StopFailure", "SubagentStop"] event then
      settleIdle E a c event files
    else if event = js "Stop" then stop E a c event files
    else if event = js "SubagentStart" then subagentStart E a c event files
    else if isEvent ["PostToolUse", "PostToolUseFailure"] event then
      (files, postToolUse E a c event files)
    else if event = js "PostToolBatch" then postToolBatch E a c event files
    else if isEvent ["UserPromptSubmit", "UserPromptExpansion"] event then
      prompt E a c event ((stringValue (input.get (js "prompt"))).getD []) files
    else if event = js "PreToolUse" then preToolUse E a c root event input files
    else (files, .ok { event, ignored := some (js "event does not affect activity") })

end

end Barbaro.Hooks
