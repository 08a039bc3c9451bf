import Barbaro.Lib.KeyedMap
import Barbaro.Providers.CodexTools

/-!
# The Codex normalizer

A stateful, line-ordered normalizer of one Codex trace. Records go to the turn they name, or to the
one that is current; a terminal record of a turn publishes it with its evidence. Between two runs the
state is a snapshot, from which another normalizer goes on.

* `CodexNormalizer`: the state, with a builder for every turn.
* `accept`: what a record changes, and what it publishes.
* `snapshot`, `restore`: what is kept between two runs.
-/

namespace Barbaro.Codex

open Active (optionalField)
open KeyedMap

/-! ## Records of the state -/

structure CanonicalSession where
  nativeSessionId : JsString
  nativeThreadId : JsString
  barbaroSessionId : JsString
  actorId : JsString
  workspaceRoot : Option JsString := none
  producerVersion : Option JsString := none
  historyMode : JsString
  threadSource : Option JsString := none
  deriving DecidableEq, Repr

inductive CallType
  | functionCall
  | customToolCall
  deriving DecidableEq, Repr

structure PendingCall where
  callId : JsString
  nativeId : Option JsString := none
  rootType : CallType
  name : JsString
  nameSpace : Option JsString := none
  input : Option JsString := none
  argumentsJson : Option JsString := none
  source : CodexSourceLocation
  /-- The items that were projected while the call was open. -/
  projectedItems : ℕ := 0
  deriving DecidableEq, Repr

structure PendingUsage where
  payload : Json
  source : CodexSourceLocation
  occurredAt : JsString

structure CodexSubagent where
  agentId : JsString
  role : JsString
  outcome : TurnOutcome := .unknown
  evidenceIds : List JsString
  lastActivity : Option JsString := none
  activityCount : ℕ := 0
  source : Option CodexSourceLocation := none
  occurredAt : Option JsString := none
  deriving DecidableEq, Repr

structure TurnBuilder where
  nativeTurnId : JsString
  barbaroTurnId : JsString
  sequence : ℕ
  agentId : JsString
  startedAt : JsString
  startSource : CodexSourceLocation
  request : Option JsString := none
  requestNativeId : Option JsString := none
  response : Option JsString := none
  responseNativeId : Option JsString := none
  responsePhase : Option JsString := none
  actions : List Json := []
  evidenceIds : List JsString := []
  pendingCalls : List PendingCall := []
  latestUsage : Option PendingUsage := none
  subagents : List CodexSubagent := []
  emitted : Bool := false

/-- The counters of a kind of unknown type, in the order in which the types were met. -/
abbrev CountMap : Type := List (JsString × ℕ)

structure CodexDiagnostics where
  records : ℕ := 0
  invalidEnvelopes : ℕ := 0
  unknownRootTypes : CountMap := []
  unknownEventTypes : CountMap := []
  unknownResponseTypes : CountMap := []
  repeatedSessionMeta : ℕ := 0
  orphanTurnRecords : ℕ := 0
  deriving DecidableEq, Repr

structure CodexNormalizer where
  turns : List TurnBuilder := []
  diagnostics : CodexDiagnostics := {}
  session : Option CanonicalSession := none
  currentTurnId : Option JsString := none
  nextSequence : ℕ := 1

/-- `CodexNormalizerStateV1` -/
structure CodexNormalizerState where
  session : Option CanonicalSession
  currentTurnId : Option JsString
  nextSequence : ℕ
  turns : List TurnBuilder
  diagnostics : CodexDiagnostics

structure CodexNormalizationBatch where
  turns : List Json := []
  evidence : List Json := []

/-- What the normalizer runs in: its directory, and the times of seconds that are no integers. -/
structure CodexProcess where
  directory : List JsString
  fractionalSeconds : JsString → Option JsString := fun _ => none

def increment (values : CountMap) (key : JsString) : CountMap :=
  match values with
  | [] => [(key, 1)]
  | (k, n) :: rest => if k = key then (k, n + 1) :: rest else (k, n) :: increment rest key

def knownRootTypes : List JsString :=
  ["session_meta", "response_item", "inter_agent_communication", "inter_agent_communication_metadata", "compacted",
    "turn_context", "world_state", "event_msg", "security_risk_score"].map js

def knownEventTypes : List JsString :=
  ["agent_message", "agent_reasoning", "context_compacted", "image_generation_end", "item_completed", "mcp_tool_call_end",
    "patch_apply_end", "sub_agent_activity", "task_complete", "task_started", "thread_goal_updated", "thread_rolled_back",
    "thread_settings_applied", "token_count", "turn_aborted", "turn_complete", "turn_started", "user_message",
    "web_search_end"].map js

def knownResponseTypes : List JsString :=
  ["agent_message", "custom_tool_call", "custom_tool_call_output", "function_call", "function_call_output", "message",
    "reasoning", "tool_search_call", "tool_search_output", "web_search_call"].map js

def sessionScopedEventTypes : List JsString :=
  ["thread_goal_updated", "thread_rolled_back", "thread_settings_applied"].map js

/-- A type that is not known is counted. -/
def noteType (known : List JsString) (type : JsString) (values : CountMap) : CountMap :=
  if type ∈ known then values else increment values type

/-! ## Sessions and messages -/

section
variable (E : Host)

def timestampFromUnixSeconds (process : CodexProcess) : Option Json → Option JsString
  | some (.num (.int seconds)) => E.isoString (seconds * 1000)
  | some (.num (.other text)) => process.fractionalSeconds text
  | _ => none

def acceptSessionMeta (payload : Json) (n : CodexNormalizer) : CodexNormalizer :=
  if !isObject (some payload) then n
  else if n.session.isSome then
    { n with diagnostics := { n.diagnostics with repeatedSessionMeta := n.diagnostics.repeatedSessionMeta + 1 } }
  else
    match ((textAt? "session_id" payload).or (textAt? "id" payload)).filter (· ≠ []) with
    | none => n
    | some nativeSessionId =>
      let nativeThreadId := (textAt? "id" payload).getD nativeSessionId
      let threadSource := textAt? "thread_source" payload
      { n with session := some {
          nativeSessionId, nativeThreadId
          barbaroSessionId := createSessionId E.toHasher (js "codex") nativeSessionId
          actorId :=
            if threadSource = some (js "subagent") then (textAt? "agent_path" payload).getD nativeThreadId else js "main"
          workspaceRoot := namedField "cwd" payload
          producerVersion := namedField "cli_version" payload
          historyMode := (textAt? "history_mode" payload).getD (js "legacy")
          threadSource := threadSource.filter (· ≠ []) } }

def considerResponse (message : JsString) (phase nativeId : Option JsString) (b : TurnBuilder) : TurnBuilder :=
  let incomingFinal := phase = some (js "final_answer")
  let existingFinal := b.responsePhase = some (js "final_answer")
  let nativeId := nativeId.filter (· ≠ [])
  -- a projection without an id never replaces a canonical final response
  if existingFinal ∧ nativeId = none then b
  else if ¬ incomingFinal ∧ existingFinal then b
  else { b with response := some message, responsePhase := phase, responseNativeId := nativeId.or b.responseNativeId }

/-! ## Calls -/

def rememberCall (rootType : CallType) (payload : Json) (source : CodexSourceLocation) (b : TurnBuilder) : TurnBuilder :=
  match ((textAt? "call_id" payload).or (textAt? "id" payload)).filter (· ≠ []), namedField "name" payload with
  | some callId, some name =>
    { b with pendingCalls := setBy PendingCall.callId {
        callId, rootType, name, source
        nativeId := namedField "id" payload
        nameSpace := namedField "namespace" payload
        input := namedField "input" payload
        argumentsJson := namedField "arguments" payload } b.pendingCalls }
  | _, _ => b

def callSourceIdentity (call : PendingCall) : JsString :=
  match call.nativeId with
  | some nativeId => js "response_item:id:" ++ nativeId
  | none => js "call_id:" ++ call.callId

/-- The commands of a call, in their order. -/
def callCommands (call : PendingCall) : List ExtractedCommand :=
  match call.input, (call.input.bind (commandOf E)).filter (· ≠ []) with
  | _, some command => [⟨command, 0⟩]
  | some input, none => (extractExecCommands E input).getD []
  | none, none =>
    if isShellName call.name then
      ((call.argumentsJson.bind (commandOf E)).filter (· ≠ [])).toList.map (⟨·, 0⟩)
    else []

/-- The records that a call and its output stand in. -/
def callRefs (call : PendingCall) (output : Option (Json × CodexSourceLocation)) : Json :=
  .arr (sourceRef call.source (compactIds [call.nativeId, some call.callId]) ::
    output.toList.map fun o => sourceRef o.2 (compactIds [textAt? "id" o.1, some call.callId]))

def exitOutcome : Option ℤ → ActionOutcome
  | none => .unknown
  | some 0 => .success
  | some _ => .failed

/-- A command that has run, or a test. -/
def commandAction (actionId command : JsString) (outcome : ActionOutcome) (exitCode : Option ℤ)
    (failure : Option JsString) (refs : Json) : Json :=
  .obj ([(js "action_id", .str actionId), (js "outcome", .str outcome.text), (js "command", verbatimContent command)] ++
    optionalField "exit_code" (exitCode.map fun n => .num (.int n)) ++
    optionalField "failure_excerpt" (if outcome = .failed then
      (failure.filter (· ≠ [])).map (redactedExcerptContent · 4096) else none) ++
    [(js "source_refs", refs), (js "kind", .str (js (if isTestCommand command then "test" else "command")))])

def toolAction (actionId toolName : JsString) (outcome : ActionOutcome) (summary : Option Json) (refs : Json) : Json :=
  .obj ([(js "action_id", .str actionId), (js "kind", .str (js "tool")), (js "outcome", .str outcome.text),
    (js "tool_name", .str toolName)] ++ optionalField "summary" summary ++ [(js "source_refs", refs)])

/-- The command of a barbaro session is no work of its agent. -/
def isOwnCommand (command : JsString) : Bool :=
  isGeneratedBarbaroReadCommand command || isDigestExcludedBarbaroCommand command

/-- The work of a call shows otherwise, or is none. -/
def isSilentCall (call : PendingCall) : Bool :=
  0 < call.projectedItems || call.nameSpace == some (js "collaboration") ||
    isGeneratedBarbaroReadTool call.name (call.argumentsJson.or call.input) ||
    (call.rootType == .customToolCall && call.name == js "exec" && call.input.any callsNamedTool)

/-- The actions of a call, with its output if there is one. -/
def callActions (turnId : JsString) (call : PendingCall) (output : Option (Json × CodexSourceLocation)) : List Json :=
  let commands := callCommands E call
  let inspected := inspectToolOutput E (output.bind fun o => o.1.get (js "output"))
  let refs := callRefs call output
  if commands.isEmpty then
    if isSilentCall call then []
    else [toolAction (actionIdOf E turnId (callSourceIdentity call) 0)
      (match call.nameSpace with
        | some space => space ++ js "." ++ call.name
        | none => call.name)
      (explicitToolOutcome (output.map Prod.fst)) none refs]
  else
    (commands.filter fun c => !isOwnCommand c.command).map fun c =>
      commandAction (actionIdOf E turnId (callSourceIdentity call) c.occurrence) c.command (exitOutcome inspected.exitCode)
        inspected.exitCode inspected.text refs

def materializeCall (call : PendingCall) (output : Option (Json × CodexSourceLocation)) (b : TurnBuilder) : TurnBuilder :=
  { b with actions := b.actions ++ callActions E b.barbaroTurnId call output }

def completeCall (outputType : CallType) (payload : Json) (source : CodexSourceLocation) (b : TurnBuilder) : TurnBuilder :=
  match (namedField "call_id" payload).bind fun callId => getBy PendingCall.callId callId b.pendingCalls with
  | none => b
  | some call =>
    if call.rootType ≠ outputType then b
    else materializeCall E call (some (payload, source))
      { b with pendingCalls := b.pendingCalls.filter (·.callId ≠ call.callId) }

/-! ## Projected items -/

def isExecCall (call : PendingCall) : Bool := call.rootType == .customToolCall && call.name == js "exec"

/-- The last of the exec calls that are open has one item more. -/
def markExecProjected : List PendingCall → List PendingCall
  | [] => []
  | call :: calls =>
    if calls.any isExecCall then call :: markExecProjected calls
    else if isExecCall call then { call with projectedItems := call.projectedItems + 1 } :: calls
    else call :: calls

def TurnBuilder.markExec (b : TurnBuilder) : TurnBuilder := { b with pendingCalls := markExecProjected b.pendingCalls }

def acceptCommandExecutionItem (eventPayload item : Json) (source : CodexSourceLocation) (b : TurnBuilder) : TurnBuilder :=
  let b := b.markExec
  match renderCommandArray (item.get (js "command")) with
  | none => b
  | some command =>
    if isOwnCommand command then b
    else
      let itemId := textAt? "id" item
      let exitCode := integerAt "exit_code" item
      let outcome := if textAt? "status" item = some (js "completed") then exitOutcome exitCode
        else if textAt? "status" item = some (js "failed") then .failed
        else .unknown
      let failure := (textAt? "aggregated_output" item).getD (joinNamed "\n" [textAt? "stderr" item, textAt? "stdout" item])
      { b with actions := b.actions ++ [commandAction (actionIdOf E b.barbaroTurnId (sourceIdentity source itemId) 0) command
          outcome exitCode (some failure)
          (.arr [sourceRef source (compactIds [itemId, textAt? "turn_id" eventPayload])])] }

/-- The operation of a change, and the path it leads to. -/
def changeOperation (moved : Bool) (type : JsString) : String :=
  if moved then "move"
  else if type = js "add" then "create"
  else if type = js "delete" then "delete"
  else if type = js "update" ∨ type = js "modify" then "modify"
  else if type = js "move" then "move"
  else "unknown"

/-- A path of the workspace that a patch may tell of. -/
def toldPath (root : Option (List JsString)) (path : JsString) : Option JsString :=
  (root.bind fun root => normalizeRepoPath root path).filter fun path => path ≠ [] && !isGeneratedBarbaroPath path

/-- The action of one change of a patch, but for its id. -/
def changeAction (root : Option (List JsString)) (success : Bool) (refs : Json) (rawPath : JsString) (change : Json) :
    Option (JsString → Json) := do
  let originalPath ← toldPath root rawPath
  let movePath := namedField "move_path" change
  let moved := movePath.bind (toldPath root)
  if movePath.isSome && moved.isNone then none
  else
    let operation := changeOperation moved.isSome ((textAt? "type" change).getD (js "unknown"))
    let counts := countUnifiedDiff (textAt? "unified_diff" change)
    let added := if 0 < counts.1 then some counts.1
      else if operation = "create" then (namedField "content" change).map countLines
      else none
    return fun actionId => .obj ([(js "action_id", .str actionId), (js "kind", .str (js "file_change")),
      (js "outcome", .str (js (if success then "success" else "failed"))), (js "operation", .str (js operation)),
      (js "path", .str (moved.getD originalPath))] ++
      optionalField "previous_path" (if operation = "move" then some (.str originalPath) else none) ++
      optionalField "added_lines" (added.map natJson) ++
      optionalField "removed_lines" (if 0 < counts.2 then some (natJson counts.2) else none) ++ [(js "source_refs", refs)])

/-- `Object.entries` of an object -/
def entriesOf : Option Json → List (JsString × Json)
  | some (.obj fields) => fields
  | _ => []

def acceptPatchApply (root : Option (List JsString)) (payload : Json) (source : CodexSourceLocation) (b : TurnBuilder) :
    TurnBuilder :=
  let success := Active.isTrue (payload.get (js "success"))
  let refs := Json.arr [sourceRef source (nativeIds payload)]
  let actionId := actionIdOf E b.barbaroTurnId (sourceIdentity source (textAt? "call_id" payload))
  let told := (entriesOf (payload.get (js "changes"))).filterMap fun entry => changeAction root success refs entry.1 entry.2
  let changes := told.mapIdx fun occurrence change => change (actionId occurrence)
  let error := joinNamed "\n" [textAt? "stderr" payload, textAt? "stdout" payload]
  let failure := if !success && told.isEmpty then
      [toolAction (actionId 0) (js "apply_patch") .failed
        (if error.isEmpty then none else some (redactedExcerptContent error 4096)) refs]
    else []
  { b with actions := b.actions ++ changes ++ failure }

def acceptFileChangeItem (root : Option (List JsString)) (eventPayload item : Json) (source : CodexSourceLocation)
    (b : TurnBuilder) : TurnBuilder :=
  let patch := Json.obj ([(js "success", .bool (textAt? "status" item == some (js "completed")))] ++
    optionalField "changes" (item.get (js "changes")) ++
    optionalField "call_id" ((namedField "id" item).map .str) ++
    optionalField "turn_id" ((namedField "turn_id" eventPayload).map .str) ++
    optionalField "stderr" (item.get (js "stderr")) ++ optionalField "stdout" (item.get (js "stdout")))
  acceptPatchApply E root patch source b.markExec

/-! ## Tools and subagents -/

def acceptNamedTool (toolName : JsString) (payload : Json) (source : CodexSourceLocation) (outcome : ActionOutcome)
    (summary : Option Json) (b : TurnBuilder) : TurnBuilder :=
  { b with actions := b.actions ++ [toolAction
      (actionIdOf E b.barbaroTurnId (sourceIdentity source (textAt? "call_id" payload)) 0) toolName outcome summary
      (.arr [sourceRef source (nativeIds payload)])] }

def acceptMcpTool (payload : Json) (source : CodexSourceLocation) (b : TurnBuilder) : TurnBuilder :=
  let invocation := ((payload.get (js "invocation")).filter fun v => isObject (some v)).getD (.obj [])
  let server := (textAt? "server" invocation).or ((textAt? "server" payload).or (textAt? "server_name" payload))
  let tool := (textAt? "tool" invocation).or ((textAt? "tool" payload).or (textAt? "tool_name" payload))
  let name := joinNamed "." [server, tool]
  let result := mcpToolOutcome (payload.get (js "result"))
  acceptNamedTool E (if name.isEmpty then js "mcp" else name) payload source result.1
    (result.2.map (redactedExcerptContent · 4096)) b

/-- The last component of a path that is not empty. -/
def lastComponent (path : JsString) : Option JsString := ((path.splitOn 47).filter (· ≠ [])).getLast?

/-- What an activity makes of the outcome of a subagent. -/
def activityOutcome (kind : JsString) (outcome : TurnOutcome) : TurnOutcome :=
  if ["complete", "closed", "finished"].any fun word => hasIgnoringCase word kind then .success
  else if ["fail", "error"].any fun word => hasIgnoringCase word kind then .failed
  else outcome

/-- An activity of a subagent that is known. -/
def CodexSubagent.active (kind occurredAt : JsString) (s : CodexSubagent) : CodexSubagent :=
  { s with
    lastActivity := some kind
    activityCount := s.activityCount + 1
    occurredAt := some occurredAt
    outcome := activityOutcome kind s.outcome }

def acceptSubagentActivity (payload : Json) (source : CodexSourceLocation) (occurredAt : JsString) (b : TurnBuilder) :
    TurnBuilder :=
  match namedField "agent_thread_id" payload with
  | none => b
  | some agentId =>
    let role := ((textAt? "agent_path" payload).bind lastComponent).getD (js "subagent")
    let kind := (textAt? "kind" payload).getD (js "unknown")
    match getBy CodexSubagent.agentId agentId b.subagents with
    | some s => { b with subagents := putBy CodexSubagent.agentId (s.active kind occurredAt) b.subagents }
    | none =>
      let evidenceId := evidenceIdOf E b.barbaroTurnId
        (sourceIdentity source (some ((textAt? "event_id" payload).getD agentId)))
      { b with
        subagents := b.subagents ++
          [CodexSubagent.active kind occurredAt { agentId, role, evidenceIds := [evidenceId], source := some source }]
        evidenceIds := b.evidenceIds ++ [evidenceId] }

/-! ## Evidence and turns -/

def evidenceJson (evidenceId : JsString) (b : TurnBuilder) (sessionId agentId : JsString) (parent : List (JsString × Json))
    (kind : String) (occurredAt : JsString) (content refs : Json) : Json :=
  .obj ([(js "schema", .str (js "barbaro.evidence.v1")), (js "evidence_id", .str evidenceId),
    (js "turn_id", .str b.barbaroTurnId), (js "provider", .str (js "codex")), (js "session_id", .str sessionId),
    (js "agent_id", .str agentId)] ++ parent ++
    [(js "kind", .str (js kind)), (js "occurred_at", .str occurredAt), (js "content", content), (js "source_refs", refs)])

def usageId (b : TurnBuilder) (usage : PendingUsage) : JsString :=
  evidenceIdOf E b.barbaroTurnId (sourceIdentity usage.source none)

def usageEvidence (b : TurnBuilder) (sessionId : JsString) (usage : PendingUsage) : Json :=
  evidenceJson (usageId E b usage) b sessionId b.agentId [] "usage" usage.occurredAt
    (.obj (["info", "rate_limits", "model_context_window"].flatMap fun key =>
      optionalField key (usage.payload.get (js key))))
    (.arr [sourceRef usage.source []])

/-- The lifecycle of a subagent, as its parent has seen it. -/
def subagentEvidence (b : TurnBuilder) (sessionId : JsString) (s : CodexSubagent) : Option Json := do
  let evidenceId ← s.evidenceIds.head?.filter (· ≠ [])
  let source ← s.source
  let occurredAt ← s.occurredAt.filter (· ≠ [])
  return evidenceJson evidenceId b sessionId s.agentId
    [(js "parent_turn_id", .str b.barbaroTurnId),
      (js "parent_link", .obj [(js "method", .str (js "native")), (js "native_key", .str s.agentId)])]
    "provider_event" occurredAt
    (.obj [(js "event", .str (js "subagent_activity_rollup")), (js "role", .str s.role),
      (js "activity", .str (s.lastActivity.getD (js "unknown"))), (js "activity_count", natJson s.activityCount),
      (js "outcome", .str s.outcome.text)])
    (.arr [sourceRef source [s.agentId]])

/-- The evidence that a turn has deferred, and its builder without it. -/
def flushDeferredEvidence (sessionId : JsString) (b : TurnBuilder) : List Json × TurnBuilder :=
  (b.latestUsage.toList.map (usageEvidence E b sessionId) ++ b.subagents.filterMap (subagentEvidence b sessionId),
    { b with
      evidenceIds := b.evidenceIds ++ b.latestUsage.toList.map (usageId E b)
      latestUsage := none })

/-- `[...new Set(values)].sort()` -/
def uniqueSorted (values : List JsString) : List JsString :=
  (uniqueInOrder values).mergeSort fun a b => compareUtf16CodeUnits a b != .gt

def buildSubagentRollup (subagents : List CodexSubagent) : Json :=
  let roles := (subagents.foldl (fun counts s => increment counts s.role) []).mergeSort fun a b =>
    compareUtf16CodeUnits a.1 b.1 != .gt
  let outcomes := subagents.foldl (fun counts s => increment counts s.outcome.text) []
  .obj [(js "total", natJson subagents.length),
    (js "by_role", .arr (roles.map fun role => .obj [(js "role", .str role.1), (js "count", natJson role.2)])),
    (js "outcomes", .obj (outcomes.map fun outcome => (outcome.1, natJson outcome.2))),
    (js "changed_paths", .arr []),
    (js "evidence_refs", textsJson (uniqueSorted (subagents.flatMap (·.evidenceIds))))]

/-- The line of the first record of an action. -/
def actionSourceOrder (action : Json) : ℤ :=
  match action.get (js "source_refs") with
  | some (.arr (ref :: _)) => (integerAt "line_start" ref).getD maxSafeInteger
  | _ => maxSafeInteger

structure TurnTerminal where
  event : JsString
  error : Bool := false
  abortReason : JsString := []

/-- The record of a turn that has ended, of its builder with all calls done. -/
def turnJson (session : CanonicalSession) (endedAt : JsString) (terminalSource : CodexSourceLocation)
    (outcome : TurnOutcome) (terminal : TurnTerminal) (b : TurnBuilder) : Json :=
  let child := session.threadSource = some (js "subagent")
  .obj ([(js "schema", .str (js "barbaro.turn.v1")), (js "turn_id", .str b.barbaroTurnId),
    (js "provider", .str (js "codex")), (js "session_id", .str session.barbaroSessionId),
    (js "sequence", natJson b.sequence), (js "agent_id", .str b.agentId), (js "started_at", .str b.startedAt),
    (js "ended_at", .str endedAt), (js "outcome", .str outcome.text),
    (js "request", verbatimContent (b.request.getD []))] ++
    optionalField "response" (b.response.map verbatimContent) ++
    [(js "actions", .arr (b.actions.mergeSort fun x y => decide (actionSourceOrder x ≤ actionSourceOrder y))),
      (js "subagents", buildSubagentRollup b.subagents),
      (js "evidence_refs", textsJson (uniqueSorted b.evidenceIds)),
      (js "source_refs", .arr [.obj ([(js "trace_id", .str b.startSource.traceId)] ++
        optionalField "trace_path" ((b.startSource.tracePath.filter (· ≠ [])).map .str) ++
        [(js "line_start", natJson b.startSource.lineNumber), (js "line_end", natJson terminalSource.lineNumber),
          (js "native_record_ids", textsJson
            (compactIds [some b.nativeTurnId, b.requestNativeId, b.responseNativeId]))])]),
      (js "extensions", .obj [(js "codex", .obj ([(js "native_turn_id", .str b.nativeTurnId)] ++
        optionalField "producer_cli_version" (session.producerVersion.map .str) ++
        [(js "history_mode", .str session.historyMode), (js "terminal_event", .str terminal.event)] ++
        (if terminal.error then [(js "terminal_error", .bool true)] else []) ++
        optionalField "abort_reason" ((some terminal.abortReason |>.filter (· ≠ [])).map .str) ++
        optionalField "thread_source" (session.threadSource.map .str) ++
        (if child then [(js "native_thread_id", .str session.nativeThreadId), (js "agent_path", .str session.actorId)]
          else [])))])])

/-- All calls of a turn that has ended are done, with no output for those that are open. -/
def settleCalls (b : TurnBuilder) : TurnBuilder :=
  { b.pendingCalls.foldl (fun b call => materializeCall E call none b) b with pendingCalls := [], emitted := true }

def abortedOutcome (reason : JsString) (b : TurnBuilder) : TurnOutcome :=
  if reason = js "budget_limited" then
    if (b.response.filter (· ≠ [])).isSome || b.actions.any fun action => equalsText (js "success") (action.get (js "outcome"))
    then .incomplete else .cancelled
  else if reason ∈ [js "interrupted", js "replaced", js "review_ended"] then .cancelled
  else if ["user", "cancel", "interrupt"].any fun word => hasIgnoringCase word reason then .cancelled
  else .unknown

/-! ## The state -/

/-- `turns.get(nativeTurnId)` -/
def CodexNormalizer.get (n : CodexNormalizer) (nativeTurnId : JsString) : Option TurnBuilder :=
  getBy TurnBuilder.nativeTurnId nativeTurnId n.turns

/-- The builder of the turn takes the place of the one there. -/
def CodexNormalizer.put (n : CodexNormalizer) (b : TurnBuilder) : CodexNormalizer :=
  { n with turns := putBy TurnBuilder.nativeTurnId b n.turns }

def CodexNormalizer.orphan (n : CodexNormalizer) : CodexNormalizer :=
  { n with diagnostics := { n.diagnostics with orphanTurnRecords := n.diagnostics.orphanTurnRecords + 1 } }

/-- The turn a record names, or the current one. -/
def builderForPayload (payload : Json) (n : CodexNormalizer) : Option TurnBuilder :=
  let nested := ((payload.get (js "internal_chat_message_metadata_passthrough")).filter fun v => isObject (some v)).bind
    (namedField "turn_id")
  match (namedField "turn_id" payload).or nested with
  | some nativeTurnId => n.get nativeTurnId
  | none => n.currentTurnId.bind n.get

def startTurn (session : CanonicalSession) (nativeTurnId startedAt : JsString) (source : CodexSourceLocation)
    (n : CodexNormalizer) : CodexNormalizer :=
  if (n.get nativeTurnId).isSome then { n with currentTurnId := some nativeTurnId }
  else { n with
    turns := n.turns ++ [{
      nativeTurnId, startedAt
      barbaroTurnId := createTurnId E.toHasher (js "codex") session.nativeSessionId session.actorId nativeTurnId
      sequence := n.nextSequence
      agentId := session.actorId
      startSource := source }]
    nextSequence := n.nextSequence + 1
    currentTurnId := some nativeTurnId }

/-- The terminal record of a turn: its evidence, and the turn. -/
def finishTurn (session : CanonicalSession) (endedAt : JsString) (source : CodexSourceLocation) (outcome : TurnOutcome)
    (terminal : TurnTerminal) (b : TurnBuilder) (n : CodexNormalizer) : CodexNormalizer × CodexNormalizationBatch :=
  let flushed := flushDeferredEvidence E session.barbaroSessionId b
  let settled := settleCalls E flushed.2
  ({ n.put settled with
      currentTurnId := if n.currentTurnId = some b.nativeTurnId then none else n.currentTurnId },
    { turns := [turnJson session endedAt source outcome terminal settled], evidence := flushed.1 })

/-- What an event makes of the builder it belongs to, unless it ends the turn. -/
def eventBuilder (root : Option (List JsString)) (eventType : JsString) (payload : Json) (timestamp : JsString)
    (source : CodexSourceLocation) (b : TurnBuilder) : TurnBuilder :=
  if eventType = js "user_message" then
    match namedField "message" payload with
    | some message => if b.request.isNone then { b with request := some message } else b
    | none => b
  else if eventType = js "agent_message" then
    match namedField "message" payload with
    | some message => considerResponse message (textAt? "phase" payload) none b
    | none => b
  else if eventType = js "item_completed" then
    match (payload.get (js "item")).filter fun v => isObject (some v) with
    | none => b
    | some item =>
      if textAt? "type" item = some (js "CommandExecution") then acceptCommandExecutionItem E payload item source b
      else if textAt? "type" item = some (js "FileChange") then acceptFileChangeItem E root payload item source b
      else b
  else if eventType = js "patch_apply_end" then acceptPatchApply E root payload source b
  else if eventType = js "web_search_end" then
    acceptNamedTool E (js "web_search") payload source .success ((namedField "query" payload).map verbatimContent) b
  else if eventType = js "mcp_tool_call_end" then acceptMcpTool E payload source b
  else if eventType = js "image_generation_end" then
    acceptNamedTool E (js "image_generation") payload source (imageGenerationOutcome payload) none b
  else if eventType = js "sub_agent_activity" then acceptSubagentActivity E payload source timestamp b
  else if eventType = js "token_count" then
    { b with latestUsage := some { payload, source, occurredAt := timestamp } }
  else b

/-- The builder of a turn that is complete: the last message is its response if it has none that is final. -/
def completedBuilder (payload : Json) (b : TurnBuilder) : TurnBuilder :=
  match namedField "last_agent_message" payload with
  | some message =>
    if b.responsePhase = some (js "final_answer") then b
    else { b with response := some message, responsePhase := some (js "final_answer"), responseNativeId := none }
  | none => b

/-- What an event of a turn changes. -/
def acceptTurnEvent (process : CodexProcess) (eventType : JsString) (payload : Json) (timestamp : JsString)
    (source : CodexSourceLocation) (session : CanonicalSession) (b : TurnBuilder) (n : CodexNormalizer) :
    CodexNormalizer × CodexNormalizationBatch :=
  let endedAt := (timestampFromUnixSeconds E process (payload.get (js "completed_at"))).getD timestamp
  if eventType = js "task_complete" ∨ eventType = js "turn_complete" then
    if b.emitted then (n, {})
    else
      let error := isPresent (payload.get (js "error"))
      finishTurn E session endedAt source (if error then .failed else .success) { event := eventType, error }
        (completedBuilder payload b) n
  else if eventType = js "turn_aborted" then
    if b.emitted then (n, {})
    else
      let reason := ((textAt? "reason" payload).or (textAt? "message" payload)).getD []
      finishTurn E session endedAt source (abortedOutcome reason b) { event := eventType, abortReason := reason } b n
  else
    let root := session.workspaceRoot.map (resolvePath process.directory)
    (n.put (eventBuilder E root eventType payload timestamp source b), {})

/-- What an event of a type changes, which starts a turn, is one of the session, or belongs to a turn. -/
def acceptTypedEvent (process : CodexProcess) (eventType : JsString) (payload : Json) (timestamp : JsString)
    (source : CodexSourceLocation) (n : CodexNormalizer) : CodexNormalizer × CodexNormalizationBatch :=
  if eventType = js "task_started" ∨ eventType = js "turn_started" then
    match namedField "turn_id" payload, n.session with
    | some nativeTurnId, some session =>
      (startTurn E session nativeTurnId
        ((timestampFromUnixSeconds E process (payload.get (js "started_at"))).getD timestamp) source n, {})
    | _, _ => (n.orphan, {})
  else if eventType ∈ sessionScopedEventTypes then (n, {})
  else
    match builderForPayload payload n, n.session with
    | some b, some session => acceptTurnEvent E process eventType payload timestamp source session b n
    | _, _ => (n.orphan, {})

def acceptEvent (process : CodexProcess) (payload : Json) (timestamp : JsString) (source : CodexSourceLocation)
    (n : CodexNormalizer) : CodexNormalizer × CodexNormalizationBatch :=
  match if isObject (some payload) then namedField "type" payload else none with
  | none => (n, {})
  | some eventType =>
    acceptTypedEvent E process eventType payload timestamp source { n with diagnostics := { n.diagnostics with
      unknownEventTypes := noteType knownEventTypes eventType n.diagnostics.unknownEventTypes } }

/-- What a message or a call makes of the builder it belongs to. -/
def responseBuilder (responseType : JsString) (payload : Json) (source : CodexSourceLocation) (b : TurnBuilder) :
    TurnBuilder :=
  if responseType = js "message" then
    match extractCodexMessageText (payload.get (js "content")) with
    | none => b
    | some text =>
      let role := textAt? "role" payload
      let nativeId := namedField "id" payload
      if role = some (js "user") then
        if b.request.isNone then { b with request := some text, requestNativeId := nativeId.or b.requestNativeId } else b
      else if role = some (js "assistant") then considerResponse text (textAt? "phase" payload) nativeId b
      else b
  else if responseType = js "function_call" then rememberCall .functionCall payload source b
  else if responseType = js "custom_tool_call" then rememberCall .customToolCall payload source b
  else if responseType = js "function_call_output" then completeCall E .functionCall payload source b
  else if responseType = js "custom_tool_call_output" then completeCall E .customToolCall payload source b
  else b

def acceptTypedItem (responseType : JsString) (payload : Json) (source : CodexSourceLocation) (n : CodexNormalizer) :
    CodexNormalizer :=
  match builderForPayload payload n with
  | none => n.orphan
  | some b => n.put (responseBuilder E responseType payload source b)

def acceptResponseItem (payload : Json) (source : CodexSourceLocation) (n : CodexNormalizer) : CodexNormalizer :=
  match if isObject (some payload) then namedField "type" payload else none with
  | none => n
  | some responseType =>
    acceptTypedItem E responseType payload source { n with diagnostics := { n.diagnostics with
      unknownResponseTypes := noteType knownResponseTypes responseType n.diagnostics.unknownResponseTypes } }

/-- What a record changes, and what it publishes, when its place is a valid one. -/
def acceptRecord (process : CodexProcess) (value : Json) (source : CodexSourceLocation) (n : CodexNormalizer) :
    CodexNormalizer × CodexNormalizationBatch :=
  let n := { n with diagnostics := { n.diagnostics with records := n.diagnostics.records + 1 } }
  match decodeCodexEnvelope E value with
  | .error _ =>
    ({ n with diagnostics := { n.diagnostics with invalidEnvelopes := n.diagnostics.invalidEnvelopes + 1 } }, {})
  | .ok envelope =>
    let n := { n with diagnostics := { n.diagnostics with
      unknownRootTypes := noteType knownRootTypes envelope.type n.diagnostics.unknownRootTypes } }
    if envelope.type = js "session_meta" then (acceptSessionMeta E envelope.payload n, {})
    else if envelope.type = js "event_msg" then acceptEvent E process envelope.payload envelope.timestamp source n
    else if envelope.type = js "response_item" then (acceptResponseItem E envelope.payload source n, {})
    else (n, {})

def accept (process : CodexProcess) (value : Json) (source : CodexSourceLocation) (n : CodexNormalizer) :
    Except Failure (CodexNormalizer × CodexNormalizationBatch) := do
  assertSource source
  return acceptRecord E process value source n

/-! ## Snapshots -/

def mapToSortedRecord (values : CountMap) : CountMap := values.mergeSort fun a b => compareUtf16CodeUnits a.1 b.1 != .gt

def CodexDiagnostics.sorted (d : CodexDiagnostics) : CodexDiagnostics :=
  { d with
    unknownRootTypes := mapToSortedRecord d.unknownRootTypes
    unknownEventTypes := mapToSortedRecord d.unknownEventTypes
    unknownResponseTypes := mapToSortedRecord d.unknownResponseTypes }

def snapshot (n : CodexNormalizer) : CodexNormalizerState where
  session := n.session
  currentTurnId := n.currentTurnId.filter (· ≠ [])
  nextSequence := n.nextSequence
  turns := (n.turns.filter (!·.emitted)).mergeSort fun a b => decide (a.sequence ≤ b.sequence)
  diagnostics := n.diagnostics.sorted

def isSafe (n : ℕ) : Bool := (n : ℤ) ≤ maxSafeInteger

/-- The counters of a map that is restored. -/
def restoreCountMap (values : CountMap) : Except Failure CountMap :=
  if values.all fun entry => entry.1 ≠ [] && 0 < entry.2 && isSafe entry.2 then .ok values
  else .error (.typeError "Codex normalizer diagnostic count map is invalid")

def restoreDiagnostics (d : CodexDiagnostics) : Except Failure CodexDiagnostics := do
  match [("records", d.records), ("invalid_envelopes", d.invalidEnvelopes),
      ("repeated_session_meta", d.repeatedSessionMeta), ("orphan_turn_records", d.orphanTurnRecords)].find?
      (!isSafe ·.2) with
  | some (name, _) => .error (.typeError s!"Codex normalizer diagnostic {name} is invalid")
  | none =>
    let unknownRootTypes ← restoreCountMap d.unknownRootTypes
    let unknownEventTypes ← restoreCountMap d.unknownEventTypes
    let unknownResponseTypes ← restoreCountMap d.unknownResponseTypes
    return { d with unknownRootTypes, unknownEventTypes, unknownResponseTypes }

def restoreSession : Option CanonicalSession → Except Failure (Option CanonicalSession)
  | none => .ok none
  | some session =>
    if session.nativeSessionId = [] ∨ session.actorId = [] then
      .error (.typeError "Codex normalizer session identity is invalid")
    else if session.barbaroSessionId ≠ createSessionId E.toHasher (js "codex") session.nativeSessionId then
      .error (.typeError "Codex normalizer session ID does not match its native identity")
    else .ok (some session)

def restoreTurn (session : Option CanonicalSession) (b : TurnBuilder) : Except Failure TurnBuilder :=
  if b.sequence < 1 || !isSafe b.sequence then .error (.typeError "Codex normalizer turn sequence is invalid")
  else
    match session with
    | none => .error (.typeError "Codex normalizer state has turns without a session")
    | some session =>
      if b.agentId ≠ session.actorId then .error (.typeError "Codex normalizer turn actor does not match its session")
      else if b.barbaroTurnId ≠ createTurnId E.toHasher (js "codex") session.nativeSessionId b.agentId b.nativeTurnId then
        .error (.typeError "Codex normalizer turn ID does not match its native identity")
      else .ok { b with
        pendingCalls := mapBy PendingCall.callId b.pendingCalls
        subagents := mapBy CodexSubagent.agentId b.subagents
        emitted := false }

/-- The current turn of a state that is restored is one of its turns. -/
def restoreCurrent (n : CodexNormalizer) : Except Failure CodexNormalizer :=
  if n.currentTurnId.any fun current => (n.get current).isNone then
    .error (.typeError "Codex normalizer current turn is missing from state")
  else .ok n

def restore (state : CodexNormalizerState) : Except Failure CodexNormalizer := do
  if state.nextSequence < 1 || !isSafe state.nextSequence then
    .error (.typeError "Codex normalizer next_sequence is invalid")
  else
    let session ← restoreSession E state.session
    let diagnostics ← restoreDiagnostics state.diagnostics
    let turns ← state.turns.mapM (restoreTurn E session)
    restoreCurrent {
      turns := mapBy TurnBuilder.nativeTurnId turns
      diagnostics, session
      currentTurnId := state.currentTurnId
      nextSequence := state.nextSequence }

end

end Barbaro.Codex
