import Barbaro.Core.Patterns

/-!
# Claude records

Only the stable outer envelope of a record is decoded. Unknown record types and unknown
fields are preserved rather than rejected.

* `decodeClaudeEnvelope`, `decodeClaudeMessage`: what is read of a record.
* `classifyUserRecord`: where a user record comes from.
-/

namespace Barbaro.Claude

/-- The string at a key, if it is there and not empty. -/
def stringField (key : String) (v : Json) : Option JsString := (textAt? key v).filter (· ≠ [])

def booleanField (key : String) (v : Json) : Option Bool :=
  match v.get (js key) with
  | some (.bool b) => some b
  | _ => none

/-- The object at a key. -/
def objectField (key : String) (v : Json) : Option Json := (v.get (js key)).filter fun w => isObject (some w)

/-! ## Envelopes -/

structure ClaudeEnvelope where
  type : JsString
  uuid : Option JsString
  parentUuid : Option JsString
  /-- Set on `compact_boundary` records, where `parentUuid` is null. -/
  logicalParentUuid : Option JsString
  sessionId : Option JsString
  timestamp : Option JsString
  cwd : Option JsString
  gitBranch : Option JsString
  version : Option JsString
  isSidechain : Bool
  isMeta : Bool
  agentId : Option JsString
  requestId : Option JsString
  raw : Json

def isDigit (u : UInt16) : Bool := 48 ≤ u.toNat && u.toNat ≤ 57

/-- What follows so many digits. -/
def afterDigits : ℕ → JsString → Option JsString
  | 0, s => some s
  | _ + 1, [] => none
  | n + 1, u :: s => if isDigit u then afterDigits n s else none

def afterUnit (unit : UInt16) : JsString → Option JsString
  | [] => none
  | u :: s => if u = unit then some s else none

/-- What follows `(?:\.\d+)?`; a fraction that has no digit is none. -/
def afterFraction : JsString → JsString
  | u :: v :: s => if u = 46 ∧ isDigit v then s.dropWhile isDigit else u :: v :: s
  | s => s

/-- `Z|[+-]\d{2}:\d{2}` -/
def isZone : JsString → Bool
  | [] => false
  | u :: s =>
    (u == 90 && s == []) ||
      ((u == 43 || u == 45) && ((afterDigits 2 s).bind (afterUnit 58) |>.bind (afterDigits 2)) == some [])

/-- `/^\d{4}-\d{2}-\d{2}T\d{2}:\d{2}:\d{2}(?:\.\d+)?(?:Z|[+-]\d{2}:\d{2})$/` -/
def isIsoShape (s : JsString) : Bool :=
  ((afterDigits 4 s).bind (afterUnit 45) |>.bind (afterDigits 2) |>.bind (afterUnit 45) |>.bind (afterDigits 2)
    |>.bind (afterUnit 84) |>.bind (afterDigits 2) |>.bind (afterUnit 58) |>.bind (afterDigits 2)
    |>.bind (afterUnit 58) |>.bind (afterDigits 2)).any fun rest => isZone (afterFraction rest)

section
variable (E : Host)

def isIsoDateTime (value : JsString) : Bool := isIsoShape value && (E.dateParse value).isSome

def decodeClaudeEnvelope (value : Json) : Except String ClaudeEnvelope :=
  if !isObject (some value) then .error "claude record is not an object"
  else
    match stringField "type" value with
    | none => .error "claude record type is missing or invalid"
    | some type =>
      if (stringField "timestamp" value).any (fun t => !isIsoDateTime E t) then
        .error "claude record timestamp is invalid"
      else .ok {
        type
        uuid := stringField "uuid" value
        parentUuid := stringField "parentUuid" value
        logicalParentUuid := stringField "logicalParentUuid" value
        sessionId := (stringField "sessionId" value).or (stringField "session_id" value)
        timestamp := stringField "timestamp" value
        cwd := stringField "cwd" value
        gitBranch := stringField "gitBranch" value
        version := stringField "version" value
        isSidechain := booleanField "isSidechain" value = some true
        isMeta := booleanField "isMeta" value = some true
        agentId := stringField "agentId" value
        requestId := stringField "requestId" value
        raw := value }

end

/-! ## Messages -/

inductive ClaudeContentBlock
  | text (text : JsString)
  | thinking
  | toolUse (id name : JsString) (input : Json)
  | toolResult (toolUseId : JsString) (isError : Option Bool) (text : Option JsString)
  | other (blockType : JsString)

structure ClaudeMessage where
  id : Option JsString
  model : Option JsString
  stopReason : Option JsString
  content : List ClaudeContentBlock
  usage : Option Json
  /-- `message.content` was a bare string rather than a block array. -/
  contentWasString : Bool

/-- The text of a block of text. -/
def textBlock? (block : Json) : Option JsString :=
  if equalsText (js "text") (block.get (js "type")) then textAt? "text" block else none

def joinLines : List JsString → JsString
  | [] => []
  | [s] => s
  | s :: ss => s ++ 10 :: joinLines ss

def toolResultText (value : Option Json) : Option JsString :=
  match value with
  | some (.str s) => some s
  | some (.arr blocks) =>
    let parts := blocks.filterMap textBlock?
    if parts = [] then none else some (joinLines parts)
  | _ => none

def decodeToolUse (block : Json) : Option ClaudeContentBlock :=
  match stringField "id" block, stringField "name" block with
  | some id, some name => some (.toolUse id name ((objectField "input" block).getD (.obj [])))
  | _, _ => none

/-- One block of a message; nothing for one that is skipped. Hidden reasoning is recorded as
present but its content is never read. -/
def decodeBlock (block : Json) : Option ClaudeContentBlock :=
  match stringField "type" block with
  | none => none
  | some blockType =>
    if blockType = js "text" ∧ (textAt? "text" block).isSome then (textAt? "text" block).map .text
    else if blockType = js "thinking" then some .thinking
    else if blockType = js "tool_use" then decodeToolUse block
    else if blockType = js "tool_result" then
      (stringField "tool_use_id" block).map fun id =>
        .toolResult id (booleanField "is_error" block) (toolResultText (block.get (js "content")))
    else some (.other blockType)

def decodeClaudeMessage (value : Json) : Option ClaudeMessage :=
  match objectField "message" value with
  | none => none
  | some message =>
    let decoded (content : List ClaudeContentBlock) (contentWasString : Bool) : ClaudeMessage := {
      id := stringField "id" message
      model := stringField "model" message
      stopReason := stringField "stop_reason" message
      content
      usage := objectField "usage" message
      contentWasString }
    match message.get (js "content") with
    | some (.str s) => some (decoded [.text s] true)
    | some (.arr blocks) => some (decoded (blocks.filterMap decodeBlock) false)
    | _ => none

def ClaudeContentBlock.isToolUse : ClaudeContentBlock → Bool
  | .toolUse _ _ _ => true
  | _ => false

def ClaudeContentBlock.isToolResult : ClaudeContentBlock → Bool
  | .toolResult _ _ _ => true
  | _ => false

/-- The ids of the calls of a message. -/
def ClaudeMessage.callIds (m : ClaudeMessage) : List JsString :=
  m.content.filterMap fun
    | .toolUse id _ _ => some id
    | _ => none

/-- The ids of the calls a message has results of. -/
def ClaudeMessage.resultIds (m : ClaudeMessage) : List JsString :=
  m.content.filterMap fun
    | .toolResult id _ _ => some id
    | _ => none

/-! ## User records -/

/-- Provenance of a user record. -/
inductive ClaudePromptProvenance
  | humanOrigin (promptSource : Option JsString)
  | humanStructural
  | sdk
  | taskNotification
  | unknownProvenance (promptSource : JsString)
  | toolResult
  | notAPrompt
  deriving DecidableEq, Repr

def ClaudePromptProvenance.isHuman : ClaudePromptProvenance → Bool
  | .humanOrigin _ => true
  | .humanStructural => true
  | _ => false

/-- `promptSource` values that denote a real person driving the session. -/
def humanPromptSources : List JsString := [js "typed", js "queued", js "suggestion_accepted"]

def classifyUserRecord (envelope : ClaudeEnvelope) (message : Option ClaudeMessage) (isSubagentTrace : Bool) :
    ClaudePromptProvenance :=
  match message with
  | none => .notAPrompt
  | some message =>
    let originKind := (objectField "origin" envelope.raw).bind (stringField "kind")
    let promptSource := stringField "promptSource" envelope.raw
    if envelope.type ≠ js "user" then .notAPrompt
    else if message.content.any ClaudeContentBlock.isToolResult then .toolResult
    else if envelope.isMeta then .notAPrompt
    else if envelope.isSidechain && !isSubagentTrace then .notAPrompt
    else if originKind = some (js "human") then .humanOrigin promptSource
    else if originKind = some (js "task-notification") then .taskNotification
    else if promptSource = some (js "sdk") then .sdk
    else if promptSource = some (js "system") then .taskNotification
    else
      -- a prompt source that is not recognized is not evidence of a human
      match promptSource with
      | some source => if source ∈ humanPromptSources then .humanStructural else .unknownProvenance source
      | none => .humanStructural

end Barbaro.Claude
