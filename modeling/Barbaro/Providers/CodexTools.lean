import Barbaro.Core.BarbaroCommand
import Barbaro.Core.Id
import Barbaro.Core.Redaction
import Barbaro.Hooks.ClaudeScope
import Barbaro.Runner.CodexTrace
import Barbaro.Runner.ToolInput

/-!
# What a Codex record says of a tool

The texts of messages, the commands and outcomes of tools, and the references to the lines of a trace,
as the normalizer takes them from single records.

* `extractCodexMessageText`: what a message says.
* `isTestCommand`, `isGeneratedBarbaroReadCommand`: what a command is for.
* `inspectToolOutput`, `explicitToolOutcome`, `mcpToolOutcome`: how a tool has ended.
* `sourceRef`, `sourceIdentity`: where a record stands in the trace.
-/

namespace Barbaro.Codex

open Active (optionalField)

/-! ## Outcomes -/

inductive ActionOutcome
  | success
  | failed
  | denied
  | interrupted
  | unknown
  deriving DecidableEq, Repr

def ActionOutcome.text : ActionOutcome → JsString
  | success => js "success"
  | failed => js "failed"
  | denied => js "denied"
  | interrupted => js "interrupted"
  | unknown => js "unknown"

inductive TurnOutcome
  | success
  | incomplete
  | failed
  | cancelled
  | unknown
  deriving DecidableEq, Repr

def TurnOutcome.text : TurnOutcome → JsString
  | success => js "success"
  | incomplete => js "partial"
  | failed => js "failed"
  | cancelled => js "cancelled"
  | unknown => js "unknown"

/-! ## Texts -/

/-- The string at a key, if it is there and not empty. -/
def namedField (key : String) (v : Json) : Option JsString := (textAt? key v).filter (· ≠ [])

/-- `items.filter(Boolean).join(separator)` -/
def joinNamed (separator : String) (items : List (Option JsString)) : JsString :=
  (js separator).intercalate ((items.filterMap id).filter (· ≠ []))

def injectedTags : List String :=
  ["environment_context", "recommended_plugins", "skills_instructions", "permissions instructions", "collaboration_mode",
    "apps_instructions", "plugins_instructions"]

def isCodexInjectedText (text : JsString) : Bool :=
  (js "# AGENTS.md instructions for ").isPrefixOf (text.dropWhile isTrimUnit) ||
    injectedTags.any fun tag =>
      (js "<" ++ js tag ++ js ">").isPrefixOf (trim text) && (js "</" ++ js tag ++ js ">").isSuffixOf (trim text)

/-- The text of a block of a message. -/
def messageBlock (block : Json) : Option JsString :=
  if !isOneOf ["input_text", "output_text"] (block.get (js "type")) then none
  else (textAt? "text" block).filter fun text => !isCodexInjectedText text

def extractCodexMessageText : Option Json → Option JsString
  | some (.arr blocks) =>
    some (([10] : JsString).intercalate (blocks.filterMap messageBlock)) |>.filter (· ≠ [])
  | _ => none

/-! ## Commands -/

/-- `text.replace(/\s+/g, " ")` -/
def collapseBlanks : JsString → JsString
  | [] => []
  | [u] => if isTrimUnit u then [32] else [u]
  | u :: v :: s =>
    if isTrimUnit u then if isTrimUnit v then collapseBlanks (v :: s) else 32 :: collapseBlanks (v :: s)
    else u :: collapseBlanks (v :: s)

def testCommands : List String :=
  (["npm", "pnpm", "yarn", "bun"].flatMap fun tool => [tool ++ " test", tool ++ " run test"]) ++
    ["npx vitest", "npx jest", "npx mocha", "cargo test", "swift test", "go test", "pytest", "python -m pytest",
      "python3 -m pytest", "dotnet test", "mvn test", "mvnw test", "gradle test", "gradlew test"]

/-- The text is the word, or the word and more behind what the test accepts. -/
def isFollowed (ends : UInt16 → Bool) (word : String) (text : JsString) : Bool :=
  (js word).isPrefixOf text && !((text.drop word.length).head?.any fun u => !ends u)

def isTestCommand (command : JsString) : Bool :=
  testCommands.any fun word => isFollowed isTrimUnit word (collapseBlanks (trim command))

/-- A word of the list stands somewhere in the text, between the two kinds of neighbours. -/
def hasWord (before after : UInt16 → Bool) (words : List String) : Option UInt16 → JsString → Bool
  | _, [] => false
  | previous, u :: s =>
    (!previous.any (fun w => !before w) && words.any fun word => isFollowed after word (u :: s)) ||
      hasWord before after words (some u) s

/-- The places of a store that a command may read. -/
def generatedPlaces : List String := [".barbaro/feed", ".barbaro/evidence", ".barbaro/active"]

def isGeneratedBarbaroReadCommand (command : JsString) : Bool :=
  hasWord (fun u => isTrimUnit u || isQuote u) (fun u => !isWordUnit u) generatedPlaces none command &&
    (["cat", "rg", "grep", "find", "ls", "sed", "awk", "head", "tail", "wc", "jq"].any fun word =>
      isFollowed (fun u => !isWordUnit u) word (trim command)) &&
    !(hasWord (fun u => isTrimUnit u || (js "|;&").contains u) (fun u => !isWordUnit u)
        ["tee", "rm", "mv", "cp", "install", "touch", "mkdir", "truncate"] none (trim command) ||
      (trim command).contains 62)

/-- `isGeneratedBarbaroReadTool`, of the name of a call and what it was given. -/
def isGeneratedBarbaroReadTool (name : JsString) (encoded : Option JsString) : Bool :=
  let beside := fun u => u == 47 || isQuote u
  (["read", "grep", "glob", "search", "list"].any fun word => hasIgnoringCase word name) &&
    encoded.any fun text => hasWord beside beside generatedPlaces none text

/-- `/tools\.(?:apply_patch|web__run)\s*\(/` -/
def callsNamedTool (input : JsString) : Bool :=
  input.tails.any fun text => ["tools.apply_patch", "tools.web__run"].any fun word =>
    (js word).isPrefixOf text && ((text.drop word.length).dropWhile isTrimUnit).head? == some 40

/-- The names of the tools whose arguments hold a command. -/
def isShellName (name : JsString) : Bool :=
  ["exec_command", "shell", "bash"].any fun word => hasIgnoringCase word name

/-- The command of an argument vector: the script of a shell, or all of it. -/
def renderCommandArray : Option Json → Option JsString
  | some (.str command) => some command |>.filter (· ≠ [])
  | some (.arr items) =>
    let parts := items.filterMap fun
      | .str part => some part
      | _ => none
    if parts.length ≠ items.length then none
    else
      match parts with
      | [_, flag, script] =>
        if flag = js "-c" ∨ flag = js "-lc" then some script |>.filter (· ≠ [])
        else some (([32] : JsString).intercalate parts) |>.filter (· ≠ [])
      | _ => some (([32] : JsString).intercalate parts) |>.filter (· ≠ [])
  | _ => none

/-! ## How a tool has ended -/

/-- A safe integer at a key. -/
def integerAt (key : String) (v : Json) : Option ℤ :=
  match v.get (js key) with
  | some (.num (.int n)) => some n
  | _ => none

/-- The exit code and the text of what a tool has returned. -/
structure ToolOutput where
  exitCode : Option ℤ := none
  text : Option JsString := none
  deriving DecidableEq, Repr

def inspectToolOutput (E : Host) (value : Option Json) : ToolOutput :=
  let text := match value with
    | some (.str text) => some text
    | some (.arr blocks) =>
      let parts := blocks.filterMap (textAt? "text")
      if parts.isEmpty then none else some (([10] : JsString).intercalate parts)
    | _ => none
  let decoded := match value with
    | some (.str text) => Json.parse E.float text
    | _ => value
  match decoded with
  | some (.obj fields) => {
      exitCode := integerAt "exit_code" (.obj fields)
      text := ((textAt? "output" (.obj fields)).or ((textAt? "stderr" (.obj fields)).or text)).filter (· ≠ []) }
  | _ => { text := text.filter (· ≠ []) }

/-- `status?.toLowerCase()`: the letters that are compared are of the alphabet. -/
def statusOf (payload : Json) : Option JsString := (textAt? "status" payload).map fun status => status.map lowerUnit

def explicitToolOutcome (payload : Option Json) : ActionOutcome :=
  match payload with
  | none => .unknown
  | some payload =>
    match payload.get (js "success") with
    | some (.bool true) => .success
    | some (.bool false) => .failed
    | _ =>
      let status := statusOf payload
      if status = some (js "failed") ∨ status = some (js "error") then .failed
      else if status = some (js "denied") then .denied
      else if status = some (js "interrupted") ∨ status = some (js "cancelled") then .interrupted
      else if status = some (js "success") ∨ status = some (js "succeeded") then .success
      else .unknown

/-- The value is there and not null. -/
def isPresent : Option Json → Bool
  | none => false
  | some .null => false
  | some _ => true

def imageGenerationOutcome (payload : Json) : ActionOutcome :=
  if isPresent (payload.get (js "failure")) then .failed
  else
    match statusOf payload with
    | none => .unknown
    | some status =>
      if status ∈ [js "completed", js "success", js "succeeded"] then .success
      else if status ∈ [js "failed", js "error", js "rejected"] then .failed
      else if status ∈ [js "cancelled", js "canceled", js "interrupted"] then .interrupted
      else .unknown

/-- The outcome of a tool of a server, with what it says of its failure. -/
def mcpToolOutcome (result : Option Json) : ActionOutcome × Option JsString :=
  match result with
  | some (.obj fields) =>
    match (Json.lookup (js "Err") fields).or (Json.lookup (js "err") fields) with
    | some (.str error) => (.failed, some error |>.filter (· ≠ []))
    | some _ => (.failed, none)
    | none =>
      match (Json.lookup (js "Ok") fields).or (Json.lookup (js "ok") fields) with
      | some (.obj done) =>
        if Active.isTrue (Json.lookup (js "is_error") done) then
          match Json.lookup (js "content") done with
          | some (.arr items) => (.failed, some (joinNamed "\n" (items.map (textAt? "text"))) |>.filter (· ≠ []))
          | _ => (.failed, none)
        else (.success, none)
      | _ => (.unknown, none)
  | _ => (.unknown, none)

/-! ## Changes of files -/

def countLines (text : JsString) : ℕ :=
  if text.isEmpty then 0
  else if text.getLast? = some 10 then text.count 10 else text.count 10 + 1

/-- The lines that a diff adds, and those that it removes. -/
def countUnifiedDiff (diff : Option JsString) : ℕ × ℕ :=
  let lines := ((diff.getD []).splitOn 10).filter fun line => !((js "+++").isPrefixOf line || (js "---").isPrefixOf line)
  (lines.countP (·.head? == some 43), lines.countP (·.head? == some 45))

/-! ## Places in a trace -/

structure CodexSourceLocation where
  traceId : JsString
  tracePath : Option JsString := none
  lineNumber : ℕ
  byteStart : Option ℕ := none
  byteEndExclusive : Option ℕ := none
  deriving DecidableEq, Repr

def assertSource (source : CodexSourceLocation) : Except Failure Unit :=
  if source.traceId = [] then .error (.typeError "source.traceId is required")
  else if source.lineNumber < 1 ∨ maxSafeInteger < (source.lineNumber : ℤ) then
    .error (.rangeError "source.lineNumber must be a positive safe integer")
  else .ok ()

/-- `[...new Set(values)]` -/
def uniqueInOrder (values : List JsString) : List JsString :=
  values.foldl (fun seen v => if v ∈ seen then seen else seen ++ [v]) []

/-- The ids that are there. -/
def compactIds (values : List (Option JsString)) : List JsString :=
  uniqueInOrder ((values.filterMap id).filter (· ≠ []))

def nativeIds (payload : Json) : List JsString :=
  compactIds (["id", "call_id", "turn_id", "event_id", "agent_thread_id"].map fun key => textAt? key payload)

def textsJson (texts : List JsString) : Json := .arr (texts.map .str)

def sourceRef (source : CodexSourceLocation) (ids : List JsString) : Json :=
  .obj ([(js "trace_id", .str source.traceId)] ++
    optionalField "trace_path" ((source.tracePath.filter (· ≠ [])).map .str) ++
    [(js "line_start", natJson source.lineNumber), (js "line_end", natJson source.lineNumber)] ++
    (if ids.isEmpty then [] else [(js "native_record_ids", textsJson (uniqueInOrder ids))]))

/-- What identifies a record of the trace. -/
def sourceIdentity (source : CodexSourceLocation) (nativeId : Option JsString) : JsString :=
  match nativeId.filter (· ≠ []) with
  | some nativeId => source.traceId ++ js ":native:" ++ nativeId ++ js ":line:" ++ Json.decDigits source.lineNumber
  | none => source.traceId ++ js ":line:" ++ Json.decDigits source.lineNumber

/-- The id of an action. No record has more actions than a safe integer counts. -/
def actionIdOf (E : Host) (turnId identity : JsString) (occurrence : ℕ) : JsString :=
  (createActionId E.toHasher turnId identity occurrence).toOption.getD []

/-- The id of the first evidence of a record. -/
def evidenceIdOf (E : Host) (turnId identity : JsString) : JsString :=
  (createEvidenceId E.toHasher turnId identity 0).toOption.getD []

end Barbaro.Codex
