import Barbaro.Core.Patterns

/-!
# Turn records

A line of a feed is a turn when `isTurnV1` accepts its JSON value. `Turn` carries that
check, so a turn always has the fields the readers use.

* `isTurnV1`: the structural check of `barbaro.turn.v1`.
* `selectTurnText`: the text a reader pages through: the whole record, the request or
  the response.
* `compareTurnRecency`: which of two turns is newer.
-/

namespace Barbaro

/-! ## The contract -/

def isDateTime (E : Host) : Option Json → Bool
  | some (.str s) => (E.dateParse s).isSome
  | _ => false

def isRedaction (v : Json) : Bool :=
  isNonEmptyString (v.get (js "kind")) && isSafePositiveInteger (v.get (js "count"))

def isContent (value : Option Json) : Bool :=
  match value with
  | some v =>
    isObject value && isString (v.get (js "text")) &&
      isOneOf ["verbatim", "normalized", "excerpt", "redacted"] (v.get (js "fidelity")) &&
      isBoolean (v.get (js "truncated")) &&
      isOptional isSafeNonNegativeInteger (v.get (js "original_utf8_bytes")) &&
      (match v.get (js "truncated") with
        | some (.bool true) => isSafeNonNegativeInteger (v.get (js "original_utf8_bytes"))
        | _ => true) &&
      isArrayOf isRedaction (v.get (js "redactions"))
  | none => false

def isSourceRef (v : Json) : Bool := isNonEmptyString (v.get (js "trace_id"))

/-- The components of a path, between its slashes. -/
def splitPath : JsString → List JsString
  | [] => [[]]
  | u :: us =>
    if u = 47 then [] :: splitPath us
    else match splitPath us with
      | [] => [[u]]
      | c :: cs => (u :: c) :: cs

def isRepoPath : Option Json → Bool
  | some (.str s) =>
    s ≠ [] && s.head? ≠ some 47 && !s.contains 92 &&
      (splitPath s).all (fun c => c ≠ [] && c ≠ js "." && c ≠ js "..")
  | _ => false

def isAction (v : Json) : Bool :=
  isPattern isActionId (v.get (js "action_id")) &&
    isOneOf ["success", "failed", "denied", "interrupted", "unknown"] (v.get (js "outcome")) &&
    isArrayOf isSourceRef (v.get (js "source_refs")) &&
    (let kind := v.get (js "kind")
     if equalsText (js "file_change") kind then
       isOneOf ["create", "modify", "delete", "move", "unknown"] (v.get (js "operation")) &&
         isRepoPath (v.get (js "path")) && isOptional isRepoPath (v.get (js "previous_path"))
     else if equalsText (js "command") kind || equalsText (js "test") kind then
       isContent (v.get (js "command")) && isOptional isContent (v.get (js "failure_excerpt"))
     else if equalsText (js "tool") kind then
       isNonEmptyString (v.get (js "tool_name")) && isOptional isContent (v.get (js "summary"))
     else if equalsText (js "other") kind then isContent (v.get (js "summary"))
     else false)

def isTurnOutcome : Option Json → Bool :=
  isOneOf ["success", "partial", "blocked", "failed", "cancelled", "abandoned", "unknown"]

def isRoleCount (v : Json) : Bool :=
  isNonEmptyString (v.get (js "role")) && isSafePositiveInteger (v.get (js "count"))

def isPatternArray (pattern : JsString → Bool) : Option Json → Bool :=
  isArrayOf (fun v => isPattern pattern (some v))

def isSubagentRollup (value : Option Json) : Bool :=
  match value with
  | some v =>
    isObject value && isSafeNonNegativeInteger (v.get (js "total")) &&
      isArrayOf isRoleCount (v.get (js "by_role")) && isObject (v.get (js "outcomes")) &&
      isArrayOf (fun p => isRepoPath (some p)) (v.get (js "changed_paths")) &&
      isPatternArray isEvidenceId (v.get (js "evidence_refs"))
  | none => false

/-- The structural check of a turn record. -/
def isTurnV1 (E : Host) (v : Json) : Bool :=
  isObject (some v) &&
    equalsText (js "barbaro.turn.v1") (v.get (js "schema")) &&
    isPattern isTurnId (v.get (js "turn_id")) &&
    isPattern isProvider (v.get (js "provider")) &&
    isPattern isSessionId (v.get (js "session_id")) &&
    isOptional (isPattern isWorkstreamId) (v.get (js "workstream_id")) &&
    isSafePositiveInteger (v.get (js "sequence")) &&
    isNonEmptyString (v.get (js "agent_id")) &&
    isOptional (isPattern isTurnId) (v.get (js "parent_turn_id")) &&
    isDateTime E (v.get (js "started_at")) &&
    isDateTime E (v.get (js "ended_at")) &&
    isTurnOutcome (v.get (js "outcome")) &&
    isContent (v.get (js "request")) &&
    isOptional isContent (v.get (js "response")) &&
    isArrayOf isAction (v.get (js "actions")) &&
    isSubagentRollup (v.get (js "subagents")) &&
    isPatternArray isEvidenceId (v.get (js "evidence_refs")) &&
    isArrayOf isSourceRef (v.get (js "source_refs"))

/-! ## Turns -/

/-- A JSON value that is a turn record. -/
structure Turn (E : Host) where
  json : Json
  isTurn : isTurnV1 E json = true

section
variable {E : Host}

def Turn.ofJson (E : Host) (v : Json) : Option (Turn E) :=
  if h : isTurnV1 E v = true then some ⟨v, h⟩ else none

def Turn.provider (t : Turn E) : JsString := textAt "provider" t.json
def Turn.sessionId (t : Turn E) : JsString := textAt "session_id" t.json
def Turn.turnId (t : Turn E) : JsString := textAt "turn_id" t.json
def Turn.workstreamId (t : Turn E) : Option JsString := textAt? "workstream_id" t.json
def Turn.sequence (t : Turn E) : ℤ := intAt "sequence" t.json
def Turn.endedAt (t : Turn E) : JsString := textAt "ended_at" t.json
def Turn.hasResponse (t : Turn E) : Bool := (t.json.get (js "response")).isSome

/-- `Date.parse(turn.ended_at)`, which the check has found to be a number. -/
def Turn.endedAtMs (t : Turn E) : ℤ := (E.dateParse t.endedAt).getD 0

/-- The text of the request, or of the response where there is one. -/
def Turn.contentText (key : String) (t : Turn E) : JsString :=
  match t.json.get (js key) with
  | some v => textAt "text" v
  | none => []

end

/-! ## The text of a turn -/

inductive ReadField
  | record
  | request
  | response
  deriving DecidableEq, Repr

def ReadField.text : ReadField → JsString
  | .record => js "record"
  | .request => js "request"
  | .response => js "response"

/-- A field of a turn that can be paged through. -/
inductive ReadQueryField
  | field (f : ReadField)
  | actions
  deriving DecidableEq, Repr

def ReadQueryField.text : ReadQueryField → JsString
  | .field f => f.text
  | .actions => js "actions"

structure SelectedText where
  present : Bool
  text : JsString
  representation : Option String := none
  deriving DecidableEq, Repr

def hasLoneSurrogate : JsString → Bool
  | [] => false
  | [u] => Json.isHigh u || Json.isLow u
  | u :: v :: s =>
    if Json.isHigh u then if Json.isLow v then hasLoneSurrogate s else true
    else Json.isLow u || hasLoneSurrogate (v :: s)

/-- A text that is no well-formed string is paged as its JSON literal. -/
def selectDirectText (text : JsString) : SelectedText :=
  if hasLoneSurrogate text then
    { present := true, text := stableStringify (.str text), representation := some "json-string" }
  else { present := true, text }

section
variable {E : Host}

def selectTurnText (turn : Turn E) : ReadField → SelectedText
  | .record => { present := true, text := stableStringify turn.json }
  | .request => selectDirectText (turn.contentText "request")
  | .response =>
    if turn.hasResponse then selectDirectText (turn.contentText "response")
    else { present := false, text := [] }

/-- The field that carries what a peer has to say: the response, else the request. -/
def attentionField (turn : Turn E) : ReadField :=
  if turn.hasResponse then .response else .request

theorem selectTurnText_record (turn : Turn E) : (selectTurnText turn .record).present = true := rfl

theorem selectTurnText_attention (turn : Turn E) :
    (selectTurnText turn (attentionField turn)).present = true := by
  have hdirect : ∀ text, (selectDirectText text).present = true := by
    intro text
    rw [selectDirectText]
    split <;> rfl
  rw [attentionField]
  split
  · next h => rw [selectTurnText, if_pos h]; exact hdirect _
  · exact hdirect _

/-- The sign of the difference of recency: by end, then sequence, then id. -/
def compareTurnRecency (left right : Turn E) : Ordering :=
  (compare left.endedAtMs right.endedAtMs).then
    ((compare left.sequence right.sequence).then (compareUtf16CodeUnits left.turnId right.turnId))

end

/-! ## Hashes -/

section
variable {E : Host}

def readContentHash (E : Host) (text : JsString) : JsString := E.sha256 (utf8 text)

def readRecordHash (turn : Turn E) : JsString := readContentHash E (stableStringify turn.json)

end

end Barbaro
