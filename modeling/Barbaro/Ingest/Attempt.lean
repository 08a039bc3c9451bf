import Barbaro.Core.Checkpoint
import Barbaro.Core.Content
import Barbaro.Core.Members
import Barbaro.Output.JsonlStore
import Mathlib.Data.List.Sort

/-!
# Ingest attempts

Each hook that ingests a transcript keeps a diagnostic record of its attempt: what triggered
it, what it has observed of the transcript, and how it ended. The record lives in the memory
of the hook and is written as a whole.

* `beginAttempt`, `observeAttempt`, `finishAttempt`: the life of a record.
* `isAttemptV2`: what a reader of the journal checks of one; the hook's own parser and the
  strict reader check the same.
-/

namespace Barbaro.Ingest

def legacyIngestAttemptSchema : JsString := js "barbaro.ingest-attempt.v1"
def ingestAttemptSchema : JsString := js "barbaro.ingest-attempt-journal.v2"
def maxIngestAttempts : ℕ := 32
def maxIngestObservationTransitions : ℕ := 8
def maxIngestAttemptBytes : ℕ := 256 * 1024

def maxEventBytes : ℕ := 256
def maxIdBytes : ℕ := 512
def maxRunnerInputFields : ℕ := 32
def maxRunnerArrayItems : ℕ := 32
def maxRunnerStringBytes : ℕ := 512

/-! ## The record -/

inductive IngestAttemptOutcome
  | ok
  | error
  | processDied
  | outcomeNotRecorded
  | stopTurnNotVisible
  deriving DecidableEq, Repr

def IngestAttemptOutcome.text : IngestAttemptOutcome → String
  | .ok => "ok"
  | .error => "error"
  | .processDied => "process_died"
  | .outcomeNotRecorded => "outcome_not_recorded"
  | .stopTurnNotVisible => "stop_turn_not_visible"

structure LastAssistantMessage where
  sha256 : JsString
  utf8Bytes : ℕ
  deriving DecidableEq, Repr

structure IngestAttemptTrigger where
  nativeTurnId : Option JsString := none
  turnId : Option JsString := none
  agentId : Option JsString := none
  stopHookActive : Option Bool := none
  lastAssistantMessage : Option LastAssistantMessage := none
  deriving DecidableEq, Repr

structure IngestTranscriptSnapshot where
  observedAt : JsString
  observedSize : ℕ
  fileIdentity : FileIdentity
  deriving DecidableEq, Repr

structure IngestObservationTransition extends IngestTranscriptSnapshot where
  firstObservedAt : JsString
  repeatCount : ℕ
  deriving DecidableEq, Repr

structure IngestObservationSummary where
  count : ℕ := 0
  first : Option IngestTranscriptSnapshot := none
  last : Option IngestTranscriptSnapshot := none
  sizeTransitions : List IngestObservationTransition := []
  droppedTransitions : ℕ := 0
  deriving DecidableEq, Repr

structure IngestCheckpointEndpoint where
  fileIdentity : FileIdentity
  byteOffset : ℕ
  nextLineNumber : ℕ
  observedSize : ℕ
  deriving DecidableEq, Repr

structure BarbaroIngestAttempt where
  attemptId : JsString
  event : JsString
  trigger : Option IngestAttemptTrigger
  triggeredAt : JsString
  pid : ℕ
  startedAt : JsString
  observations : IngestObservationSummary := {}
  checkpointBefore : Option IngestCheckpointEndpoint := none
  checkpointAfter : Option IngestCheckpointEndpoint := none
  turnsAppended : ℕ := 0
  /-- The members of the object, once there is one. -/
  runnerInput : Option (List (JsString × Json)) := none
  pendingBackgroundIds : List JsString := []
  pendingAgentIds : List JsString := []
  withheldReason : Option JsString := none
  publishBlocker : Option JsString := none
  finishedAt : Option JsString := none
  outcome : Option IngestAttemptOutcome := none
  /-- Whether the record was migrated from a file of the legacy schema. -/
  migrated : Bool := false
  autopsiedAt : Option JsString := none

/-! ## Its JSON -/

def identityJson (i : FileIdentity) : Json :=
  objectOf [("birthtime_ns", some (.str i.birthtimeNs)), ("device", some (.str i.device)),
    ("inode", some (.str i.inode))]

def IngestTranscriptSnapshot.toJson (s : IngestTranscriptSnapshot) : Json :=
  objectOf [("file_identity", some (identityJson s.fileIdentity)), ("observed_at", some (.str s.observedAt)),
    ("observed_size", some (natJson s.observedSize))]

def IngestObservationTransition.toJson (t : IngestObservationTransition) : Json :=
  objectOf [("file_identity", some (identityJson t.fileIdentity)),
    ("first_observed_at", some (.str t.firstObservedAt)), ("observed_at", some (.str t.observedAt)),
    ("observed_size", some (natJson t.observedSize)), ("repeat_count", some (natJson t.repeatCount))]

/-- A value, or `null`. -/
def orNull : Option Json → Option Json
  | some v => some v
  | none => some .null

def IngestObservationSummary.toJson (o : IngestObservationSummary) : Json :=
  objectOf [("count", some (natJson o.count)), ("dropped_transitions", some (natJson o.droppedTransitions)),
    ("first", orNull (o.first.map IngestTranscriptSnapshot.toJson)),
    ("last", orNull (o.last.map IngestTranscriptSnapshot.toJson)),
    ("size_transitions", some (.arr (o.sizeTransitions.map IngestObservationTransition.toJson)))]

def IngestCheckpointEndpoint.toJson (c : IngestCheckpointEndpoint) : Json :=
  objectOf [("byte_offset", some (natJson c.byteOffset)), ("file_identity", some (identityJson c.fileIdentity)),
    ("next_line_number", some (natJson c.nextLineNumber)), ("observed_size", some (natJson c.observedSize))]

def LastAssistantMessage.toJson (m : LastAssistantMessage) : Json :=
  objectOf [("sha256", some (.str m.sha256)), ("utf8_bytes", some (natJson m.utf8Bytes))]

def IngestAttemptTrigger.toJson (t : IngestAttemptTrigger) : Json :=
  objectOf [("agent_id", t.agentId.map .str),
    ("last_assistant_message", t.lastAssistantMessage.map LastAssistantMessage.toJson),
    ("native_turn_id", t.nativeTurnId.map .str), ("stop_hook_active", t.stopHookActive.map .bool),
    ("turn_id", t.turnId.map .str)]

def textsJson (texts : List JsString) : Json := .arr (texts.map .str)

/-- A record as it is written. -/
def BarbaroIngestAttempt.toJson (a : BarbaroIngestAttempt) : Json :=
  objectOf [
    ("attempt_id", some (.str a.attemptId)),
    ("autopsied_at", a.autopsiedAt.map .str),
    ("checkpoint_after", orNull (a.checkpointAfter.map IngestCheckpointEndpoint.toJson)),
    ("checkpoint_before", orNull (a.checkpointBefore.map IngestCheckpointEndpoint.toJson)),
    ("event", some (.str a.event)),
    ("finished_at", a.finishedAt.map .str),
    ("migrated_from_schema", if a.migrated then some (.str legacyIngestAttemptSchema) else none),
    ("observations", some a.observations.toJson),
    ("outcome", a.outcome.map (fun o => .str (js o.text))),
    ("pending_agent_ids", some (textsJson a.pendingAgentIds)),
    ("pending_background_ids", some (textsJson a.pendingBackgroundIds)),
    ("pid", some (natJson a.pid)),
    ("publish_blocker", a.publishBlocker.map .str),
    ("runner_input", a.runnerInput.map (fun fs => sortKeys (.obj fs))),
    ("started_at", some (.str a.startedAt)),
    ("trigger", a.trigger.map IngestAttemptTrigger.toJson),
    ("triggered_at", some (.str a.triggeredAt)),
    ("turns_appended", some (natJson a.turnsAppended)),
    ("withheld_reason", a.withheldReason.map .str)]

/-! ## Checks on values -/

section
variable (E : Host)

def isBoundedString (maximumBytes : ℕ) (allowEmpty : Bool) : Option Json → Bool
  | some (.str s) => (allowEmpty || s ≠ []) && byteLength s ≤ maximumBytes
  | _ => false

def isOptionalBoundedString (maximumBytes : ℕ) (v : Option Json) : Bool :=
  isOptional (isBoundedString maximumBytes true) v

def isTimestamp (v : Option Json) : Bool :=
  isBoundedString 64 false v &&
    match v with
    | some (.str s) => (E.dateParse s).isSome
    | _ => false

/-- `value === null || check(value)` -/
def isNullOr (check : Option Json → Bool) : Option Json → Bool
  | some .null => true
  | v => check v

def isIdentityPart : Option Json → Bool
  | some (.str s) => s.length ≤ 64 && isDecimal s
  | _ => false

def isFileIdentity : Option Json → Bool
  | some v => hasOnlyKeys ["birthtime_ns", "device", "inode"] v && isIdentityPart (v.get (js "device")) &&
      isIdentityPart (v.get (js "inode")) && isIdentityPart (v.get (js "birthtime_ns"))
  | none => false

def isTranscriptSnapshot : Option Json → Bool
  | some v => hasOnlyKeys ["file_identity", "observed_at", "observed_size"] v &&
      isTimestamp E (v.get (js "observed_at")) && isSafeNonNegativeInteger (v.get (js "observed_size")) &&
      isFileIdentity (v.get (js "file_identity"))
  | none => false

def isObservationTransition (v : Json) : Bool :=
  hasOnlyKeys ["file_identity", "first_observed_at", "observed_at", "observed_size", "repeat_count"] v &&
    isTimestamp E (v.get (js "observed_at")) && isSafeNonNegativeInteger (v.get (js "observed_size")) &&
    isFileIdentity (v.get (js "file_identity")) && isTimestamp E (v.get (js "first_observed_at")) &&
    isSafePositiveInteger (v.get (js "repeat_count"))

/-- An array with at most `maximum` items that all pass the check. -/
def isBoundedArray (maximum : ℕ) (check : Json → Bool) : Option Json → Bool
  | some (.arr vs) => vs.length ≤ maximum && vs.all check
  | _ => false

def isNull : Option Json → Bool
  | some .null => true
  | _ => false

def isEmptyArray : Option Json → Bool
  | some (.arr vs) => vs.isEmpty
  | _ => false

def isZero : Option Json → Bool
  | some (.num (.int z)) => z == 0
  | _ => false

def isObservationSummary : Option Json → Bool
  | some v =>
    hasOnlyKeys ["count", "dropped_transitions", "first", "last", "size_transitions"] v &&
      isSafeNonNegativeInteger (v.get (js "count")) &&
      isSafeNonNegativeInteger (v.get (js "dropped_transitions")) &&
      isBoundedArray maxIngestObservationTransitions (isObservationTransition E)
        (v.get (js "size_transitions")) &&
      (if isZero (v.get (js "count")) then
        isNull (v.get (js "first")) && isNull (v.get (js "last")) &&
          isEmptyArray (v.get (js "size_transitions"))
      else isTranscriptSnapshot E (v.get (js "first")) && isTranscriptSnapshot E (v.get (js "last")) &&
        !isEmptyArray (v.get (js "size_transitions")))
  | none => false

def isCheckpointEndpoint : Option Json → Bool
  | some v =>
    hasOnlyKeys ["byte_offset", "file_identity", "next_line_number", "observed_size"] v &&
      isFileIdentity (v.get (js "file_identity")) && isSafeNonNegativeInteger (v.get (js "byte_offset")) &&
      isSafePositiveInteger (v.get (js "next_line_number")) &&
      isSafeNonNegativeInteger (v.get (js "observed_size")) && intAt "byte_offset" v ≤ intAt "observed_size" v
  | none => false

def isLastAssistantMessage : Option Json → Bool
  | some v => hasOnlyKeys ["sha256", "utf8_bytes"] v && isPattern isSha256Hex (v.get (js "sha256")) &&
      isSafeNonNegativeInteger (v.get (js "utf8_bytes"))
  | none => false

def isTrigger : Option Json → Bool
  | none => true
  | some v =>
    hasOnlyKeys ["agent_id", "last_assistant_message", "native_turn_id", "stop_hook_active", "turn_id"] v &&
      isOptionalBoundedString maxIdBytes (v.get (js "native_turn_id")) &&
      isOptionalBoundedString maxIdBytes (v.get (js "turn_id")) &&
      isOptionalBoundedString maxIdBytes (v.get (js "agent_id")) &&
      isOptional isBoolean (v.get (js "stop_hook_active")) &&
      isOptional isLastAssistantMessage (v.get (js "last_assistant_message"))

def isBoundedIdArray (v : Option Json) : Bool :=
  isBoundedArray maxRunnerArrayItems (fun item => isBoundedString maxIdBytes true (some item)) v

def isRunnerItem : Json → Bool
  | .str s => isBoundedString maxRunnerStringBytes true (some (.str s))
  | .num n => !isInfinite n
  | .bool _ => true
  | v => isBoundedIdArray (some v)

def isRunnerInput : Option Json → Bool
  | none => true
  | some (.obj fs) => fs.length ≤ maxRunnerInputFields &&
      fs.all (fun f => isBoundedString 128 false (some (.str f.1)) && isRunnerItem f.2)
  | some _ => false

def isAttemptOutcome : Option Json → Bool
  | some (.str s) => [IngestAttemptOutcome.ok, .error, .processDied, .outcomeNotRecorded,
      .stopTurnNotVisible].any (fun o => js o.text == s)
  | _ => false

def attemptKeys : List String :=
  ["attempt_id", "event", "trigger", "triggered_at", "pid", "started_at", "observations",
    "checkpoint_before", "checkpoint_after", "turns_appended", "runner_input", "pending_background_ids",
    "pending_agent_ids", "withheld_reason", "publish_blocker", "finished_at", "outcome",
    "migrated_from_schema", "autopsied_at"]

def isAttemptV2 (v : Json) : Bool :=
  hasOnlyKeys attemptKeys v && isBoundedString maxIdBytes false (v.get (js "attempt_id")) &&
    isBoundedString maxEventBytes false (v.get (js "event")) && isTrigger (v.get (js "trigger")) &&
    isTimestamp E (v.get (js "triggered_at")) && isSafePositiveInteger (v.get (js "pid")) &&
    isTimestamp E (v.get (js "started_at")) && isObservationSummary E (v.get (js "observations")) &&
    isNullOr isCheckpointEndpoint (v.get (js "checkpoint_before")) &&
    isNullOr isCheckpointEndpoint (v.get (js "checkpoint_after")) &&
    isSafeNonNegativeInteger (v.get (js "turns_appended")) && isRunnerInput (v.get (js "runner_input")) &&
    isBoundedIdArray (v.get (js "pending_background_ids")) &&
    isBoundedIdArray (v.get (js "pending_agent_ids")) &&
    isOptionalBoundedString maxRunnerStringBytes (v.get (js "withheld_reason")) &&
    isOptionalBoundedString maxRunnerStringBytes (v.get (js "publish_blocker")) &&
    isOptional (isTimestamp E) (v.get (js "finished_at")) &&
    isOptional isAttemptOutcome (v.get (js "outcome")) &&
    ((v.get (js "finished_at")).isNone == (v.get (js "outcome")).isNone) &&
    isOptional (equalsText legacyIngestAttemptSchema) (v.get (js "migrated_from_schema")) &&
    isOptional (isTimestamp E) (v.get (js "autopsied_at"))

end

/-! ## The life of a record -/

inductive IngestRunnerInputValue
  | text (s : JsString)
  /-- Nothing for a number that is not finite. -/
  | number (n : Option Json.Number)
  | flag (b : Bool)
  | texts (values : List JsString)
  deriving DecidableEq, Repr

structure BeginIngestAttemptOptions where
  event : JsString
  /-- What `stat` says of the trace, if there is one. -/
  snapshot : Option (ℕ × FileIdentity) := none
  triggeredAt : Option JsString := none
  nativeTurnId : Option JsString := none
  turnId : Option JsString := none
  agentId : Option JsString := none
  stopHookActive : Option Bool := none
  lastAssistantMessage : Option JsString := none

structure IngestAttemptObservation where
  observedSize : ℤ
  fileIdentity : FileIdentity
  checkpointBefore : Option JsonlCheckpoint := none
  checkpointAfter : Option JsonlCheckpoint := none
  /-- The members that are not `undefined`. -/
  runnerInput : List (JsString × IngestRunnerInputValue)
  turnsAppended : ℤ
  pendingBackgroundIds : List JsString := []
  pendingAgentIds : List JsString := []
  withheldReason : Option JsString := none
  publishBlocker : Option JsString := none

def bounded (value : JsString) (maximumBytes : ℕ) : JsString := truncateUtf8 value maximumBytes

def optionalBounded (value : Option JsString) (maximumBytes : ℕ) : Option JsString :=
  match value with
  | none => none
  | some s => if s = [] then none else some (bounded s maximumBytes)

def createTrigger (H : Hasher) (options : BeginIngestAttemptOptions) : Option IngestAttemptTrigger :=
  let nativeTurnId := optionalBounded options.nativeTurnId maxIdBytes
  let turnId := optionalBounded options.turnId maxIdBytes
  let agentId := optionalBounded options.agentId maxIdBytes
  let lastAssistantMessage :=
    match options.lastAssistantMessage with
    | none => none
    | some message =>
      if message = [] then none else some ⟨H.sha256 (utf8 message), byteLength message⟩
  if nativeTurnId.isNone && turnId.isNone && agentId.isNone && options.stopHookActive.isNone &&
      lastAssistantMessage.isNone then none
  else some ⟨nativeTurnId, turnId, agentId, options.stopHookActive, lastAssistantMessage⟩

def sameObservation (t : IngestObservationTransition) (s : IngestTranscriptSnapshot) : Bool :=
  t.observedSize = s.observedSize && t.fileIdentity = s.fileIdentity

/-- The transitions after one more snapshot. -/
def addTransition (transitions : List IngestObservationTransition) (s : IngestTranscriptSnapshot) :
    List IngestObservationTransition :=
  match transitions.getLast? with
  | some previous =>
    if sameObservation previous s then
      transitions.dropLast ++
        [{ previous with observedAt := s.observedAt, repeatCount := previous.repeatCount + 1 }]
    else transitions ++ [{ s with firstObservedAt := s.observedAt, repeatCount := 1 }]
  | none => [{ s with firstObservedAt := s.observedAt, repeatCount := 1 }]

/-- The oldest transitions give way. -/
def addObservation (current : IngestObservationSummary) (s : IngestTranscriptSnapshot) :
    IngestObservationSummary :=
  let transitions := addTransition current.sizeTransitions s
  let excess := transitions.length - maxIngestObservationTransitions
  { count := current.count + 1
    first := some (current.first.getD s)
    last := some s
    sizeTransitions := transitions.drop excess
    droppedTransitions := current.droppedTransitions + excess }

def beginAttempt (H : Hasher) (options : BeginIngestAttemptOptions) (attemptId startedAt : JsString)
    (pid : ℕ) : BarbaroIngestAttempt where
  attemptId := attemptId
  event := bounded options.event maxEventBytes
  trigger := createTrigger H options
  triggeredAt := options.triggeredAt.getD startedAt
  pid := pid
  startedAt := startedAt
  observations :=
    match options.snapshot with
    | none => {}
    | some (size, identity) => addObservation {} ⟨startedAt, size, identity⟩

def checkpointEndpoint (c : JsonlCheckpoint) : IngestCheckpointEndpoint where
  fileIdentity := c.fileIdentity
  byteOffset := c.byteOffset
  nextLineNumber := c.nextLineNumber
  observedSize := c.observedSize

def boundedIds (values : List JsString) : List JsString :=
  (values.take maxRunnerArrayItems).map (fun value => bounded value maxIdBytes)

/-- A member of the input, bounded; nothing for a number that is not finite. -/
def boundedItem : IngestRunnerInputValue → Option Json
  | .text s => some (.str (bounded s maxRunnerStringBytes))
  | .number n => n.map .num
  | .flag b => some (.bool b)
  | .texts values => some (textsJson (boundedIds values))

/-- The first fields in the order of their keys. Keys that are cut to the same one leave
the last value. -/
def boundedRunnerInput (input : List (JsString × IngestRunnerInputValue)) : List (JsString × Json) :=
  let sorted := input.insertionSort (fun a b => compareUtf16CodeUnits a.1 b.1 ≠ .gt)
  (sorted.take maxRunnerInputFields).foldl (fun result f =>
    match boundedItem f.2 with
    | some v => Json.setField (bounded f.1 128) v result
    | none => result) []

def safeNonNegativeInteger (value : ℤ) (name : String) : Except Failure ℕ :=
  if 0 ≤ value ∧ value ≤ maxSafeInteger then .ok value.toNat
  else .error (.typeError s!"{name} must be a non-negative safe integer")

def observeAttempt (attempt : BarbaroIngestAttempt) (observation : IngestAttemptObservation)
    (observedAt : JsString) : Except Failure BarbaroIngestAttempt := do
  let observedSize ← safeNonNegativeInteger observation.observedSize "observedSize"
  let turnsAppended ← safeNonNegativeInteger observation.turnsAppended "turnsAppended"
  return { attempt with
    observations := addObservation attempt.observations ⟨observedAt, observedSize, observation.fileIdentity⟩
    checkpointBefore :=
      if attempt.runnerInput.isNone then observation.checkpointBefore.map checkpointEndpoint
      else attempt.checkpointBefore
    checkpointAfter := observation.checkpointAfter.map checkpointEndpoint
    turnsAppended := attempt.turnsAppended + turnsAppended
    runnerInput := some (boundedRunnerInput observation.runnerInput)
    pendingBackgroundIds := boundedIds observation.pendingBackgroundIds
    pendingAgentIds := boundedIds observation.pendingAgentIds
    withheldReason := observation.withheldReason.map (fun s => bounded s maxRunnerStringBytes)
    publishBlocker := observation.publishBlocker.map (fun s => bounded s maxRunnerStringBytes) }

def finishAttempt (attempt : BarbaroIngestAttempt) (outcome : IngestAttemptOutcome) (finishedAt : JsString) :
    BarbaroIngestAttempt :=
  { attempt with finishedAt := some finishedAt, outcome := some outcome }

end Barbaro.Ingest
