import Barbaro.Ingest.Attempt

/-!
# The ingest journal

The attempts of a session share one bounded file. Whoever writes an attempt reads the
journal, puts the attempt in its place or at the end, evicts what no longer fits and
replaces the file, all under a lock. The first finished attempt is evicted, or the first
one when none is finished, and a counter keeps how many were.

A journal that cannot be read is an empty one; a file of the legacy schema is migrated.
-/

namespace Barbaro.Ingest

/-- Whose journal it is. -/
structure SessionKey where
  provider : JsString
  sessionId : JsString
  /-- The provider is a component of a path. -/
  provider_ok : isProvider provider = true ∧ provider.length ≤ 255
  sessionId_ok : isSessionId sessionId = true

/-- `BarbaroIngestAttemptJournalV2`, but for its identity. -/
structure IngestJournal where
  droppedAttempts : ℕ
  attempts : List Json

section
variable (E : Host) (key : SessionKey)

def IngestJournal.toJson (j : IngestJournal) : Json :=
  objectOf [("attempts", some (.arr j.attempts)), ("dropped_attempts", some (natJson j.droppedAttempts)),
    ("provider", some (.str key.provider)), ("schema", some (.str ingestAttemptSchema)),
    ("session_id", some (.str key.sessionId))]

def emptyJournal : IngestJournal := ⟨0, []⟩

def attemptId (attempt : Json) : JsString := textAt "attempt_id" attempt

def isFinished (attempt : Json) : Bool := (attempt.get (js "finished_at")).isSome

/-! ## Reading -/

def journalKeys : List String := ["attempts", "dropped_attempts", "provider", "schema", "session_id"]

def isJournalV2 (value : Json) : Bool :=
  hasOnlyKeys journalKeys value && equalsText ingestAttemptSchema (value.get (js "schema")) &&
    equalsText key.provider (value.get (js "provider")) &&
    equalsText key.sessionId (value.get (js "session_id")) &&
    isSafeNonNegativeInteger (value.get (js "dropped_attempts")) &&
    isBoundedArray maxIngestAttempts (isAttemptV2 E) (value.get (js "attempts"))

def isLegacyAttempt (value : Json) : Bool :=
  hasOnlyKeys ["schema", "provider", "session_id", "event", "attempt_id", "pid", "started_at",
      "finished_at", "outcome"] value &&
    equalsText legacyIngestAttemptSchema (value.get (js "schema")) &&
    equalsText key.provider (value.get (js "provider")) &&
    equalsText key.sessionId (value.get (js "session_id")) &&
    isBoundedString maxEventBytes false (value.get (js "event")) &&
    isBoundedString maxIdBytes false (value.get (js "attempt_id")) &&
    isSafePositiveInteger (value.get (js "pid")) && isTimestamp E (value.get (js "started_at")) &&
    isOptional (isTimestamp E) (value.get (js "finished_at")) &&
    isOptional (fun v => equalsText (js "ok") v || equalsText (js "error") v) (value.get (js "outcome")) &&
    ((value.get (js "finished_at")).isNone == (value.get (js "outcome")).isNone)

def migrateLegacyAttempt (legacy : Json) : BarbaroIngestAttempt where
  attemptId := bounded (textAt "attempt_id" legacy) maxIdBytes
  event := bounded (textAt "event" legacy) maxEventBytes
  trigger := none
  triggeredAt := textAt "started_at" legacy
  pid := (intAt "pid" legacy).toNat
  startedAt := textAt "started_at" legacy
  finishedAt := textAt? "finished_at" legacy
  outcome := (textAt? "outcome" legacy).map (fun s =>
    if s = js "ok" then IngestAttemptOutcome.ok else IngestAttemptOutcome.error)
  migrated := true

def journalItems (value : Json) : List Json :=
  match value.get (js "attempts") with
  | some (.arr vs) => vs
  | _ => []

/-- The journal of a parsed file. -/
def journalOf (value : Json) : IngestJournal :=
  if isJournalV2 E key value then ⟨(intAt "dropped_attempts" value).toNat, journalItems value⟩
  else if isLegacyAttempt E key value then ⟨0, [(migrateLegacyAttempt value).toJson]⟩
  else emptyJournal

def readJournal (file : Option Bytes) : IngestJournal :=
  match file with
  | none => emptyJournal
  | some bytes =>
    if bytes.length > maxIngestAttemptBytes then emptyJournal
    else
      match Json.parse E.float (bytesToString bytes) with
      | none => emptyJournal
      | some value => journalOf E key value

/-! ## Fitting -/

def journalBytes (j : IngestJournal) : ℕ := byteLength (stableStringify (j.toJson key)) + 1

/-- The place of the attempt to evict. -/
def oldestIndex (attempts : List Json) : ℕ := (attempts.findIdx? isFinished).getD 0

def dropOldest (j : IngestJournal) : IngestJournal where
  droppedAttempts := j.droppedAttempts + 1
  attempts := j.attempts.eraseIdx (oldestIndex j.attempts)

/-- `while (over) dropOldest()`, at most `n` times. -/
def evictWhile (exceeds : IngestJournal → Bool) : ℕ → IngestJournal → IngestJournal
  | 0, j => j
  | n + 1, j => if exceeds j then evictWhile exceeds n (dropOldest j) else j

def tooMany (j : IngestJournal) : Bool := maxIngestAttempts < j.attempts.length

def tooLarge (j : IngestJournal) : Bool :=
  1 < j.attempts.length && maxIngestAttemptBytes < journalBytes key j

/-- Only the last transition is kept. -/
def compactObservations : Json → Json
  | .obj fs =>
    match Json.lookup (js "size_transitions") fs with
    | some (.arr transitions) =>
      .obj (Json.setField (js "dropped_transitions")
        (.num (.int (intAt "dropped_transitions" (.obj fs) + (transitions.length - 1 : ℕ))))
        (Json.setField (js "size_transitions") (.arr (transitions.drop (transitions.length - 1))) fs))
    | _ => .obj fs
  | v => v

/-- An attempt without its runner input and its older transitions. -/
def compactAttempt : Json → Json
  | .obj fs =>
    match Json.lookup (js "observations") fs with
    | some observations => .obj (Json.setField (js "observations") (compactObservations observations)
        (fs.filter (fun f => f.1 ≠ js "runner_input")))
    | none => .obj fs
  | v => v

def fitJournal (j : IngestJournal) : Except Failure IngestJournal :=
  let counted := evictWhile tooMany j.attempts.length j
  let fitted := evictWhile (tooLarge key) counted.attempts.length counted
  if journalBytes key fitted ≤ maxIngestAttemptBytes then .ok fitted
  else
    match fitted.attempts.getLast? with
    | none => .ok fitted
    | some newest =>
      if journalBytes key ⟨fitted.droppedAttempts, [compactAttempt newest]⟩ > maxIngestAttemptBytes then
        .error (.rangeError "bounded ingest-attempt journal record is too large")
      else .ok ⟨fitted.droppedAttempts, [compactAttempt newest]⟩

/-! ## Writing -/

/-- `replaceJournal`, with the journal that is written. -/
def replaceJournal (j : IngestJournal) : Except Failure (IngestJournal × Bytes) := do
  let fitted ← fitJournal key j
  return (fitted, utf8 (stableJsonLine (fitted.toJson key)))

/-- The attempt takes the place of its earlier state, or the end. -/
def putAttempt (attempts : List Json) (attempt : Json) : List Json :=
  match attempts.findIdx? (fun a => attemptId a == attemptId attempt) with
  | some i => attempts.set i attempt
  | none => attempts ++ [attempt]

/-- `persist`: the journal read, with the attempt, fitted and written. -/
def persistAttempt (file : Option Bytes) (attempt : Json) : Except Failure (IngestJournal × Bytes) := do
  let current := readJournal E key file
  let fitted ← fitJournal key { current with attempts := putAttempt current.attempts attempt }
  replaceJournal key fitted

/-- An attempt that has no outcome and whose process is gone. -/
def isDead (alive : ℤ → Bool) (attempt : Json) : Bool :=
  !isFinished attempt && (attempt.get (js "outcome")).isNone && !alive (intAt "pid" attempt)

/-- `{ ...attempt, finished_at, outcome, autopsied_at }` -/
def autopsy (occurredAt : JsString) : Json → Json
  | .obj fs => .obj (Json.setField (js "autopsied_at") (.str occurredAt)
      (Json.setField (js "outcome") (.str (js IngestAttemptOutcome.outcomeNotRecorded.text))
        (Json.setField (js "finished_at") (.str occurredAt) fs)))
  | v => v

def autopsyDeadAttempts (alive : ℤ → Bool) (occurredAt : JsString) (j : IngestJournal) : IngestJournal :=
  { j with attempts := j.attempts.map (fun a => if isDead alive a then autopsy occurredAt a else a) }

/-- The first write of an attempt. -/
def appendBirth (file : Option Bytes) (alive : ℤ → Bool) (occurredAt : JsString) (attempt : Json) :
    Except Failure (IngestJournal × Bytes) := do
  let current := autopsyDeadAttempts alive occurredAt (readJournal E key file)
  let appended ← fitJournal key { current with attempts := current.attempts ++ [attempt] }
  replaceJournal key appended

/-! ## The strict reader -/

def uniqueAttemptIds (attempts : List Json) : Bool := (attempts.map attemptId).Nodup

def parseReaderIngestJournal (value : Json) : Except Failure IngestJournal :=
  if !isObject (some value) then .error (.typeError "journal must be an object")
  else if !isString (value.get (js "provider")) || !isString (value.get (js "session_id")) then
    .error (.typeError "journal is structurally invalid")
  else if !equalsText key.provider (value.get (js "provider")) ||
      !equalsText key.sessionId (value.get (js "session_id")) then
    .error (.typeError "journal identity does not match its storage path")
  else if !(hasOnlyKeys journalKeys value && equalsText ingestAttemptSchema (value.get (js "schema")) &&
      isSafeNonNegativeInteger (value.get (js "dropped_attempts")) &&
      isBoundedArray maxIngestAttempts (isAttemptV2 E) (value.get (js "attempts")) &&
      intAt "dropped_attempts" value + (journalItems value).length ≤ maxSafeInteger &&
      uniqueAttemptIds (journalItems value)) then
    .error (.typeError "journal is structurally invalid")
  else .ok ⟨(intAt "dropped_attempts" value).toNat, journalItems value⟩

end

end Barbaro.Ingest
