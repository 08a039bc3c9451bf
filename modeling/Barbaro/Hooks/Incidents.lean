import Barbaro.Core.CanonicalJson
import Barbaro.Core.Content
import Barbaro.Core.Members
import Barbaro.Nudge.Types

/-!
# Incident markers

A hook that swallows an error leaves a marker: one file for each condition, named by the
digest of the condition, created exclusively and then written. A later call for the same
condition finds the file and does nothing.

Calls run side by side, one system call at a time, and may crash between any two.
-/

namespace Barbaro.Incidents

def incidentSchema : JsString := js "barbaro.incident.v1"
def incidentDetailMaxBytes : ℕ := 1024
def maxIncidentBytes : ℕ := 16 * 1024

inductive IncidentKind
  | hookError | sessionDormant
  deriving DecidableEq, Repr

def IncidentKind.text : IncidentKind → String
  | .hookError => "hook_error"
  | .sessionDormant => "session_dormant"

/-- `INCIDENT_KINDS` -/
def incidentKinds : List String := ["hook_error", "session_dormant"]

/-- What a hook passes to `recordIncident`. -/
structure IncidentCall (E : Host) where
  provider : ParticipatingProvider
  kind : IncidentKind
  event : Option JsString := none
  dedupKey : Option JsString := none
  workstreamId : Option JsString := none
  detail : Option JsString := none
  now : ℤ
  /-- The workstream is that of a membership. -/
  joined : ∀ w, workstreamId = some w → isWorkstreamId w = true
  /-- The clock's time is one a `Date` holds. -/
  dated : (E.isoString now).isSome
  /-- A string of the host is far shorter. -/
  countable : ∀ d, detail = some d → byteLength d ≤ maxSafeInteger

section
variable {E : Host}

def IncidentCall.occurredAt (c : IncidentCall E) : JsString := (E.isoString c.now).get c.dated

/-- `excerptContent(options.detail, INCIDENT_DETAIL_MAX_BYTES)` -/
def IncidentCall.content (c : IncidentCall E) : Option Json :=
  c.detail.map (fun d => excerptContent d incidentDetailMaxBytes)

/-- What tells one condition from another. -/
structure Condition where
  provider : ParticipatingProvider
  kind : IncidentKind
  event : Option JsString
  dedupKey : Option JsString
  /-- The bounded detail. -/
  detail : Option JsString
  deriving DecidableEq, Repr

def IncidentCall.condition (c : IncidentCall E) : Condition where
  provider := c.provider
  kind := c.kind
  event := c.event
  dedupKey := c.dedupKey
  detail := c.content.map (textAt "text")

/-- The texts of a condition, joined by NUL. -/
def Condition.keyText (c : Condition) : JsString :=
  ([0] : JsString).intercalate
    [js c.kind.text, c.provider.text, c.event.getD [], c.dedupKey.getD [], c.detail.getD []]

/-- What is hashed for the name of the marker. -/
def IncidentCall.keyBytes (c : IncidentCall E) : Bytes := utf8 c.condition.keyText

def digestOf (E : Host) (keyBytes : Bytes) : JsString := (E.sha256 keyBytes).take 32

def IncidentCall.digest (c : IncidentCall E) : JsString := digestOf E c.keyBytes

/-- `incident` -/
def IncidentCall.toJson (c : IncidentCall E) : Json :=
  objectOf [("detail", c.content), ("event", c.event.map .str), ("kind", some (.str (js c.kind.text))),
    ("occurred_at", some (.str c.occurredAt)), ("provider", some (.str c.provider.text)),
    ("schema", some (.str incidentSchema)), ("workstream_id", c.workstreamId.map .str)]

/-- The text of the marker, as it is written. -/
def IncidentCall.marker (c : IncidentCall E) : Bytes := utf8 (stableJsonLine c.toJson)

end

/-! ## Markers -/

/-- A file under `logs/incidents/<provider>`. -/
structure MarkerFile where
  provider : ParticipatingProvider
  name : JsString
  bytes : Bytes
  deriving DecidableEq, Repr

/-- The path of a call's marker. -/
def IncidentCall.path {E : Host} (c : IncidentCall E) : ParticipatingProvider × JsString :=
  (c.provider, c.digest ++ js ".json")

def MarkerFile.path (f : MarkerFile) : ParticipatingProvider × JsString := (f.provider, f.name)

/-- `INCIDENT_FILENAME_PATTERN` -/
def incidentFilename (name : JsString) : Option JsString :=
  if (name.take 32).length = 32 ∧ (name.take 32).all isHexDigit ∧ name.drop 32 = js ".json" then some (name.take 32)
  else none

structure IncidentRecord where
  incidentId : JsString
  incident : Json

section
variable (E : Host)

def parseIncident (text : JsString) (expectedProvider : JsString) : Option Json :=
  match Json.parse E.float text with
  | none => none
  | some record =>
    if isObject (some record) && equalsText incidentSchema (record.get (js "schema")) &&
        equalsText expectedProvider (record.get (js "provider")) &&
        incidentKinds.any (fun k => equalsText (js k) (record.get (js "kind"))) &&
        isPattern (fun s => (E.dateParse s).isSome) (record.get (js "occurred_at")) &&
        isOptional isString (record.get (js "event")) &&
        isOptional (isPattern isWorkstreamId) (record.get (js "workstream_id")) then
      some record
    else none

/-- A marker, as the loop of `listIncidents` takes it. -/
def readMarker (f : MarkerFile) : Option IncidentRecord :=
  match incidentFilename f.name with
  | none => none
  | some id =>
    if f.bytes.length ≤ maxIncidentBytes then
      (parseIncident E (bytesToString f.bytes) f.provider.text).map (fun v => ⟨id, v⟩)
    else none

/-- The markers of a provider, in the order of their names. -/
def markersOf (files : List MarkerFile) (provider : ParticipatingProvider) : List MarkerFile :=
  (files.filter (fun f => f.provider = provider)).mergeSort (fun a b => compareUtf16CodeUnits a.name b.name != .gt)

/-- `listIncidents`: the providers come in the order of their names. -/
def listIncidents (storeExists : Bool) (files : List MarkerFile) : List IncidentRecord :=
  if storeExists then [.claude, .codex].flatMap (fun provider => (markersOf files provider).filterMap (readMarker E))
  else []

end

/-! ## Calls side by side -/

inductive CallStatus
  | running | ended | crashed
  deriving DecidableEq, Repr

structure IncidentProcess (E : Host) where
  call : IncidentCall E
  status : CallStatus := .running
  /-- How much of its marker it has written, once it has created it. -/
  written : Option ℕ := none

structure IncidentState (E : Host) where
  /-- There is a `.barbaro` directory. -/
  storeExists : Bool
  files : List MarkerFile := []
  processes : List (IncidentProcess E) := []

/-- A step of one of the calls. -/
inductive IncidentStep (E : Host)
  | start (call : IncidentCall E)
  /-- `open`, with `O_EXCL` -/
  | create (i : ℕ)
  /-- One of the writes of `handle.writeFile`. -/
  | write (i n : ℕ)
  | close (i : ℕ)
  | crash (i : ℕ)

section
variable {E : Host}

/-- More bytes at the end of a file. -/
def MarkerFile.append (path : ParticipatingProvider × JsString) (more : Bytes) (f : MarkerFile) : MarkerFile :=
  if f.path = path then { f with bytes := f.bytes ++ more } else f

/-- The marker is created, unless it is there: then the call ends. -/
def IncidentProcess.create (p : IncidentProcess E) (files : List MarkerFile) :
    Option (IncidentProcess E × List MarkerFile) :=
  if p.status = .running ∧ p.written = none then
    if files.any (fun f => f.path = p.call.path) then some ({ p with status := .ended }, files)
    else some ({ p with written := some 0 }, files ++ [⟨p.call.path.1, p.call.path.2, []⟩])
  else none

def IncidentProcess.write (p : IncidentProcess E) (n : ℕ) (files : List MarkerFile) :
    Option (IncidentProcess E × List MarkerFile) :=
  match p.written with
  | some w =>
    if p.status = .running ∧ 0 < n ∧ w + n ≤ p.call.marker.length then
      some ({ p with written := some (w + n) },
        files.map (MarkerFile.append p.call.path ((p.call.marker.drop w).take n)))
    else none
  | none => none

def IncidentProcess.close (p : IncidentProcess E) (files : List MarkerFile) :
    Option (IncidentProcess E × List MarkerFile) :=
  if p.status = .running ∧ p.written = some p.call.marker.length then some ({ p with status := .ended }, files)
  else none

def IncidentProcess.crash (p : IncidentProcess E) (files : List MarkerFile) :
    Option (IncidentProcess E × List MarkerFile) :=
  if p.status = .running then some ({ p with status := .crashed }, files) else none

/-- A step of the process at an index. -/
def IncidentState.at (s : IncidentState E) (i : ℕ)
    (f : IncidentProcess E → List MarkerFile → Option (IncidentProcess E × List MarkerFile)) :
    Option (IncidentState E) :=
  match s.processes[i]? with
  | some p => (f p s.files).map (fun r => { s with files := r.2, processes := s.processes.set i r.1 })
  | none => none

def IncidentState.step (s : IncidentState E) : IncidentStep E → Option (IncidentState E)
  | .start call =>
    some { s with processes := s.processes ++ [{ call, status := if s.storeExists then .running else .ended }] }
  | .create i => s.at i IncidentProcess.create
  | .write i n => s.at i (fun p => p.write n)
  | .close i => s.at i IncidentProcess.close
  | .crash i => s.at i IncidentProcess.crash

/-- The steps of a run, one after the other. -/
def IncidentState.run (s : IncidentState E) : List (IncidentStep E) → Option (IncidentState E)
  | [] => some s
  | a :: steps =>
    match s.step a with
    | some s' => s'.run steps
    | none => none

/-- The records that `listIncidents` has of a call's marker. -/
def IncidentState.recordsFor (s : IncidentState E) (call : IncidentCall E) : List IncidentRecord :=
  (listIncidents E s.storeExists s.files).filter
    (fun r => r.incidentId == call.digest && equalsText call.provider.text (r.incident.get (js "provider")))

end

end Barbaro.Incidents
