import Barbaro.Core.Id
import Barbaro.Core.Members
import Barbaro.Nudge.Types

/-!
# The journal of observed reads

For every session the hooks keep a bounded journal of what became of the reads they saw.
A hook that has seen something new of an invocation replaces the row of the invocation,
sorts the rows by time and keeps the last ones; a counter says how many rows were left
out. A journal that does not pass the strict reader is never written again.
-/

namespace Barbaro.Observed

def readObservationSchema : JsString := js "barbaro.read-observation.v1"
def maxReadObservations : ℕ := 16
def maxJournalBytes : ℕ := 16384

/-- `STATES` -/
inductive ObservationState
  | reserved | staged | committed | refused
  deriving DecidableEq, Repr

def ObservationState.text : ObservationState → String
  | .reserved => "reserved"
  | .staged => "staged"
  | .committed => "committed"
  | .refused => "refused"

inductive ObservationReason
  | reserved | candidateStaged | modelDeliveryVerified | unsupportedProducerOrShape | outputNotEligible
  | commitNotVerified | commandFailed | reservationRefused | nativeTraceLimit
  deriving DecidableEq, Repr

def ObservationReason.text : ObservationReason → String
  | .reserved => "reserved"
  | .candidateStaged => "candidate_staged"
  | .modelDeliveryVerified => "model_delivery_verified"
  | .unsupportedProducerOrShape => "unsupported_producer_or_shape"
  | .outputNotEligible => "output_not_eligible"
  | .commitNotVerified => "commit_not_verified"
  | .commandFailed => "command_failed"
  | .reservationRefused => "reservation_refused"
  | .nativeTraceLimit => "native_trace_limit"

/-- `reasons` -/
def reasons : List String :=
  ["reserved", "candidate_staged", "model_delivery_verified", "unsupported_producer_or_shape",
    "output_not_eligible", "commit_not_verified", "command_failed", "reservation_refused", "native_trace_limit"]

inductive CodexReadProducer
  | v0_153_2 | v0_153_3
  deriving DecidableEq, Repr

def CodexReadProducer.text : CodexReadProducer → String
  | .v0_153_2 => "0.153.2"
  | .v0_153_3 => "0.153.3"

inductive LimitSource
  | file | record
  deriving DecidableEq, Repr

def LimitSource.text : LimitSource → String
  | .file => "file"
  | .record => "record"

structure NativeTraceLimit where
  kind : LimitSource
  observedBytes : ℕ
  maximumBytes : ℕ
  deriving DecidableEq, Repr

def NativeTraceLimit.toJson (l : NativeTraceLimit) : Json :=
  objectOf [("kind", some (.str (js l.kind.text))), ("maximum_bytes", some (natJson l.maximumBytes)),
    ("observed_bytes", some (natJson l.observedBytes))]

structure ReadObservation where
  invocationSha256 : JsString
  createdAt : JsString
  updatedAt : JsString
  state : ObservationState
  reason : ObservationReason
  nativeTraceLimit : Option NativeTraceLimit := none
  producerVersion : Option CodexReadProducer := none
  runtimeCliSha256 : Option JsString := none
  runtimeBuildSha256 : Option JsString := none
  deriving DecidableEq, Repr

def codexAdapter (producer : JsString) : JsString := js "codex-" ++ producer ++ js "-literal-exec"
def claudeAdapter : JsString := js "claude-2.1.261-foreground-batch"
def defaultProducer : JsString := js "0.153.2"

/-- The `adapter` of a row. -/
def adapterFor : ParticipatingProvider → Option CodexReadProducer → JsString
  | .codex, producer => codexAdapter ((producer.map (fun p => js p.text)).getD defaultProducer)
  | .claude, _ => claudeAdapter

def ReadObservation.toJson (provider : ParticipatingProvider) (r : ReadObservation) : Json :=
  objectOf [("adapter", some (.str (adapterFor provider r.producerVersion))), ("created_at", some (.str r.createdAt)),
    ("invocation_sha256", some (.str r.invocationSha256)),
    ("native_trace_limit", r.nativeTraceLimit.map NativeTraceLimit.toJson),
    ("producer_version", r.producerVersion.map (fun p => .str (js p.text))), ("reason", some (.str (js r.reason.text))),
    ("runtime_build_sha256", r.runtimeBuildSha256.map .str), ("runtime_cli_sha256", r.runtimeCliSha256.map .str),
    ("state", some (.str (js r.state.text))), ("updated_at", some (.str r.updatedAt))]

/-! ## Reading -/

section
variable (E : Host) (provider : ParticipatingProvider) (sessionId : JsString)

/-- `date` -/
def isDate : Option Json → Bool
  | some (.str s) =>
    match E.dateParse s with
    | some t => E.isoString t == some s
    | none => false
  | _ => false

/-- `reasonState` -/
def reasonState (reason : Option Json) : ObservationState :=
  if equalsText (js "reserved") reason then .reserved
  else if equalsText (js "candidate_staged") reason then .staged
  else if equalsText (js "model_delivery_verified") reason then .committed
  else .refused

def isCodexReadProducer (v : Option Json) : Bool :=
  equalsText (js "0.153.2") v || equalsText (js "0.153.3") v

/-- `validNativeTraceLimit` -/
def validNativeTraceLimit : Option Json → Bool
  | some (.obj fs) =>
    let v : Json := .obj fs
    !unknownKeys ["kind", "observed_bytes", "maximum_bytes"] v && isOneOf ["file", "record"] (v.get (js "kind")) &&
      isSafeInteger (-maxSafeInteger) (v.get (js "maximum_bytes")) && 0 < intAt "maximum_bytes" v &&
      isSafeInteger (-maxSafeInteger) (v.get (js "observed_bytes")) &&
      intAt "maximum_bytes" v < intAt "observed_bytes" v
  | _ => false

def rowKeys : List String :=
  ["invocation_sha256", "created_at", "updated_at", "state", "reason", "adapter", "producer_version",
    "runtime_cli_sha256", "runtime_build_sha256", "native_trace_limit"]

/-- `row.adapter`, as it has to be. -/
def expectedAdapter (row : Json) : JsString :=
  match provider with
  | .codex =>
    match row.get (js "producer_version") with
    | none | some .null => codexAdapter defaultProducer
    | some v => codexAdapter (toText v)
  | .claude => claudeAdapter

/-- What the loop checks of a row, but for its invocation being a new one. -/
def isRow (row : Json) : Bool :=
  isObject (some row) && !unknownKeys rowKeys row && isPattern isSha256Hex (row.get (js "invocation_sha256")) &&
    isDate E (row.get (js "created_at")) && isDate E (row.get (js "updated_at")) &&
    compareUtf16CodeUnits (textAt "created_at" row) (textAt "updated_at" row) != .gt &&
    [ObservationState.reserved, .staged, .committed, .refused].any
      (fun s => equalsText (js s.text) (row.get (js "state"))) &&
    isOneOf reasons (row.get (js "reason")) &&
    equalsText (js (reasonState (row.get (js "reason"))).text) (row.get (js "state")) &&
    !(provider == .codex && equalsText (js "committed") (row.get (js "state")) &&
      !isCodexReadProducer (row.get (js "producer_version"))) &&
    (equalsText (js "native_trace_limit") (row.get (js "reason")) == (row.get (js "native_trace_limit")).isSome) &&
    isOptional (fun v => provider == .codex && validNativeTraceLimit v) (row.get (js "native_trace_limit")) &&
    equalsText (expectedAdapter provider row) (row.get (js "adapter")) &&
    isOptional (fun v => provider == .codex && isCodexReadProducer v) (row.get (js "producer_version")) &&
    isOptional (isPattern isSha256Hex) (row.get (js "runtime_cli_sha256")) &&
    isOptional (isPattern isSha256Hex) (row.get (js "runtime_build_sha256"))

/-- The loop over the rows, with the invocations seen. -/
def rowsOk : List JsString → List Json → Bool
  | _, [] => true
  | seen, row :: rows =>
    isRow E provider row && !seen.contains (textAt "invocation_sha256" row) &&
      rowsOk (textAt "invocation_sha256" row :: seen) rows

inductive ReadObservationResult
  | ok (omitted : ℕ) (rows : List Json)
  | missing
  | invalid
  | refused

/-- What is checked of a parsed journal. -/
def journalOf (value : Json) : ReadObservationResult :=
  if isObject (some value) && !unknownKeys ["schema", "provider", "session_id", "omitted", "observations"] value &&
      equalsText readObservationSchema (value.get (js "schema")) &&
      equalsText provider.text (value.get (js "provider")) &&
      equalsText sessionId (value.get (js "session_id")) &&
      isSafeNonNegativeInteger (value.get (js "omitted")) then
    match value.get (js "observations") with
    | some (.arr rows) =>
      if rows.length ≤ maxReadObservations && rowsOk E provider [] rows then .ok (intAt "omitted" value).toNat rows
      else .invalid
    | _ => .invalid
  else .invalid

/-- `readReadObservations`, of the journal's file. A file past the bound is refused. -/
def readReadObservations : Option Bytes → ReadObservationResult
  | none => .missing
  | some bytes =>
    if maxJournalBytes < bytes.length then .refused
    else
      match Json.parse E.float (bytesToString bytes) with
      | none => .invalid
      | some value => journalOf E provider sessionId value

end

/-! ## Writing -/

/-- The state that goes with a reason. -/
def ObservationReason.state : ObservationReason → ObservationState
  | .reserved => .reserved
  | .candidateStaged => .staged
  | .modelDeliveryVerified => .committed
  | _ => .refused

/-- What a hook passes, and what the call meets. -/
structure HookReadCall where
  /-- `options.toolUseId`, if it is a string. -/
  toolUseId : Option JsString
  /-- `options.turn`, as it is written in the invocation's name. -/
  turn : Json
  state : ObservationState
  reason : ObservationReason
  pinnedProducer : Option CodexReadProducer := none
  nativeLimit : Option NativeTraceLimit := none
  now : ℤ
  /-- The files of the running program, where they could be read. -/
  cli : Option Bytes := none
  build : Option Bytes := none
  /-- Every hook passes the state that goes with its reason. -/
  passed : state = reason.state

section
variable (E : Host) (localeCompare : JsString → JsString → Ordering) (provider : ParticipatingProvider)
  (sessionId : JsString)

/-- `a.updated_at.localeCompare(b.updated_at) || a.invocation_sha256.localeCompare(b.invocation_sha256)` -/
def compareRows (a b : Json) : Ordering :=
  (localeCompare (textAt "updated_at" a) (textAt "updated_at" b)).then
    (localeCompare (textAt "invocation_sha256" a) (textAt "invocation_sha256" b))

def journalJson (omitted : ℕ) (rows : List Json) : Json :=
  objectOf [("observations", some (.arr rows)), ("omitted", some (natJson omitted)), ("provider", some (.str provider.text)),
    ("schema", some (.str readObservationSchema)), ("session_id", some (.str sessionId))]

/-- The file `writeJsonFileAtomically` leaves. -/
def journalFile (omitted : ℕ) (rows : List Json) : Bytes :=
  utf8 (stableJsonLine (journalJson provider sessionId omitted rows))

/-- `hash(JSON.stringify([options.toolUseId, options.turn]))` -/
def invocationOf (toolUseId : JsString) (turn : Json) : JsString :=
  E.sha256 (utf8 (Json.arr [.str toolUseId, turn]).render)

/-- The producer that a row names. -/
def producerAt (row : Json) : Option CodexReadProducer :=
  if equalsText (js "0.153.2") (row.get (js "producer_version")) then some .v0_153_2
  else if equalsText (js "0.153.3") (row.get (js "producer_version")) then some .v0_153_3
  else none

/-- The first checks of `observeHookRead`: the tool use is named, and a limit comes with
its reason. -/
def HookReadCall.admitted (call : HookReadCall) : Bool :=
  call.toolUseId.isSome && ((call.reason == .nativeTraceLimit) == call.nativeLimit.isSome) &&
    match call.nativeLimit with
    | none => true
    | some l => provider == .codex && call.state == .refused && validNativeTraceLimit (some l.toJson)

def HookReadCall.producer (call : HookReadCall) (old : Option Json) : Option CodexReadProducer :=
  match provider with
  | .codex => call.pinnedProducer.or (old.bind producerAt)
  | .claude => none

/-- The row that is written, at the instant `now`. -/
def newRow (call : HookReadCall) (invocation now : JsString) (old : Option Json) : ReadObservation where
  invocationSha256 := invocation
  createdAt := (old.map (textAt "created_at")).getD now
  updatedAt := now
  state := call.state
  reason := call.reason
  nativeTraceLimit := call.nativeLimit
  producerVersion := call.producer provider old
  runtimeCliSha256 := call.cli.map E.sha256
  runtimeBuildSha256 := call.build.map E.sha256

/-- The rows with the new one, sorted. -/
def sortedRows (rows : List Json) (row : Json) : List Json :=
  (rows.filter (fun r => textAt "invocation_sha256" r != textAt "invocation_sha256" row) ++ [row]).mergeSort
    (fun a b => compareRows localeCompare a b != .gt)

/-- Under the lock: the counter and the rows the journal gets, if it is written. -/
def observeRows (call : HookReadCall) (invocation : JsString) (omitted : ℕ) (rows : List Json) :
    Option (ℕ × List Json) :=
  let old := rows.find? (fun row => textAt "invocation_sha256" row == invocation)
  match E.isoString call.now with
  | none => none
  | some now =>
    if old.any (fun row => equalsText (js "committed") (row.get (js "state"))) then none
    else if old.any (fun row => compareUtf16CodeUnits now (textAt "updated_at" row) == .lt) then none
    else if provider == .codex && call.state == .committed && (call.producer provider old).isNone then none
    else
      let sorted := sortedRows localeCompare rows ((newRow E provider call invocation now old).toJson provider)
      let total := omitted + (sorted.length - maxReadObservations)
      if total ≤ maxSafeInteger then some (total, sorted.drop (sorted.length - maxReadObservations)) else none

/-- `observeHookRead`: the invocation that was recorded and the file written, if any. -/
def observeHookRead (call : HookReadCall) (file : Option Bytes) : Option (JsString × Bytes) :=
  match call.toolUseId with
  | none => none
  | some toolUseId =>
    if call.admitted provider then
      let invocation := invocationOf E toolUseId call.turn
      match readReadObservations E provider sessionId file with
      | .ok omitted rows =>
        (observeRows E localeCompare provider call invocation omitted rows).map
          (fun j => (invocation, journalFile provider sessionId j.1 j.2))
      | .missing =>
        (observeRows E localeCompare provider call invocation 0 []).map
          (fun j => (invocation, journalFile provider sessionId j.1 j.2))
      | _ => none
    else none

end

end Barbaro.Observed
