import Barbaro.Output.JsonlStore

/-!
# Validating a lease

A lease says what an actor appears to be doing. It is read and written only after the
validator has found nothing wrong with it; what it finds is collected, field by field, with
the path of each.

* `validateActiveLease`: the issues of a value.
* `ActiveLeaseV1`: a value without issues.
-/

namespace Barbaro.Active

def activeLeaseSchema : JsString := js "barbaro.active.v1"

/-- `/^lease_[0-9a-f]{32}$/` -/
def isLeaseId (s : JsString) : Bool := isId "lease" s

structure ValidationIssue where
  path : JsString
  message : String
  deriving DecidableEq, Repr

/-! ## Date-times -/

/-- The parts of an RFC 3339 date-time. -/
structure DateTimeParts where
  year : ℕ
  month : ℕ
  day : ℕ
  hour : ℕ
  minute : ℕ
  second : ℕ
  offsetHour : ℕ
  offsetMinute : ℕ
  deriving DecidableEq, Repr

/-- `\d{n}`, as a number. -/
def scanNumeral (n : ℕ) (s : JsString) : Option (ℕ × JsString) :=
  if n ≤ s.length ∧ (s.take n).all Json.isDigit then some (Json.ofDigits (s.take n), s.drop n) else none

/-- One of these code units. -/
def scanUnit (units : List UInt16) : JsString → Option JsString
  | [] => none
  | u :: s => if u ∈ units then some s else none

/-- `(?:\.\d+)?` -/
def scanFraction : JsString → JsString
  | [] => []
  | u :: s => if u = 46 ∧ s.head?.any Json.isDigit then s.dropWhile Json.isDigit else u :: s

/-- `(?:[Zz]|[+-](\d{2}):(\d{2}))$` -/
def scanOffset (s : JsString) : Option (ℕ × ℕ) :=
  if s = [90] ∨ s = [122] then some (0, 0)
  else do
    let s ← scanUnit [43, 45] s
    let (hour, s) ← scanNumeral 2 s
    let s ← scanUnit [58] s
    let (minute, s) ← scanNumeral 2 s
    if s = [] then some (hour, minute) else none

/-- `RFC3339_PATTERN.exec` -/
def scanDateTime (s : JsString) : Option DateTimeParts := do
  let (year, s) ← scanNumeral 4 s
  let s ← scanUnit [45] s
  let (month, s) ← scanNumeral 2 s
  let s ← scanUnit [45] s
  let (day, s) ← scanNumeral 2 s
  let s ← scanUnit [84, 116] s
  let (hour, s) ← scanNumeral 2 s
  let s ← scanUnit [58] s
  let (minute, s) ← scanNumeral 2 s
  let s ← scanUnit [58] s
  let (second, s) ← scanNumeral 2 s
  let (offsetHour, offsetMinute) ← scanOffset (scanFraction s)
  return { year, month, day, hour, minute, second, offsetHour, offsetMinute }

def isLeapYear (year : ℕ) : Bool := year % 4 == 0 && (year % 100 != 0 || year % 400 == 0)

def monthDays (leapYear : Bool) : List ℕ :=
  [31, if leapYear then 29 else 28, 31, 30, 31, 30, 31, 31, 30, 31, 30, 31]

/-- The last day of a month, 0 where there is no such month. -/
def maximumDay (year month : ℕ) : ℕ :=
  if 1 ≤ month ∧ month ≤ 12 then ((monthDays (isLeapYear year))[month - 1]?).getD 0 else 0

/-- The calendar has this date, and a day this time. -/
def DateTimeParts.real (t : DateTimeParts) : Bool :=
  1 ≤ t.month && t.month ≤ 12 && 1 ≤ t.day && t.day ≤ maximumDay t.year t.month && t.hour ≤ 23 &&
    t.minute ≤ 59 && t.second ≤ 59 && t.offsetHour ≤ 23 && t.offsetMinute ≤ 59

/-! ## Fields -/

section
variable (pattern : JsString → Bool) (value : Option Json) (path : JsString)

def validateString : List ValidationIssue :=
  match value with
  | some (.str s) =>
    if s = [] then [⟨path, "must not be empty"⟩]
    else if pattern s then []
    else [⟨path, "has an invalid format"⟩]
  | _ => [⟨path, "must be a string"⟩]

def validateSafeInteger (minimum : ℤ) : List ValidationIssue :=
  if isSafeInteger minimum value then []
  else [⟨path, s!"must be a safe integer between {minimum} and {maxSafeInteger}"⟩]

/-- The time of a date-time, if there is nothing wrong with it. -/
def timestampMillis (E : Host) : List ValidationIssue × Option ℤ :=
  match value with
  | some (.str s) =>
    match scanDateTime s with
    | none => ([⟨path, "must be an RFC 3339 date-time string"⟩], none)
    | some t =>
      if !t.real then ([⟨path, "must be a real RFC 3339 date-time"⟩], none)
      else
        match E.dateParse s with
        | none => ([⟨path, "must be a real date-time"⟩], none)
        | some milliseconds => ([], some milliseconds)
  | _ => ([⟨path, "must be an RFC 3339 date-time string"⟩], none)

def validateBoolean : List ValidationIssue :=
  if isBoolean value then [] else [⟨path, "must be a boolean"⟩]

/-- `value !== a && value !== b && …` -/
def validateEnum (texts : List String) : List ValidationIssue :=
  if texts.any (fun t => equalsText (js t) value) then [] else [⟨path, "has an invalid value"⟩]

/-- A field that may be absent. -/
def validateOptional (validate : Option Json → JsString → List ValidationIssue) : List ValidationIssue :=
  if value = none then [] else validate value path

end

/-- The path of a property. -/
def propertyPath (path key : JsString) : JsString := path ++ 46 :: key

/-- The path of an element. -/
def elementPath (path : JsString) (index : ℕ) : JsString := path ++ 91 :: Json.decDigits index ++ [93]

/-- The keys of an object that are not allowed. -/
def rejectUnknownKeys (fields : List (JsString × Json)) (allowed : List String) (path : JsString) :
    List ValidationIssue :=
  fields.filterMap fun f =>
    if allowed.any (fun k => js k == f.1) then none else some ⟨propertyPath path f.1, "is not allowed"⟩

/-- The elements of an array, each with its path. -/
def validateArray (value : Option Json) (path : JsString)
    (validate : Json → JsString → List ValidationIssue) : List ValidationIssue :=
  match value with
  | some (.arr vs) => vs.zipIdx.flatMap (fun v => validate v.1 (elementPath path v.2))
  | _ => [⟨path, "must be an array"⟩]

/-- The properties of an object. -/
def validateObject (value : Option Json) (path : JsString)
    (validate : List (JsString × Json) → List ValidationIssue) : List ValidationIssue :=
  match value with
  | some (.obj fs) => validate fs
  | _ => [⟨path, "must be an object"⟩]

/-- `/^[A-Za-z]:\//` -/
def hasDrive : JsString → Bool
  | u :: v :: w :: _ =>
    ((65 ≤ u.toNat && u.toNat ≤ 90) || (97 ≤ u.toNat && u.toNat ≤ 122)) && v == 58 && w == 47
  | _ => false

/-- The path lies inside the workspace. -/
def isRepoPath (s : JsString) : Bool :=
  s.head? != some 47 && !hasDrive s && !s.contains 92 && !s.contains 0 &&
    !(s.splitOn 47).contains (js "..")

def validateRepoPath (value : Option Json) (path : JsString) : List ValidationIssue :=
  match value with
  | some (.str s) =>
    if s = [] then [⟨path, "must not be empty"⟩]
    else if isRepoPath s then []
    else [⟨path, "must be a workspace-relative POSIX path without '..'"⟩]
  | _ => [⟨path, "must be a string"⟩]

def anyText : JsString → Bool := fun _ => true

/-- `value === true` -/
def isTrue : Option Json → Bool
  | some (.bool b) => b
  | _ => false

def validateRedaction (value : Json) (path : JsString) : List ValidationIssue :=
  validateObject (some value) path fun fs =>
    rejectUnknownKeys fs ["kind", "count"] path ++
    validateString anyText (value.get (js "kind")) (propertyPath path (js "kind")) ++
    validateSafeInteger (value.get (js "count")) (propertyPath path (js "count")) 1

def validateContent (value : Option Json) (path : JsString) : List ValidationIssue :=
  validateObject value path fun fs =>
    let get := fun key => (Json.obj fs).get (js key)
    let pathOf := fun key => propertyPath path (js key)
    rejectUnknownKeys fs ["text", "fidelity", "truncated", "original_utf8_bytes", "redactions"] path ++
    (if isString (get "text") then [] else [⟨pathOf "text", "must be a string"⟩]) ++
    validateEnum (get "fidelity") (pathOf "fidelity") ["verbatim", "normalized", "excerpt", "redacted"] ++
    validateBoolean (get "truncated") (pathOf "truncated") ++
    (if (get "original_utf8_bytes").isSome then
      validateSafeInteger (get "original_utf8_bytes") (pathOf "original_utf8_bytes") 0
    else if isTrue (get "truncated") then
      [⟨pathOf "original_utf8_bytes", "is required when content is truncated"⟩]
    else []) ++
    validateArray (get "redactions") (pathOf "redactions") validateRedaction

def validateCurrentAction (E : Host) (value : Option Json) (path : JsString) : List ValidationIssue :=
  validateObject value path fun fs =>
    let get := fun key => (Json.obj fs).get (js key)
    let pathOf := fun key => propertyPath path (js key)
    rejectUnknownKeys fs ["kind", "tool_name", "path", "command", "started_at"] path ++
    validateEnum (get "kind") (pathOf "kind") ["file_change", "command", "test", "tool", "other"] ++
    validateOptional (get "tool_name") (pathOf "tool_name") (validateString anyText) ++
    validateOptional (get "path") (pathOf "path") validateRepoPath ++
    validateOptional (get "command") (pathOf "command") validateContent ++
    validateOptional (get "started_at") (pathOf "started_at") (fun v p => (timestampMillis v p E).1)

def validateClaim (value : Json) (path : JsString) : List ValidationIssue :=
  validateObject (some value) path fun fs =>
    rejectUnknownKeys fs ["path", "mode", "confidence"] path ++
    validateRepoPath (value.get (js "path")) (propertyPath path (js "path")) ++
    (if equalsText (js "write") (value.get (js "mode")) then []
      else [⟨propertyPath path (js "mode"), "must equal 'write'"⟩]) ++
    validateEnum (value.get (js "confidence")) (propertyPath path (js "confidence")) ["exact", "inferred"]

def validateSourceRef (value : Json) (path : JsString) : List ValidationIssue :=
  validateObject (some value) path fun fs =>
    let get := fun key => value.get (js key)
    let pathOf := fun key => propertyPath path (js key)
    rejectUnknownKeys fs ["trace_id", "trace_path", "line_start", "line_end", "native_record_ids"] path ++
    validateString anyText (get "trace_id") (pathOf "trace_id") ++
    validateOptional (get "trace_path") (pathOf "trace_path") (validateString anyText) ++
    validateOptional (get "line_start") (pathOf "line_start") (fun v p => validateSafeInteger v p 1) ++
    validateOptional (get "line_end") (pathOf "line_end") (fun v p => validateSafeInteger v p 1 ++
      match get "line_start", v with
      | none, _ => [⟨pathOf "line_start", "is required when line_end is present"⟩]
      | some (.num (.int start)), some (.num (.int stop)) =>
        if stop < start then [⟨p, "must not precede line_start"⟩] else []
      | _, _ => []) ++
    validateOptional (get "native_record_ids") (pathOf "native_record_ids") (fun v p =>
      validateArray v p (fun v p => validateString anyText (some v) p))

/-! ## Any JSON value -/

mutual

/-- The numbers in a value that JSON cannot express. -/
def validateJsonValue : Json → JsString → List ValidationIssue
  | .num n, path => if isInfinite n then [⟨path, "must be a finite JSON number"⟩] else []
  | .arr vs, path => validateJsonItems vs path 0
  | .obj fs, path => validateJsonFields fs path
  | _, _ => []

def validateJsonItems : List Json → JsString → ℕ → List ValidationIssue
  | [], _, _ => []
  | v :: vs, path, index =>
    validateJsonValue v (elementPath path index) ++ validateJsonItems vs path (index + 1)

def validateJsonFields : List (JsString × Json) → JsString → List ValidationIssue
  | [], _ => []
  | (key, v) :: fs, path => validateJsonValue v (propertyPath path key) ++ validateJsonFields fs path

end

def validateExtension (path : JsString) (extension : JsString × Json) : List ValidationIssue :=
  (if isProvider extension.1 then []
    else [⟨propertyPath path extension.1, "has an invalid provider key"⟩]) ++
  validateObject (some extension.2) (propertyPath path extension.1) fun _ =>
    validateJsonValue extension.2 (propertyPath path extension.1)

/-! ## The lease -/

def topLevelKeys : List String :=
  ["schema", "lease_id", "provider", "session_id", "workstream_id", "turn_id", "agent_id", "state",
    "intent", "current_action", "claims", "unknown_write_scope", "revision", "updated_at", "expires_at",
    "source_refs", "extensions"]

/-- The path of a property of the lease. -/
def leasePath (key : String) : JsString := propertyPath (js "$") (js key)

/-- A lease expires after it was updated. -/
def validateLifetime (updatedAt expiresAt : Option ℤ) : List ValidationIssue :=
  match updatedAt, expiresAt with
  | some updated, some expires =>
    if expires ≤ updated then [⟨leasePath "expires_at", "must be later than updated_at"⟩] else []
  | _, _ => []

/-- What is wrong with a value, as a lease. -/
def validateActiveLease (E : Host) (value : Json) : List ValidationIssue :=
  validateObject (some value) (js "$") fun fs =>
    let get := fun key => value.get (js key)
    let updatedAt := timestampMillis (get "updated_at") (leasePath "updated_at") E
    let expiresAt := timestampMillis (get "expires_at") (leasePath "expires_at") E
    rejectUnknownKeys fs topLevelKeys (js "$") ++
    validateJsonValue value (js "$") ++
    (if equalsText activeLeaseSchema (get "schema") then []
      else [⟨leasePath "schema", "must equal 'barbaro.active.v1'"⟩]) ++
    validateString isLeaseId (get "lease_id") (leasePath "lease_id") ++
    validateString isProvider (get "provider") (leasePath "provider") ++
    validateString isSessionId (get "session_id") (leasePath "session_id") ++
    validateOptional (get "workstream_id") (leasePath "workstream_id") (validateString isWorkstreamId) ++
    validateOptional (get "turn_id") (leasePath "turn_id") (validateString isTurnId) ++
    validateString anyText (get "agent_id") (leasePath "agent_id") ++
    validateEnum (get "state") (leasePath "state") ["working", "waiting", "blocked", "idle"] ++
    validateOptional (get "intent") (leasePath "intent") validateContent ++
    validateOptional (get "current_action") (leasePath "current_action") (validateCurrentAction E) ++
    validateArray (get "claims") (leasePath "claims") validateClaim ++
    validateBoolean (get "unknown_write_scope") (leasePath "unknown_write_scope") ++
    validateSafeInteger (get "revision") (leasePath "revision") 1 ++
    updatedAt.1 ++ expiresAt.1 ++ validateLifetime updatedAt.2 expiresAt.2 ++
    validateOptional (get "source_refs") (leasePath "source_refs") (fun v p =>
      validateArray v p validateSourceRef) ++
    validateOptional (get "extensions") (leasePath "extensions") (fun v p =>
      validateObject v p (fun extensions => extensions.flatMap (validateExtension p)))

/-- A lease that was validated. -/
structure ActiveLeaseV1 (E : Host) where
  json : Json
  valid : validateActiveLease E json = []

/-- An actor of a session: the main agent or a subagent. -/
structure ActiveActorKey where
  provider : JsString
  sessionId : JsString
  agentId : JsString
  deriving DecidableEq, Repr

def validateActiveActorKey (actor : ActiveActorKey) : List ValidationIssue :=
  validateString isProvider (some (.str actor.provider)) (leasePath "provider") ++
  validateString isSessionId (some (.str actor.sessionId)) (leasePath "session_id") ++
  validateString anyText (some (.str actor.agentId)) (leasePath "agent_id")

/-- The revision of a lease that was validated. -/
def leaseRevision (lease : Json) : ℕ := (intAt "revision" lease).toNat

def actorFromLease (lease : Json) : ActiveActorKey where
  provider := textAt "provider" lease
  sessionId := textAt "session_id" lease
  agentId := textAt "agent_id" lease

namespace ActiveLeaseV1

variable {E : Host} (lease : ActiveLeaseV1 E)

def leaseId : JsString := textAt "lease_id" lease.json
def state : JsString := textAt "state" lease.json
def expiresAt : JsString := textAt "expires_at" lease.json
def revision : ℕ := leaseRevision lease.json
def actor : ActiveActorKey := actorFromLease lease.json

end ActiveLeaseV1

end Barbaro.Active
