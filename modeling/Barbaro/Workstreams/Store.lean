import Barbaro.Hooks.Admission

/-!
# The store of workstreams

A workstream is a record `<ws_id>.json`; that its name is taken is told by a second file,
the claim `names/<name>`, which holds the id. The claim is an index only: a name resolves
when its claim points at a record that still carries the name. `create` writes the claim
and then the record, `setStatus` the record alone, both under the lock of the store, and
each file is replaced as a whole.

An operation is given as what it would write, in order, and what it then returns: a crash
leaves the first of its writes.
-/

namespace Barbaro.Workstreams

def workstreamSchema : JsString := js "barbaro.workstream.v1"

def maxRecordBytes : ℕ := 16 * 1024
def maxClaimBytes : ℕ := 1024

/-- The files of the store: the claims by name, the records by id. -/
structure StoreFiles where
  claims : JsString → Option Bytes
  records : JsString → Option Bytes

inductive WorkstreamCreator
  | session (provider sessionId : JsString)
  | cli
  deriving DecidableEq, Repr

structure CreateWorkstreamOptions where
  name : JsString
  title : Option JsString := none
  createdBy : WorkstreamCreator
  /-- `(options.now ?? new Date()).getTime()`, nothing for a time that is none. -/
  now : Option ℤ
  deriving DecidableEq, Repr

/-- The exceptions of the store. -/
inductive WorkstreamFailure
  | failure (f : Failure)
  /-- `WorkstreamNameTakenError` -/
  | nameTaken (existing : Json)
  /-- `WorkstreamNotFoundError` -/
  | notFound (reference : JsString)
  /-- `InvalidWorkstreamNameError` -/
  | invalidName (requested : JsString)

/-- The message of an exception of the store's own. -/
def WorkstreamFailure.message : WorkstreamFailure → Option JsString
  | .failure _ => none
  | .nameTaken existing => some (js "workstream " ++ quoted (textAt "name" existing) ++
      js " already exists (" ++ textAt "status" existing ++
      js "); join it, reopen it, or choose another name")
  | .notFound reference => some (js "no workstream named " ++ Json.quote reference)
  | .invalidName requested => some (invalidNameMessage requested)

/-! ## Titles and creators -/

def normalizeTitle : Option JsString → Except WorkstreamFailure (Option JsString)
  | none => .ok none
  | some title =>
    if trim title = [] then .ok none
    else if byteLength (trim title) > 512 then
      .error (.failure (.typeError "workstream title must be at most 512 UTF-8 bytes"))
    else .ok (some (trim title))

def validateCreator : WorkstreamCreator → Except WorkstreamFailure Unit
  | .cli => .ok ()
  | .session provider sessionId =>
    if !isProvider provider then
      .error (.failure (.typeError s!"Invalid creator provider: {messageText (Json.quote provider)}"))
    else if !isSessionId sessionId then
      .error (.failure (.typeError s!"Invalid creator session_id: {messageText (Json.quote sessionId)}"))
    else .ok ()

def WorkstreamCreator.toJson : WorkstreamCreator → Json
  | .session provider sessionId => .obj [(js "provider", .str provider), (js "session_id", .str sessionId)]
  | .cli => .obj [(js "kind", .str (js "cli"))]

/-! ## Reading -/

def isCreator : Option Json → Bool
  | some (.obj fs) =>
    if equalsText (js "cli") (Json.lookup (js "kind") fs) then fs.length == 1
    else isPattern isProvider (Json.lookup (js "provider") fs) &&
      isPattern isSessionId (Json.lookup (js "session_id") fs)
  | _ => false

/-- `WORKSTREAM_STATUSES.includes(value)` -/
def isStatus (v : Option Json) : Bool :=
  equalsText WorkstreamStatus.open.text v || equalsText WorkstreamStatus.completed.text v

section
variable (E : Host)

/-- `Number.isFinite(Date.parse(value))` of a string. -/
def isDate : Option Json → Bool
  | some (.str s) => (E.dateParse s).isSome
  | _ => false

/-- The structural checks of `parseWorkstream`. -/
def isWorkstream (expectedId : Option JsString) (v : Json) : Bool :=
  isPattern isWorkstreamId (v.get (js "workstream_id")) &&
    expectedId.all (fun id => equalsText id (v.get (js "workstream_id"))) &&
    isPattern isWorkstreamName (v.get (js "name")) && isOptional isString (v.get (js "title")) &&
    isStatus (v.get (js "status")) && isDate E (v.get (js "created_at")) &&
    isDate E (v.get (js "updated_at")) && isSafePositiveInteger (v.get (js "revision")) &&
    isCreator (v.get (js "created_by"))

/-- The record is the parsed value itself, with whatever other members it has. -/
def parseWorkstream (text : JsString) (expectedId : Option JsString) : Except WorkstreamFailure Json :=
  match Json.parse E.float text with
  | none => .error (.failure .syntaxError)
  | some value =>
    if !isObject (some value) then
      .error (.failure (.typeError "Workstream record must be a JSON object"))
    else if !equalsText workstreamSchema (value.get (js "schema")) then
      .error (.failure (.typeError "Unsupported workstream schema"))
    else if !isWorkstream E expectedId value then
      .error (.failure (.typeError "Workstream record is structurally invalid"))
    else .ok value

/-- `readUtf8File` -/
def readUtf8File (path : JsString) (maximumBytes : ℕ) : Option Bytes →
    Except WorkstreamFailure (Option JsString)
  | none => .ok none
  | some bytes =>
    if bytes.length > maximumBytes then
      .error (.failure (.inputLimit
        s!"Barbaro store file {messageText path} exceeds {maximumBytes} bytes" .file maximumBytes none))
    else .ok (some (bytesToString bytes))

def recordPath (id : JsString) : JsString := js "workstreams/" ++ id ++ js ".json"
def claimPath (name : JsString) : JsString := js "workstreams/names/" ++ name

/-- Read one record by ID. -/
def get (files : StoreFiles) (id : JsString) : Except WorkstreamFailure (Option Json) :=
  if !isWorkstreamId id then
    .error (.failure (.typeError s!"Invalid workstream_id: {messageText (Json.quote id)}"))
  else do
    match ← readUtf8File (recordPath id) maxRecordBytes (files.records id) with
    | none => return none
    | some text => return some (← parseWorkstream E text (some id))

/-- The id a claim points at, if it is a claim. -/
def claimedId (claimText : JsString) : Option JsString :=
  match Json.parse E.float claimText with
  | some claim => (textAt? "workstream_id" claim).filter isWorkstreamId
  | none => none

/-- `#resolveName`: a claim binds a name to a record exactly as long as that record still
says so. -/
def resolveName (files : StoreFiles) (name : JsString) : Except WorkstreamFailure (Option Json) := do
  match ← readUtf8File (claimPath name) maxClaimBytes (files.claims name) with
  | none => return none
  | some claimText =>
    match claimedId E claimText with
    | none => return none
    | some id =>
      match get E files id with
      | .ok (some record) => return if textAt? "name" record = some name then some record else none
      | _ => return none

/-- Resolve a full ID or a name. -/
def resolve (files : StoreFiles) (reference : JsString) : Except WorkstreamFailure (Option Json) :=
  if isWorkstreamId reference then get E files reference
  else if !isWorkstreamName reference then .ok none
  else resolveName E files reference

/-! ## Writing -/

/-- One atomic replacement of a file. -/
inductive Write
  | claim (name : JsString) (value : Json)
  | record (id : JsString) (value : Json)

/-- `writeJsonFileAtomically` -/
def fileBytes (v : Json) : Bytes := utf8 (stableJsonLine v)

def Write.apply (files : StoreFiles) : Write → StoreFiles
  | .claim name value => { files with claims := Function.update files.claims name (some (fileBytes value)) }
  | .record id value => { files with records := Function.update files.records id (some (fileBytes value)) }

def applyWrites (files : StoreFiles) (writes : List Write) : StoreFiles := writes.foldl Write.apply files

/-- `randomBytes(16)`, as a number, in the form of an id. -/
def newWorkstreamId (random : ℕ) : JsString := js "ws_" ++ hexText 32 random

/-- The claim of a name. -/
def nameClaim (id : JsString) : Json := .obj [(js "workstream_id", .str id)]

/-- What a creation says of its workstream, for good. -/
structure Creation where
  workstreamId : JsString
  name : JsString
  title : Option JsString
  createdBy : WorkstreamCreator
  createdAt : JsString
  deriving DecidableEq, Repr

/-- The record a creation writes. -/
def Creation.record (c : Creation) : Json :=
  .obj ([
    (js "created_at", .str c.createdAt),
    (js "created_by", c.createdBy.toJson),
    (js "name", .str c.name),
    (js "revision", natJson 1),
    (js "schema", .str workstreamSchema),
    (js "status", .str WorkstreamStatus.open.text)] ++
    optionalMember "title" (c.title.map .str) ++ [
    (js "updated_at", .str c.createdAt),
    (js "workstream_id", .str c.workstreamId)])

/-- `new Date(now).toISOString()`; the times that are no dates are refused before. -/
def timestampOf (now : Option ℤ) : Except WorkstreamFailure JsString :=
  match now with
  | none => .error (.failure (.typeError "now must be a valid date"))
  | some ms =>
    match E.isoString ms with
    | none => .error (.failure (.rangeError "Invalid time value"))
    | some s => .ok s

/-- The creation a caller asks for. -/
def creationOf (options : CreateWorkstreamOptions) (random : ℕ) : Except WorkstreamFailure Creation :=
  if !isWorkstreamName options.name then .error (.invalidName options.name)
  else do
    validateCreator options.createdBy
    let title ← normalizeTitle options.title
    let createdAt ← timestampOf E options.now
    return ⟨newWorkstreamId random, options.name, title, options.createdBy, createdAt⟩

/-- Claim first, then record. -/
def Creation.writes (c : Creation) : List Write :=
  [.claim c.name (nameClaim c.workstreamId), .record c.workstreamId c.record]

/-- Create a workstream. -/
def create (files : StoreFiles) (options : CreateWorkstreamOptions) (random : ℕ) :
    Except WorkstreamFailure (List Write × Json) := do
  let c ← creationOf E options random
  match ← resolveName E files c.name with
  | some existing => .error (.nameTaken existing)
  | none => return (c.writes, c.record)

/-- `{ ...current, status, updated_at, revision: current.revision + 1 }` -/
def withStatus (current : Json) (status : WorkstreamStatus) (updatedAt : JsString) : Json :=
  match current with
  | .obj fs => .obj (Json.setField (js "revision") (.num (.int (intAt "revision" current + 1)))
      (Json.setField (js "updated_at") (.str updatedAt) (Json.setField (js "status") (.str status.text) fs)))
  | v => v

/-- Change status under the lock. Idempotent for an unchanged status. -/
def setStatus (files : StoreFiles) (reference : JsString) (status : WorkstreamStatus) (now : Option ℤ) :
    Except WorkstreamFailure (List Write × Json) := do
  let updatedAt ← timestampOf E now
  match ← resolve E files reference with
  | none => .error (.notFound reference)
  | some current =>
    if textAt "status" current = status.text then return ([], current)
    else
      return ([.record (textAt "workstream_id" current) (withStatus current status updatedAt)],
        withStatus current status updatedAt)

end

end Barbaro.Workstreams
