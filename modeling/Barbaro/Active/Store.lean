import Barbaro.Active.Validation

/-!
# The store of active leases

Every actor has one file, which is replaced as a whole under a lock: a new lease is written
to a temporary file that takes the place of the old one. The four ways to write a lease
compute its revision from the lease the file holds, from what the caller expects or from
what the caller brings; `reapExpiredIdle` deletes the files of actors that are gone.

A store is the bytes of its files. What the clock says and which steps of the file system
or of the caller's callbacks fail is given to each operation.
-/

namespace Barbaro.Active

/-- The file of an actor, below the directory of the store. -/
structure ActivePath where
  provider : JsString
  filename : JsString
  deriving DecidableEq, Repr

abbrev ActiveFiles := ActivePath → Option Bytes

def ActivePath.text (p : ActivePath) : String := messageText p.provider ++ "/" ++ messageText p.filename

/-- The exceptions of the store. -/
inductive ActiveFailure
  | failure (f : Failure)
  /-- `ActiveLeaseValidationError` -/
  | invalidLease (issues : List ValidationIssue)
  /-- `ActiveLeaseRevisionConflictError` -/
  | revisionConflict (expected actual : ℕ)
  /-- `DirectoryLockReleaseError`: what the lock protected was done. -/
  | lockRelease (releaseError : Failure)
  /-- `AggregateError`: the write failed, and so did its compensation. -/
  | aggregate (writeError : ActiveFailure) (rollbackError : Failure)
  deriving DecidableEq, Repr

def defaultTtlMs : ℤ := 5 * 60 * 1000

/-- How long past expiry an idle tombstone must be before it may be deleted. -/
def reapIdleAfterMs : ℤ := 24 * 60 * 60 * 1000

def maxActiveLeaseBytes : ℕ := 1024 * 1024

/-- What one call meets: the clock, and the steps of the file system that fail. -/
structure StoreCall where
  /-- `options.now ?? this.clock()`, nothing for a time that is none. -/
  now : Option ℤ
  lock : Option Failure := none
  read : Option Failure := none
  /-- A step of `atomicReplace`, up to its `rename`. -/
  replace : Option Failure := none
  release : Option Failure := none

/-- A JSON value of a caller. -/
structure JsonInput (E : Host) where
  json : Json
  wellFormed : json.WellFormed E.float

section
variable (E : Host)

/-! ## Names -/

/-- `framedHash`, as a hex digest. -/
def framedHash (domain : JsString) (parts : List JsString) : JsString :=
  E.sha256 (utf8 ([(0 : UInt16)].intercalate
    (domain :: parts.map (fun part => Json.decDigits (byteLength part) ++ 58 :: part))))

/-- A name that tells neither the actor nor the session. The actor key was validated. -/
def activeActorFilename (actor : ActiveActorKey) : JsString :=
  js "actor_" ++ framedHash E (js "barbaro-active-actor-file-v1")
    [actor.provider, actor.sessionId, actor.agentId] ++ js ".json"

/-- `/^actor_[0-9a-f]{64}\.json$/` -/
def isActorFilename (s : JsString) : Bool :=
  s.take 6 == js "actor_" && isSha256Hex ((s.drop 6).take 64) && s.drop 70 == js ".json"

def actorPath (actor : ActiveActorKey) : Except ActiveFailure ActivePath :=
  if validateActiveActorKey actor = [] then .ok ⟨actor.provider, activeActorFilename E actor⟩
  else .error (.invalidLease (validateActiveActorKey actor))

/-! ## Files -/

def parseActiveLeaseJson (json : JsString) : Except ActiveFailure (ActiveLeaseV1 E) :=
  match Json.parse E.float json with
  | none => .error (.invalidLease [⟨js "$", "must be valid JSON"⟩])
  | some value =>
    if h : validateActiveLease E value = [] then .ok ⟨value, h⟩
    else .error (.invalidLease (validateActiveLease E value))

def readPath (call : StoreCall) (files : ActiveFiles) (p : ActivePath) :
    Except ActiveFailure (Option (ActiveLeaseV1 E)) :=
  match call.read, files p with
  | some f, _ => .error (.failure f)
  | none, none => .ok none
  | none, some bytes =>
    if bytes.length > maxActiveLeaseBytes then
      .error (.failure (.inputLimit s!"Barbaro store file {p.text} exceeds {maxActiveLeaseBytes} bytes"
        .file maxActiveLeaseBytes none))
    else (parseActiveLeaseJson E (bytesToString bytes)).map some

/-- The bytes of the file of a lease. -/
def leaseBytes (lease : Json) : Bytes := utf8 (lease.render ++ [10])

/-- The file is replaced as a whole, or not at all. -/
def atomicReplace (call : StoreCall) (p : ActivePath) (lease : Json) (files : ActiveFiles) :
    ActiveFiles × Except ActiveFailure Unit :=
  match call.replace with
  | some f => (files, .error (.failure f))
  | none => (Function.update files p (some (leaseBytes lease)), .ok ())

/-- What comes of an operation under the lock. -/
inductive LockOutcome (α : Type)
  | done (result : α)
  | failed (error : ActiveFailure)
  | releaseFailed (result : α) (releaseError : Failure)

/-- The lock is released also when the operation fails; a failure to do so is then not told. -/
def withActiveActorLock {α : Type} (call : StoreCall) (files : ActiveFiles)
    (operation : ActiveFiles → ActiveFiles × Except ActiveFailure α) : ActiveFiles × LockOutcome α :=
  match call.lock with
  | some f => (files, .failed (.failure f))
  | none =>
    match operation files with
    | (files', .error e) => (files', .failed e)
    | (files', .ok result) =>
      match call.release with
      | some f => (files', .releaseFailed result f)
      | none => (files', .done result)

/-- A caller that is not told of committed work. -/
def LockOutcome.settle {α : Type} : LockOutcome α → Except ActiveFailure α
  | .done result => .ok result
  | .failed e => .error e
  | .releaseFailed _ f => .error (.lockRelease f)

/-! ## Building a lease -/

/-- `{ ...fields, ...overrides }` -/
def withFields (fields : List (JsString × Json)) (overrides : List (String × Json)) : Json :=
  .obj (overrides.foldl (fun o f => Json.setField (js f.1) f.2 o) fields)

def jsonFields : Json → List (JsString × Json)
  | .obj fs => fs
  | _ => []

/-- `JSON.parse(JSON.stringify(lease))` -/
def cloneLease (lease : Json) : Json := (Json.parse E.float lease.render).getD .null

/-- `new Date(value).toISOString()` -/
def toISOString (value : ℤ) : Except ActiveFailure JsString :=
  match E.isoString value with
  | some s => .ok s
  | none => .error (.failure (.rangeError "Invalid time value"))

def buildLease (update : Json) (revision : ℕ) (updatedAt expiresAt : ℤ) : Except ActiveFailure Json := do
  let updated ← toISOString E updatedAt
  let expires ← toISOString E expiresAt
  return withFields (jsonFields update) [("schema", .str activeLeaseSchema),
    ("revision", .num (.int revision)), ("updated_at", .str updated), ("expires_at", .str expires)]

def generatedFields : List String := ["schema", "revision", "updated_at", "expires_at"]

def assertUpdateDoesNotSetGeneratedFields (update : Json) : Except ActiveFailure Unit :=
  if !isObject (some update) then .error (.failure (.typeError "Active lease update must be an object"))
  else
    match generatedFields.find? (fun key => (update.get (js key)).isSome) with
    | some key => .error (.failure (.typeError s!"Active lease update must not set generated field {key}"))
    | none => .ok ()

def checkLease (lease : Json) : Except ActiveFailure Unit :=
  if validateActiveLease E lease = [] then .ok () else .error (.invalidLease (validateActiveLease E lease))

def assertCurrentIdentity (current : Option (ActiveLeaseV1 E)) (next : Json) : Except ActiveFailure Unit :=
  match current with
  | none => .ok ()
  | some lease =>
    if lease.actor ≠ actorFromLease next then
      .error (.failure (.error "Existing active lease belongs to a different actor"))
    else if lease.leaseId ≠ textAt "lease_id" next then
      .error (.failure (.error "lease_id changed for an existing actor"))
    else .ok ()

/-- `current?.revision ?? 0` -/
def currentRevision {E : Host} (current : Option (ActiveLeaseV1 E)) : ℕ :=
  (current.map (·.revision)).getD 0

/-- The lease with the next revision, at the time of the call. -/
def nextLease (call : StoreCall) (current : Option (ActiveLeaseV1 E)) (detached : Json) (ttlMs : ℤ) :
    Except ActiveFailure Json := do
  if maxSafeInteger ≤ currentRevision current then
    .error (.failure (.rangeError "Active lease revision is exhausted"))
  else
    match call.now with
    | none => .error (.failure (.typeError "now must be a valid date-time"))
    | some now => do
      let updated ← toISOString E now
      let expires ← toISOString E (now + ttlMs)
      let lease := withFields (jsonFields detached)
        [("revision", .num (.int ((currentRevision current : ℕ) + 1))), ("updated_at", .str updated),
          ("expires_at", .str expires)]
      checkLease E lease
      return lease

/-- The next lease takes the place of the current one. -/
def replaceWithNext (call : StoreCall) (p : ActivePath) (current : Option (ActiveLeaseV1 E))
    (detached : Json) (ttlMs : ℤ) (files : ActiveFiles) : ActiveFiles × Except ActiveFailure Json :=
  match nextLease E call current detached ttlMs with
  | .error e => (files, .error e)
  | .ok lease =>
    match atomicReplace call p lease files with
    | (files', .error e) => (files', .error e)
    | (files', .ok _) => (files', .ok lease)

/-! ## Writing -/

structure WriteOptions where
  ttlMs : ℤ := defaultTtlMs
  expectedRevision : Option ℤ := none

def positiveTtl (value : ℤ) : Except ActiveFailure ℤ :=
  if value ≤ 0 ∨ (maxSafeInteger : ℤ) < value then
    .error (.failure (.typeError "ttlMs must be a positive safe integer"))
  else .ok value

def expectedRevision : Option ℤ → Except ActiveFailure (Option ℕ)
  | none => .ok none
  | some value =>
    if value < 0 ∨ (maxSafeInteger : ℤ) < value then
      .error (.failure (.typeError "expectedRevision must be a non-negative safe integer"))
    else .ok (some value.toNat)

/-- A lease to be written: the caller's value with stand-ins for what is generated. -/
def detachLease (update : Json) : Except ActiveFailure Json := do
  let template ← buildLease E update 1 0 1
  checkLease E template
  return cloneLease E template

/-- The part of `write` that is done under the lock. -/
def writeLocked (call : StoreCall) (p : ActivePath) (detached : Json) (wantedRevision : Option ℕ)
    (ttlMs : ℤ) (files : ActiveFiles) : ActiveFiles × Except ActiveFailure Json :=
  match readPath E call files p with
  | .error e => (files, .error e)
  | .ok current =>
    match assertCurrentIdentity E current detached with
    | .error e => (files, .error e)
    | .ok _ =>
      match wantedRevision.filter (fun wanted => wanted ≠ currentRevision current) with
      | some wanted => (files, .error (.revisionConflict wanted (currentRevision current)))
      | none => replaceWithNext E call p current detached ttlMs files

/-- Writes an update with the next revision. -/
def write (call : StoreCall) (update : JsonInput E) (options : WriteOptions) (files : ActiveFiles) :
    ActiveFiles × Except ActiveFailure Json :=
  let prepared : Except ActiveFailure (Json × Option ℕ × ActivePath) := do
    assertUpdateDoesNotSetGeneratedFields update.json
    let _ ← positiveTtl options.ttlMs
    let wanted ← expectedRevision options.expectedRevision
    let detached ← detachLease E update.json
    let p ← actorPath E (actorFromLease detached)
    return (detached, wanted, p)
  match prepared with
  | .error e => (files, .error e)
  | .ok (detached, wanted, p) =>
    let locked := withActiveActorLock call files (writeLocked E call p detached wanted options.ttlMs)
    (locked.1, locked.2.settle)

/-- What `decide` makes of the lease it is shown. -/
inductive ActiveLeaseDecision
  | ignore (reason : JsString)
  | write (update : JsonInput E)

structure UpdateOptions where
  ttlMs : ℤ := defaultTtlMs
  /-- What becomes of the compensation of a failed write. -/
  onWriteFailure : Option (ActiveFailure → Except Failure Unit) := none
  /-- Run after persistence: a failure propagates but cannot undo the committed lease. -/
  afterCommit : Option (Json → Except Failure Unit) := none
  /-- Whether a lock cleanup failure is observed. -/
  onLockReleaseFailure : Bool := false

inductive ActiveLeaseUpdateResult
  | ignored (reason : JsString)
  | lease (lease : Json)

/-- The write an update has decided on. -/
def updateWrite (call : StoreCall) (p : ActivePath) (actor : ActiveActorKey)
    (current : Option (ActiveLeaseV1 E)) (update : JsonInput E) (ttlMs : ℤ) (files : ActiveFiles) :
    ActiveFiles × Except ActiveFailure Json :=
  let prepared : Except ActiveFailure Json := do
    assertUpdateDoesNotSetGeneratedFields update.json
    detachLease E update.json
  match prepared with
  | .error e => (files, .error e)
  | .ok detached =>
    if actor ≠ actorFromLease detached then
      (files, .error (.failure (.error "Active lease update must target the locked actor")))
    else
      match assertCurrentIdentity E current detached with
      | .error e => (files, .error e)
      | .ok _ => replaceWithNext E call p current detached ttlMs files

/-- The compensation of a failed write; its own failure is told with that of the write. -/
def compensate (onWriteFailure : Option (ActiveFailure → Except Failure Unit)) (e : ActiveFailure) :
    ActiveFailure :=
  match onWriteFailure with
  | none => e
  | some callback =>
    match callback e with
    | .ok _ => e
    | .error rollbackError => .aggregate e rollbackError

/-- The part of `update` that is done under the lock. -/
def updateLocked (call : StoreCall) (p : ActivePath) (actor : ActiveActorKey)
    (decide : Option Json → Except Failure (ActiveLeaseDecision E)) (options : UpdateOptions)
    (files : ActiveFiles) : ActiveFiles × Except ActiveFailure ActiveLeaseUpdateResult :=
  match readPath E call files p with
  | .error e => (files, .error e)
  | .ok current =>
    if current.any (fun lease => lease.actor ≠ actor) then
      (files, .error (.failure (.error s!"Active lease at {p.text} does not match its actor path")))
    else
      match decide (current.map (fun lease => cloneLease E lease.json)) with
      | .error f => (files, .error (.failure f))
      | .ok (.ignore reason) => (files, .ok (.ignored reason))
      | .ok (.write update) =>
        match updateWrite E call p actor current update options.ttlMs files with
        | (files', .error e) => (files', .error (compensate options.onWriteFailure e))
        | (files', .ok committed) =>
          match options.afterCommit.elim (.ok ()) (fun callback => callback (cloneLease E committed)) with
          | .error f => (files', .error (.failure f))
          | .ok _ => (files', .ok (.lease committed))

/-- Read-modify-write in one critical section. -/
def update (call : StoreCall) (actor : ActiveActorKey)
    (decide : Option Json → Except Failure (ActiveLeaseDecision E)) (options : UpdateOptions)
    (files : ActiveFiles) : ActiveFiles × Except ActiveFailure ActiveLeaseUpdateResult :=
  let prepared : Except ActiveFailure ActivePath := do
    let p ← actorPath E actor
    let _ ← positiveTtl options.ttlMs
    return p
  match prepared with
  | .error e => (files, .error e)
  | .ok p =>
    let locked := withActiveActorLock call files (updateLocked E call p actor decide options)
    match locked.2 with
    | .releaseFailed result f =>
      -- the committed result is told, the observer is told of the failure
      if options.onLockReleaseFailure then (locked.1, .ok result) else (locked.1, .error (.lockRelease f))
    | outcome => (locked.1, outcome.settle)

/-- The part of `writeSnapshot` that is done under the lock. -/
def writeSnapshotLocked (call : StoreCall) (p : ActivePath) (detached : Json) (files : ActiveFiles) :
    ActiveFiles × Except ActiveFailure Json :=
  match readPath E call files p with
  | .error e => (files, .error e)
  | .ok current =>
    match assertCurrentIdentity E current detached with
    | .error e => (files, .error e)
    | .ok _ =>
      if leaseRevision detached ≤ currentRevision current then
        (files, .error (.revisionConflict (leaseRevision detached) (currentRevision current)))
      else
        match atomicReplace call p detached files with
        | (files', .error e) => (files', .error e)
        | (files', .ok _) => (files', .ok detached)

/-- Writes a caller-versioned snapshot only when its revision is newer. -/
def writeSnapshot (call : StoreCall) (lease : JsonInput E) (files : ActiveFiles) :
    ActiveFiles × Except ActiveFailure Json :=
  let prepared : Except ActiveFailure (Json × ActivePath) := do
    checkLease E lease.json
    let detached := cloneLease E lease.json
    let p ← actorPath E (actorFromLease detached)
    return (detached, p)
  match prepared with
  | .error e => (files, .error e)
  | .ok (detached, p) =>
    let locked := withActiveActorLock call files (writeSnapshotLocked E call p detached)
    (locked.1, locked.2.settle)

/-- Whose tombstone it is. -/
structure ActiveLeaseIdentity where
  leaseId : JsString
  actor : ActiveActorKey
  workstreamId : Option JsString := none
  turnId : Option JsString := none
  sourceRefs : Option (JsonInput E) := none
  extensions : Option (JsonInput E) := none

variable {E}

/-- A member of an object literal that is there only with a value. -/
def optionalField (key : String) (value : Option Json) : List (JsString × Json) :=
  (value.map (fun v => (js key, v))).toList

/-- The Stop-hook tombstone body: work details and claims deliberately cleared. -/
def idleLeaseJson (identity : ActiveLeaseIdentity E) : Json :=
  .obj ([(js "lease_id", .str identity.leaseId), (js "provider", .str identity.actor.provider),
    (js "session_id", .str identity.actor.sessionId), (js "agent_id", .str identity.actor.agentId),
    (js "state", .str (js "idle")), (js "claims", .arr []), (js "unknown_write_scope", .bool false)] ++
    optionalField "workstream_id" (identity.workstreamId.map .str) ++
    optionalField "turn_id" (identity.turnId.map .str) ++
    optionalField "source_refs" (identity.sourceRefs.map (·.json)) ++
    optionalField "extensions" (identity.extensions.map (·.json)))

/-- The tombstone of an actor, as an update. -/
def idleLeaseUpdate (identity : ActiveLeaseIdentity E) : JsonInput E where
  json := idleLeaseJson identity
  wellFormed := by
    unfold idleLeaseJson optionalField
    rcases identity.workstreamId with _ | w
    all_goals rcases identity.turnId with _ | t
    all_goals rcases identity.sourceRefs with _ | refs
    all_goals rcases identity.extensions with _ | extensions
    all_goals
      simp [Json.WellFormed, Json.WellFormedFields, Json.WellFormedItems, JsonInput.wellFormed]

variable (E) in
/-- Publishes the Stop-hook tombstone. -/
def writeIdle (call : StoreCall) (identity : ActiveLeaseIdentity E) (options : WriteOptions)
    (files : ActiveFiles) : ActiveFiles × Except ActiveFailure Json :=
  write E call (idleLeaseUpdate identity) options files

/-! ## Deleting tombstones -/

/-- Idle, and expired at or before the cutoff. -/
def isReapable (lease : ActiveLeaseV1 E) (cutoffMillis : ℤ) : Bool :=
  lease.state == js "idle" && (E.dateParse lease.expiresAt).any (fun expires => expires ≤ cutoffMillis)

variable (E)

/-- The decisive check and the deletion, under the lock of the actor. -/
def reapLocked (call : StoreCall) (cutoff : ℤ) (p : ActivePath) (files : ActiveFiles) :
    ActiveFiles × Except ActiveFailure ℕ :=
  match readPath E call files p with
  | .error e => (files, .error e)
  | .ok current =>
    if current.any (fun lease => isReapable lease cutoff) then
      match call.replace with
      | some f => (files, .error (.failure f))
      | none => (Function.update files p none, .ok 1)
    else (files, .ok 0)

/-- One entry of a directory, with the number of files that were deleted for it. -/
def reapEntry (call : StoreCall) (cutoff : ℤ) (p : ActivePath) (files : ActiveFiles) :
    ActiveFiles × Except ActiveFailure ℕ :=
  if !isActorFilename p.filename then (files, .ok 0)
  else
    match readPath E call files p with
    | .error e => (files, .error e)
    | .ok none => (files, .ok 0)
    | .ok (some candidate) =>
      if !isReapable candidate cutoff then (files, .ok 0)
      else if activeActorFilename E candidate.actor ≠ p.filename then (files, .ok 0)
      else
        let locked := withActiveActorLock call files (reapLocked E call cutoff p)
        (locked.1, locked.2.settle)

/-- `isErrnoCode(error, "ENOENT")` -/
def isMissing : ActiveFailure → Bool
  | .failure (.system code) => code == "ENOENT"
  | _ => false

/-- The loop over the entries of the directories. -/
def reapLoop (calls : ActivePath → StoreCall) (cutoff : ℤ) :
    List ActivePath → ℕ → ActiveFiles → ActiveFiles × Except ActiveFailure ℕ
  | [], reaped, files => (files, .ok reaped)
  | p :: ps, reaped, files =>
    match reapEntry E (calls p) cutoff p files with
    | (files', .ok n) => reapLoop calls cutoff ps (reaped + n) files'
    | (files', .error e) =>
      if isMissing e then reapLoop calls cutoff ps reaped files' else (files', .error e)

/-- Deletes idle tombstones expired for longer than a day. The listing is what the
directories are read to hold, or what reading them throws. -/
def reapExpiredIdle (now : Option ℤ) (listing : Except ActiveFailure (List ActivePath))
    (calls : ActivePath → StoreCall) (files : ActiveFiles) : ActiveFiles × Except ActiveFailure ℕ :=
  match now, listing with
  | none, _ => (files, .error (.failure (.typeError "now must be a valid date-time")))
  | some _, .error e => (files, .error e)
  | some now, .ok entries => reapLoop E calls (now - reapIdleAfterMs) entries 0 files

end

end Barbaro.Active
