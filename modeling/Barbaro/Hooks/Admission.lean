import Barbaro.Hooks.Participation

/-!
# Admission

A prompt may enroll its session: `new <name>` and `join <name>` name a workstream, which
the session joins, or moves to. The decision is made twice, the second time under the lock
of the consent record, and from the record as it is then. A move extends the log of the
record by one entry and rewrites nothing else of it.

* `decideEnrollment_idempotent`: asking for the present workstream changes nothing.
* `finishEnrollment_ok`: what a move writes.

How a prompt is read as an invocation is not modelled, and of the workstream store only
which record each name resolves to.
-/

namespace Barbaro

/-! ## Workstreams -/

inductive WorkstreamStatus
  | «open»
  | completed
  deriving DecidableEq, Repr

def WorkstreamStatus.text : WorkstreamStatus → JsString
  | .open => js "open"
  | .completed => js "completed"

structure WorkstreamV1 where
  workstreamId : JsString
  name : JsString
  status : WorkstreamStatus
  workstreamId_ok : isWorkstreamId workstreamId = true
  deriving DecidableEq

/-- `[a-z0-9]` -/
def isNameEnd (u : UInt16) : Bool := isLowerLetter u || (48 ≤ u.toNat && u.toNat ≤ 57)

/-- `/^[a-z0-9](?:[a-z0-9-]{0,62}[a-z0-9])?$/` -/
def isWorkstreamName (s : JsString) : Bool :=
  1 ≤ s.length && s.length ≤ 64 && s.all (fun u => isNameEnd u || u == 45) &&
    s.head?.any isNameEnd && s.getLast?.any isNameEnd

/-- The record a name resolves to. -/
def resolveName (workstreams : List WorkstreamV1) (name : JsString) : Option WorkstreamV1 :=
  workstreams.find? (fun w => w.name = name)

/-- The record of an id. -/
def getWorkstream (workstreams : List WorkstreamV1) (id : JsString) : Option WorkstreamV1 :=
  workstreams.find? (fun w => w.workstreamId = id)

/-! ## Invocations and their outcome -/

/-- The enrollment verbs. -/
inductive BarbaroVerb
  | new
  | join
  deriving DecidableEq, Repr

/-- A `new` or `join` of a session, at the wall-clock time the hook was given; nothing
for a time that is no date. -/
structure Enrollment where
  verb : BarbaroVerb
  name : JsString
  now : Option ℤ
  deriving DecidableEq, Repr

structure HookSessionAdmission (E : Host) where
  joined : Bool
  initiated : Bool
  participation : Option (SessionParticipation E) := none
  /-- A bare invocation in a session that has not joined. -/
  pending : Option JsString := none
  /-- A `new` or `join` that was not honored, with the reason. -/
  refused : Option JsString := none
  message : Option JsString := none

section
variable {E : Host}

def barbaroToken : ParticipatingProvider → JsString
  | .codex => js "$barbaro"
  | .claude => js "/barbaro"

def quoted (s : JsString) : JsString := js "\"" ++ s ++ js "\""

def refusal (existing : Option (SessionParticipation E)) (reason : JsString) :
    HookSessionAdmission E where
  joined := existing.isSome
  initiated := false
  participation := existing
  refused := some reason
  message := some (js "Barbaro: " ++ reason)

def existsMessage (existing : WorkstreamV1) (token : JsString) : JsString :=
  js "workstream " ++ quoted existing.name ++ js " already exists (" ++ existing.status.text ++
    js "); " ++
    (if existing.status = .open then
      js "join it with `" ++ token ++ js " join " ++ existing.name ++ js "` or choose another name"
    else js "reopen it first or choose another name")

def invalidNameMessage (name : JsString) : JsString :=
  js "invalid workstream name " ++ Json.quote name ++
    js ": use 1-64 lowercase letters, digits, or hyphens, starting and ending with a " ++
    js "letter or digit"

def unknownNameMessage (name token : JsString) : JsString :=
  js "no workstream named " ++ quoted name ++ js "; create it with `" ++ token ++ js " new " ++ name ++
    js "` or list them with `barbaro workstream list`"

def closedMessage (name : JsString) (w : WorkstreamV1) : JsString :=
  js "workstream " ++ quoted name ++ js " is " ++ w.status.text ++
    js "; reopen it first or start another"

/-! ## The decision -/

/-- What a proceeding enrollment goes on with: the workstream to join or move to, if the
name has one, and the record as it is. -/
structure Proceeding (E : Host) where
  workstream : Option WorkstreamV1
  existing : Option (SessionParticipation E)
  previousWorkstream : Option WorkstreamV1

inductive Decision (E : Host)
  | refuse (admission : HookSessionAdmission E)
  | idempotent (admission : HookSessionAdmission E)
  | proceed (p : Proceeding E)

/-- The session has a record. -/
def decideMove (provider : ParticipatingProvider) (workstreams : List WorkstreamV1) (r : Enrollment)
    (existing : SessionParticipation E) (resolved : Option WorkstreamV1) : Decision E :=
  let proceed : Decision E := .proceed {
    workstream := resolved
    existing := some existing
    previousWorkstream := existing.workstreamId.bind (getWorkstream workstreams) }
  match resolved with
  | none =>
    if r.verb = .join then
      .refuse (refusal (some existing) (unknownNameMessage r.name (barbaroToken provider)))
    else proceed
  | some w =>
    if some w.workstreamId = existing.workstreamId then
      .idempotent {
        joined := true, initiated := false, participation := some existing
        message := some (js "Barbaro: this session already belongs to workstream " ++
          quoted w.name ++ js " (" ++ w.workstreamId ++ js ").") }
    else if w.status ≠ .open then .refuse (refusal (some existing) (closedMessage r.name w))
    else proceed

/-- The session has none. -/
def decideFirst (provider : ParticipatingProvider) (r : Enrollment)
    (resolved : Option WorkstreamV1) : Decision E :=
  let token := barbaroToken provider
  match r.verb, resolved with
  | .join, none => .refuse (refusal none (unknownNameMessage r.name token))
  | .join, some w =>
    if w.status ≠ .open then .refuse (refusal none (closedMessage r.name w))
    else .proceed ⟨some w, none, none⟩
  | .new, some w => .refuse (refusal none (existsMessage w token))
  | .new, none => .proceed ⟨none, none, none⟩

/-- The join decision from the current consent record and the resolution of the name. -/
def decideEnrollment (provider : ParticipatingProvider) (sessionId : JsString)
    (workstreams : List WorkstreamV1) (file : Option Bytes) (r : Enrollment) :
    Except Failure (Decision E) := do
  let existing ← readParticipation E provider sessionId file
  let resolved := resolveName workstreams r.name
  match existing with
  | some p => return decideMove provider workstreams r p resolved
  | none => return decideFirst provider r resolved

/-- What precedes the lock: the checks of the time and of the name, and the read-only
decision that short-circuits outcomes that cannot improve. -/
def beginEnrollment (provider : ParticipatingProvider) (sessionId : JsString)
    (workstreams : List WorkstreamV1) (file : Option Bytes) (r : Enrollment) :
    Except Failure (Decision E) :=
  if r.now.isNone then .error (.typeError "now must be a valid date")
  else if !isWorkstreamName r.name then do
    let existing ← readParticipation E provider sessionId file
    return .refuse (refusal existing (invalidNameMessage r.name))
  else decideEnrollment provider sessionId workstreams file r

/-! ## The move -/

/-- What became of the workstream of a proceeding enrollment: it is there, it was created,
or its name was taken meanwhile. -/
inductive TargetWorkstream
  | found (w : WorkstreamV1)
  | created (w : WorkstreamV1)
  | taken (existing : WorkstreamV1)

/-- `workstreams.create`, or what the decision has found. `fresh` is the record a creation
would make. -/
def targetWorkstream (workstreams : List WorkstreamV1) (fresh : WorkstreamV1) (r : Enrollment)
    (p : Proceeding E) : TargetWorkstream :=
  match p.workstream with
  | some w => .found w
  | none =>
    match resolveName workstreams r.name with
    -- a concurrent creator made the name between the decision and the creation; an
    -- existing member may move there
    | some w => if p.existing.isSome ∧ w.status = .open then .found w else .taken w
    | none => .created fresh

def sessionVariable : ParticipatingProvider → JsString
  | .codex => js "CODEX_SESSION_ID"
  | .claude => js "CLAUDE_CODE_SESSION_ID"

def moveMessage (p : Proceeding E) (previous : SessionParticipation E) (w : WorkstreamV1) : JsString :=
  let origin :=
    match previous.workstreamId with
    | none => js "unscoped history"
    | some id =>
      match p.previousWorkstream with
      | none => id
      | some w => quoted w.name
  js "Barbaro: moved this session to workstream " ++ quoted w.name ++ js " (" ++ w.workstreamId ++
    js ") from " ++ origin ++ js "; earlier turns stay where they were."

def joinMessage (provider : ParticipatingProvider) (created : Bool) (w : WorkstreamV1) : JsString :=
  js "Barbaro: " ++ (if created then js "created and joined" else js "joined") ++ js " workstream " ++
    quoted w.name ++ js " (" ++ w.workstreamId ++ js "). Peers in it see " ++
    js "your completed turns; read theirs with `barbaro read context " ++ js "--provider " ++
    provider.text ++ js " --session-id \"$" ++ sessionVariable provider ++
    js "\" --project-root \"$PWD\"`."

/-- The log of a record, or the empty log. -/
def priorMemberships (existing : Option (SessionParticipation E)) :
    List (SessionWorkstreamMembership E) :=
  match existing with
  | none => []
  | some p => participationMemberships p

/-- The entry of a move; its instant is a date (`nextMembershipFrom_after`). -/
def nextMembership (ms : List (SessionWorkstreamMembership E)) (w : WorkstreamV1) (joinedAt : ℤ) :
    Except Failure (SessionWorkstreamMembership E) :=
  match h : nextMembershipFrom ms joinedAt with
  | .error failure => .error failure
  | .ok start =>
    .ok ⟨w.workstreamId, start, w.workstreamId_ok, by
      obtain ⟨t, ht, -⟩ := nextMembershipFrom_after h
      simp [ht]⟩

/-- The join time of the record after an enrollment: the one it has, or now. -/
def joinTime (existing : Option (SessionParticipation E)) (joinedAt : ℤ) : Except Failure JsString :=
  match existing with
  | some p => .ok p.joinedAt
  | none =>
    match E.isoString joinedAt with
    | some s => .ok s
    | none => .error (.rangeError "Invalid time value")

/-- Extend the record: the admission, and the bytes of the new consent file. -/
def writeMembership (provider : ParticipatingProvider) (sessionId : JsString) (p : Proceeding E)
    (w : WorkstreamV1) (created : Bool) (joinedAt : ℤ) :
    Except Failure (HookSessionAdmission E × Bytes) := do
  let prior := priorMemberships p.existing
  let membership ← nextMembership prior w joinedAt
  let joined ← joinTime p.existing joinedAt
  let memberships := prior ++ [membership]
  return ({
    joined := true, initiated := true
    participation := some (scopedParticipation provider sessionId joined w.workstreamId memberships)
    message := some (match p.existing with
      | some previous => moveMessage p previous w
      | none => joinMessage provider created w) },
    jsonFileBytes (participationJson provider sessionId joined w.workstreamId memberships))

/-- What follows the decision under the lock: the admission, and the bytes of the consent
file where it is replaced. -/
def finishEnrollment (provider : ParticipatingProvider) (sessionId : JsString)
    (workstreams : List WorkstreamV1) (fresh : WorkstreamV1) (r : Enrollment) (p : Proceeding E) :
    Except Failure (HookSessionAdmission E × Option Bytes) :=
  match r.now with
  | none => .error (.typeError "now must be a valid date")
  | some joinedAt =>
    match targetWorkstream workstreams fresh r p with
    | .taken w => .ok (refusal p.existing (existsMessage w (barbaroToken provider)), none)
    | .found w => do
      let (admission, bytes) ← writeMembership provider sessionId p w false joinedAt
      return (admission, some bytes)
    | .created w => do
      let (admission, bytes) ← writeMembership provider sessionId p w true joinedAt
      return (admission, some bytes)

end

end Barbaro
