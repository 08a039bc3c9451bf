import Barbaro.Hooks.Participation
import Barbaro.Nudge.Unread

/-!
# The watch engine

A watcher first takes what the store holds as known; each poll then returns what is new.
What it knows are byte offsets of feeds and sets of keys, which a scan advances as it goes.
A poll is four scans, and what one of them throws the poll throws.

* `consumeFeed`: the new lines of one feed.
* `poll`: one tick.

The projection of a turn into an event and the scan of the leases are given; the wall-clock
stamps of events are left out.
-/

namespace Barbaro.Watch

/-- A feed, and how its bytes arrive from an offset on. -/
structure WatchedFeed where
  provider : JsString
  sessionId : JsString
  file : FileState
  chunks : ℕ → List Bytes
  chunks_flatten : ∀ offset, (chunks offset).flatten = file.bytes.drop offset

/-- The path of a feed. -/
abbrev FeedKey := JsString × JsString

def WatchedFeed.key (f : WatchedFeed) : FeedKey := (f.provider, f.sessionId)

/-- A valid incident marker. -/
structure IncidentRecord where
  provider : JsString
  incidentId : JsString
  kind : JsString
  event : Option JsString
  workstreamId : Option JsString
  occurredAt : JsString
  deriving DecidableEq

def IncidentRecord.key (i : IncidentRecord) : JsString × JsString := (i.provider, i.incidentId)

/-- What a poll finds: the consent files, the entries of the feed directories with canonical
names (nothing for one that is no real file), the valid incidents and the leases. -/
structure WatchStore (A : Type) where
  consents : Except Failure (List (ParticipatingProvider × JsString × Bytes))
  feeds : List (Option WatchedFeed)
  incidents : Except Failure (List IncidentRecord)
  leases : A

/-- What the watcher was armed with. The projection of a turn asks the system nothing.
`scanLeases` also gives the state of the leases after the scan. -/
structure WatchConfig (E : Host) (A L V : Type) where
  self : Option JsString
  workstream : Option JsString
  turnByteBudget : ℕ := 4096
  projectTurn : Turn E → ℕ → Except Failure Json
  projectTurn_pure : ∀ turn budget code, projectTurn turn budget ≠ .error (.system code)
  scanLeases : A → L → L × Except Failure (List V)

inductive WatchEvent (V : Type)
  | join (provider sessionId : JsString) (workstreamId : Option JsString) (joinedAt initiatedBy : JsString)
  | turn (provider sessionId : JsString) (workstreamId : Option JsString) (turn : Json)
  | incident (record : IncidentRecord)
  | lease (event : V)

inductive WatchEventKind
  | join
  | turn
  | incident
  | lease
  deriving DecidableEq

def WatchEvent.kind {V : Type} : WatchEvent V → WatchEventKind
  | .join .. => .join
  | .turn .. => .turn
  | .incident _ => .incident
  | .lease _ => .lease

structure WatchState (L : Type) where
  /-- First unread byte, always at the start of a physical line. -/
  feedCursors : FeedKey → Option ℕ
  seenIncidents : List (JsString × JsString)
  /-- Provider, session and current workstream, already observed. -/
  knownSessions : List (JsString × JsString × Option JsString)
  leases : L
  primed : Bool

/-- Ceiling for retrying a turn whose minimum projection exceeds the normal per-event
budget. -/
def fallbackTurnByteBudget : ℕ := 64 * 1024

def watchWakeMarker : JsString := js "barbaro peers: turns, joins, incidents, stale leases"

section
variable {E : Host} {A L V : Type} (W : WatchConfig E A L V)

/-! ## Joins -/

/-- A record without a workstream is outside every scope but the whole project. -/
def inScope (workstreamId : Option JsString) : Bool :=
  match W.workstream with
  | none => true
  | some w => workstreamId == some w

/-- `SessionParticipationStore.list`: the valid records. -/
def listParticipations (E : Host) (consents : List (ParticipatingProvider × JsString × Bytes)) :
    List (SessionParticipation E) :=
  consents.filterMap fun c =>
    match readParticipation E c.1 c.2.1 (some c.2.2) with
    | .ok p => p
    | .error _ => none

/-- The event of a session that is new in its workstream. -/
def joinEvent (p : SessionParticipation E) : WatchEvent V :=
  .join p.provider p.sessionId p.workstreamId
    (((participationMemberships p).getLast?.map (·.start)).getD p.joinedAt) (js "user_prompt")

def turnStartMethod (turn : Turn E) : Option JsString :=
  match (((turn.json.get (js "extensions")).bind (·.get (js "claude"))).bind
      (·.get (js "turn_start"))).bind (·.get (js "method")) with
  | some (.str method) => some method
  | _ => none

/-- The request carries the description of a Monitor that fired. -/
def isWatchWakeRequest (requestText : JsString) : Bool :=
  decide (js "<task-notification>" <:+: requestText) && decide (watchWakeMarker <:+: requestText)

/-- A machine-driven turn is the echo, never the news. -/
def isEchoTurn (turn : Turn E) : Bool :=
  match turnStartMethod turn with
  | some method => method == js "task-notification"
  | none => isWatchWakeRequest (turn.contentText "request")

/-- A turn that outgrows the normal budget still deserves an event. -/
def turnProjection (turn : Turn E) : Except Failure Json :=
  match W.projectTurn turn W.turnByteBudget with
  | .error (.rangeError _) => W.projectTurn turn fallbackTurnByteBudget
  | projected => projected

def turnEvent (turn : Turn E) : Except Failure (WatchEvent V) :=
  (turnProjection W turn).map (.turn turn.provider turn.sessionId turn.workstreamId)

/-- What a line of a feed is to the watcher. -/
def recordEvent (report : Bool) (key : FeedKey) (value : Json) : Except Failure (Option (WatchEvent V)) :=
  match Turn.ofJson E value with
  | none => .ok none
  | some turn =>
    if turn.provider ≠ key.1 ∨ turn.sessionId ≠ key.2 then .ok none
    else if !report || isEchoTurn turn || !inScope W turn.workstreamId then .ok none
    else (turnEvent W turn).map some

def lineTurnEvent (report : Bool) (key : FeedKey) (line : JsonlLine Json) :
    Except Failure (Option (WatchEvent V)) :=
  match line.kind with
  | .malformed _ => .ok none
  | .record value => recordEvent W report key value

/-- `isErrnoCode(error, "ENOENT")` -/
def isMissing : Failure → Bool
  | .system code => code == "ENOENT"
  | _ => false

/-- `listFeedFiles`: a canonical name that is no real file is refused. -/
def listFeedFiles (entries : List (Option WatchedFeed)) : Except Failure (List WatchedFeed) :=
  if entries.any Option.isNone then .error (.error "canonical JSONL path is not a real file")
  else .ok (entries.filterMap id)

def scanLeases (store : WatchStore A) (w : WatchState L) :
    WatchState L × Except Failure (List (WatchEvent V)) :=
  let (leases, events) := W.scanLeases store.leases w.leases
  ({ w with leases }, events.map (fun events => events.map .lease))

/-- Two scans in turn: what the first has advanced stays advanced if the second throws. -/
def andThen (first second : WatchState L → WatchState L × Except Failure (List (WatchEvent V)))
    (w : WatchState L) : WatchState L × Except Failure (List (WatchEvent V)) :=
  match first w with
  | (w', .error f) => (w', .error f)
  | (w', .ok events) => ((second w').1, (second w').2.map (fun more => events ++ more))

/-- A new engine. -/
def WatchState.initial (leases : L) : WatchState L where
  feedCursors _ := none
  seenIncidents := []
  knownSessions := []
  leases
  primed := false

end

end Barbaro.Watch
